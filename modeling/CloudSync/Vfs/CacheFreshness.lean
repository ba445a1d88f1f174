/-
The content cache and metadata sync together. They meet only through the database and the cache
directory: the provider's content changes, syncs write its new metadata to the rows, and calls of
`ensure_downloaded` fetch what is there at their time. The cache refines a machine that keeps the
first copy fetched to a path for good, so a copy is as fresh as that first fetch.
-/
import CloudSync.Vfs.CacheContent

namespace CloudSync

open Prog (exec)
open ContentCache (ensureDownloaded cachePlace cachedPath)

/-! ## The system -/

/-- The cache with its database, and the content the provider has of every file. -/
structure MountState where
  cache : CacheWorld
  content : FileId → Option Bytes

/-- A change of the provider's content, a metadata sync (with the provider it talks to), or a call of
the cache. -/
inductive MountAction (π : Type)
  | change (content : FileId → Option Bytes)
  | initialSync (env : Env π) (remote : π) (step : Nat)
  | incrementalSync (fuel : Nat) (env : Env π) (remote : π) (step : Nat)
  | ensureDownloaded (fileId : FileId)

/-- Downloads write the provider's content of the file. -/
def CacheEnv.serving (env : CacheEnv) (content : FileId → Option Bytes) : CacheEnv :=
  { env with download := fun _ fileId => match content fileId with
      | some bytes => (.ok (), some bytes)
      | none => (.error (.fileNotFound fileId.val), none) }

namespace MountState

variable {π : Type} (env : CacheEnv) (cacheRoot : UnixPath.Text) (accountId : AccountId)

/-- A call of the cache: its result, and the cache after it. -/
def ensure (s : MountState) (fileId : FileId) : Except CacheStop UnixPath.Text × CacheWorld :=
  exec (env.serving s.content).handler (ensureDownloaded cacheRoot accountId fileId) s.cache

def step (s : MountState) : MountAction π → MountState
  | .change content => { s with content := content }
  | .initialSync senv remote step =>
    { s with cache := { s.cache with
        db := (exec (handler senv) (initialSync accountId) ⟨s.cache.db, remote, step⟩).2.db } }
  | .incrementalSync fuel senv remote step =>
    { s with cache := { s.cache with
        db := (exec (handler senv) (incrementalSync fuel accountId) ⟨s.cache.db, remote, step⟩).2.db } }
  | .ensureDownloaded fileId => { s with cache := (s.ensure env cacheRoot accountId fileId).2 }

def run (s : MountState) (actions : List (MountAction π)) : MountState :=
  actions.foldl (step env cacheRoot accountId) s

end MountState

/-! ## First copies -/

/-- The copies at the places of the local disk, and the provider's content. -/
structure FirstCopies where
  copies : List UnixPath.Text → Option Node
  content : FileId → Option Bytes

namespace FirstCopies

variable {π : Type} (env : CacheEnv) (cacheRoot : UnixPath.Text)

/-- A call fetches the content where nothing is; nothing is ever fetched again, and a sync changes no
copy. -/
def step (a : FirstCopies) : MountAction π → FirstCopies
  | .change content => { a with content := content }
  | .initialSync .. => a
  | .incrementalSync .. => a
  | .ensureDownloaded fileId =>
    match a.copies (cachePlace env cacheRoot fileId), a.content fileId with
    | none, some bytes =>
      { a with copies := Function.update a.copies (cachePlace env cacheRoot fileId) (some (.file bytes)) }
    | _, _ => a

def run (a : FirstCopies) (actions : List (MountAction π)) : FirstCopies := actions.foldl (step env cacheRoot) a

end FirstCopies

/-- What is on the disk are the first copies, and a completed file is there. -/
structure MountState.Refines (env : CacheEnv) (cacheRoot : UnixPath.Text) (s : MountState) (a : FirstCopies) :
    Prop where
  copies : s.cache.files = a.copies
  content : s.content = a.content
  completed : ∀ fileId, s.cache.locks fileId = some .complete → a.copies (cachePlace env cacheRoot fileId) ≠ none

namespace MountState

variable {π : Type} {env : CacheEnv} {cacheRoot : UnixPath.Text} {accountId : AccountId}

/-- What a call does where a copy is, where the provider has content, and where neither is. -/
theorem Refines.ensure {s : MountState} {a : FirstCopies} (h : s.Refines env cacheRoot a) (accountId : AccountId)
    (fileId : FileId) :
    (∃ node, a.copies (cachePlace env cacheRoot fileId) = some node ∧
        s.ensure env cacheRoot accountId fileId = (.ok (cachedPath cacheRoot fileId), s.cache)) ∨
      a.copies (cachePlace env cacheRoot fileId) = none ∧ ∃ db sections, match a.content fileId with
        | some bytes => s.ensure env cacheRoot accountId fileId = (.ok (cachedPath cacheRoot fileId), {
            db := db
            sections := sections
            files := Function.update s.cache.files (cachePlace env cacheRoot fileId) (some (.file bytes))
            locks := Function.update s.cache.locks fileId (some .complete)
            downloads := s.cache.downloads + 1 })
        | none => ∃ e m, s.ensure env cacheRoot accountId fileId = (.error e, {
            db := db
            sections := sections
            files := s.cache.files
            locks := Function.update s.cache.locks fileId (some (.failed m))
            downloads := s.cache.downloads + 1 }) := by
  cases hcopy : a.copies (cachePlace env cacheRoot fileId) with
  | some node =>
    have hfiles : s.cache.files (cachePlace (env.serving s.content) cacheRoot fileId) = some node := by
      rw [h.copies]; exact hcopy
    exact .inl ⟨node, rfl, ContentCache.exec_ensureDownloaded_present accountId hfiles⟩
  | none =>
    refine .inr ⟨rfl, ?_⟩
    have hnone : s.cache.files (cachePlace (env.serving s.content) cacheRoot fileId) = none := by
      show s.cache.files (cachePlace env cacheRoot fileId) = _
      rw [h.copies, hcopy]
    obtain ⟨db, sections, hrun⟩ := ContentCache.exec_ensureDownloaded_absent accountId hnone
      fun hlock => h.completed fileId hlock hcopy
    refine ⟨db, sections, ?_⟩
    unfold MountState.ensure
    rw [hrun, ← h.content]
    unfold ContentCache.downloaded
    cases hcontent : s.content fileId with
    | some bytes => simp only [CacheEnv.serving, hcontent]; rfl
    | none => simp only [CacheEnv.serving, hcontent]; exact ⟨_, _, rfl⟩

theorem Refines.step {s : MountState} {a : FirstCopies} (h : s.Refines env cacheRoot a) (action : MountAction π) :
    (s.step env cacheRoot accountId action).Refines env cacheRoot (a.step env cacheRoot action) := by
  cases action with
  | change content => exact ⟨h.copies, rfl, h.completed⟩
  | initialSync senv remote step => exact ⟨h.copies, h.content, h.completed⟩
  | incrementalSync fuel senv remote step => exact ⟨h.copies, h.content, h.completed⟩
  | ensureDownloaded fileId =>
    show MountState.Refines env cacheRoot { s with cache := (s.ensure env cacheRoot accountId fileId).2 }
      (match a.copies (cachePlace env cacheRoot fileId), a.content fileId with
        | none, some bytes =>
          { a with copies := Function.update a.copies (cachePlace env cacheRoot fileId) (some (.file bytes)) }
        | _, _ => a)
    rcases h.ensure accountId fileId with ⟨node, hcopy, hrun⟩ | ⟨hcopy, db, sections, hrun⟩
    · rw [hrun, hcopy]
      exact h
    · rw [hcopy]
      cases hcontent : a.content fileId with
      | some bytes =>
        simp only [hcontent] at hrun
        rw [hrun]
        refine ⟨congrArg (Function.update · _ _) h.copies, h.content, fun fileId' hlock => ?_⟩
        show Function.update a.copies _ _ _ ≠ none
        -- another file id may lead to the same place; a copy is there all the same
        by_cases hplace : cachePlace env cacheRoot fileId' = cachePlace env cacheRoot fileId
        · rw [hplace, Function.update_self]; exact Option.some_ne_none _
        · rw [Function.update_of_ne hplace]
          have hid : fileId' ≠ fileId := fun heq => hplace (congrArg (cachePlace env cacheRoot) heq)
          exact h.completed fileId' ((Function.update_of_ne hid ..).symm.trans hlock)
      | none =>
        simp only [hcontent] at hrun
        obtain ⟨e, m, hrun⟩ := hrun
        rw [hrun]
        refine ⟨h.copies, h.content, fun fileId' hlock => ?_⟩
        by_cases hid : fileId' = fileId
        · subst hid
          have hself : Function.update s.cache.locks fileId' (some (.failed m)) fileId' = some .complete := hlock
          rw [Function.update_self] at hself
          cases hself
        · exact h.completed fileId' ((Function.update_of_ne hid ..).symm.trans hlock)

theorem Refines.run {s : MountState} {a : FirstCopies} (h : s.Refines env cacheRoot a)
    (actions : List (MountAction π)) :
    (s.run env cacheRoot accountId actions).Refines env cacheRoot (a.run env cacheRoot actions) := by
  induction actions generalizing s a with
  | nil => exact h
  | cons action actions ih => exact ih (h.step action)

/-- Before any call, what is on the disk counts as the copies. -/
theorem Refines.start {s : MountState} (hlocks : ∀ fileId, s.cache.locks fileId = none) :
    s.Refines env cacheRoot ⟨s.cache.files, s.content⟩ :=
  ⟨rfl, rfl, fun fileId hlock => by rw [hlocks] at hlock; cases hlock⟩

/-! ## Freshness -/

/-- The row of a file has the hash of the content the provider has now. -/
def UpToDate (accountId : AccountId) (hash : Bytes → Str) (s : MountState) (fileId : FileId) (bytes : Bytes) : Prop :=
  s.content fileId = some bytes ∧
    ∃ r, s.cache.db.rowOf accountId fileId = some r ∧ r.contentHash = some (hash bytes)

/-- In every run, each call for a file whose row has the current hash returns a path that holds the
current content if and only if before each such call the path of the file was empty, or the first
copy made there was of the content the provider has now. -/
theorem ensured_current_iff (env : CacheEnv) (cacheRoot : UnixPath.Text) (accountId : AccountId)
    (hash : Bytes → Str) (s : MountState) (hlocks : ∀ fileId, s.cache.locks fileId = none)
    (actions : List (MountAction π)) :
    (∀ before fileId after bytes, actions = before ++ .ensureDownloaded fileId :: after →
        (s.run env cacheRoot accountId before).UpToDate accountId hash fileId bytes →
        ∀ path cache, (s.run env cacheRoot accountId before).ensure env cacheRoot accountId fileId = (.ok path, cache) →
          cache.files (env.place path) = some (.file bytes)) ↔
      ∀ before fileId after bytes, actions = before ++ .ensureDownloaded fileId :: after →
        (s.run env cacheRoot accountId before).UpToDate accountId hash fileId bytes →
        ((⟨s.cache.files, s.content⟩ : FirstCopies).run env cacheRoot before).copies
            (cachePlace env cacheRoot fileId) = none ∨
          ((⟨s.cache.files, s.content⟩ : FirstCopies).run env cacheRoot before).copies
            (cachePlace env cacheRoot fileId) = some (.file bytes) := by
  refine forall_congr' fun before => forall_congr' fun fileId => forall_congr' fun after => forall_congr' fun bytes =>
    imp_congr_right fun _ => imp_congr_right fun huptodate => ?_
  have href : (s.run env cacheRoot accountId before).Refines env cacheRoot _ := (Refines.start hlocks).run before
  generalize s.run env cacheRoot accountId before = s₁ at href huptodate ⊢
  generalize (⟨s.cache.files, s.content⟩ : FirstCopies).run env cacheRoot before = a at href ⊢
  rcases href.ensure accountId fileId with ⟨node, hcopy, hrun⟩ | ⟨hcopy, db, sections, hrun⟩
  · rw [hrun, hcopy]
    have hfiles : s₁.cache.files (env.place (cachedPath cacheRoot fileId)) = some node := by
      rw [href.copies]; exact hcopy
    constructor
    · intro h
      exact .inr (hfiles.symm.trans (h _ _ rfl))
    · rintro (hnone | hsome) path cache heq
      · cases hnone
      · cases heq
        exact hfiles.trans hsome
  · rw [← href.content, huptodate.1] at hrun
    have hrun : s₁.ensure env cacheRoot accountId fileId = (.ok (cachedPath cacheRoot fileId), _) := hrun
    rw [hrun, hcopy]
    refine iff_of_true (fun path cache heq => ?_) (.inl rfl)
    cases heq
    exact Function.update_self ..

/-! ## A change after the first copy -/

/-- The hash of a content tells it apart from every other. -/
def byteHash (bytes : Bytes) : Str := bytes.map fun b => Char.ofNat b.toNat

/-- A provider that lists one file, with the hash of its content. -/
def hashedRemote : Remote Bytes where
  advance _ := id
  listFolder _ bytes := .ok [{ sampleItem ['f'] ['n'] with contentHash := some (byteHash bytes) }]
  getChanges _ _ := .ok ⟨[], ['0'], false⟩

/-- A cache in `/c` whose downloads are answered by the provider. -/
def sampleDisk : CacheEnv := ContentCache.calm fun _ _ => (.error (.network []), none)

/-- An empty cache of a file whose content is one byte. -/
def oneByte : MountState := ⟨ContentCache.emptyCache, fun _ => some [1]⟩

/-- The file is listed and fetched. -/
def fetched : List (MountAction Bytes) := [.initialSync (Env.calm hashedRemote) [1] 0, .ensureDownloaded ⟨['f']⟩]

/-- Another byte takes its place, is listed, and the file is asked for again. -/
def changed : List (MountAction Bytes) :=
  fetched ++ [.change fun _ => some [2], .initialSync (Env.calm hashedRemote) [2] 0, .ensureDownloaded ⟨['f']⟩]

theorem ensured_current_sample :
    ∃ cache, (oneByte.run sampleDisk ['/', 'c'] sampleAccount [.initialSync (Env.calm hashedRemote) [1] 0]).ensure
        sampleDisk ['/', 'c'] sampleAccount ⟨['f']⟩ = (.ok ['/', 'c', '/', 'f'], cache) ∧
      cache.files [['c'], ['f']] = some (.file [1]) := by
  refine ⟨_, rfl, (ensured_current_iff sampleDisk ['/', 'c'] sampleAccount byteHash oneByte (fun _ => rfl) fetched).2 ?_
    [.initialSync (Env.calm hashedRemote) [1] 0] ⟨['f']⟩ [] [1] rfl ⟨rfl, _, rfl, rfl⟩ ['/', 'c', '/', 'f'] _ rfl⟩
  intro before fileId after bytes hsplit _
  match before, hsplit with
  | [], hsplit => cases hsplit
  | [_], hsplit => cases hsplit; exact .inl rfl
  | _ :: _ :: _, hsplit =>
    have hlen := congrArg List.length hsplit
    simp only [fetched, List.length_append, List.length_cons, List.length_nil] at hlen
    omega

/-- After a change and a sync that stored its hash, the cache still returns the old byte. -/
theorem ensured_current_changed :
    ¬ ∀ before fileId after bytes, changed = before ++ .ensureDownloaded fileId :: after →
      (oneByte.run sampleDisk ['/', 'c'] sampleAccount before).UpToDate sampleAccount byteHash fileId bytes →
      ∀ path cache,
        (oneByte.run sampleDisk ['/', 'c'] sampleAccount before).ensure sampleDisk ['/', 'c'] sampleAccount fileId =
          (.ok path, cache) →
        cache.files (sampleDisk.place path) = some (.file bytes) := by
  intro h
  have hcall := h (fetched ++ [.change fun _ => some [2], .initialSync (Env.calm hashedRemote) [2] 0]) ⟨['f']⟩ [] [2]
    rfl ⟨rfl, _, rfl, rfl⟩ ['/', 'c', '/', 'f'] _ rfl
  have hold : some (Node.file [1]) = some (Node.file [2]) := hcall
  cases hold

end MountState

end CloudSync
