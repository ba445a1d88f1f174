/-
Calls of `ensure_downloaded` for one file from any number of threads, in any order of their steps. The entry's
lock is free during a download and its status starts as `InProgress`, so a thread that takes the lock then
starts a second download, or returns the path of a file that is not complete yet; as long as no thread does,
there is one download at a time.
-/
import CloudSync.Lib.Threads
import CloudSync.Vfs.CacheContent

namespace CloudSync

namespace ContentCache

open Threads

/-! ## The steps of a call -/

/-- Where a call of `ensure_downloaded` stands. -/
inductive Point
  | start
  | take
  | lock
  | check (status : DownloadStatus)
  | mark
  | release
  | syncing
  | launch
  | await
  | finish (result : Except CloudError Unit)
  | record (result : Except CloudError Unit)
  | notify (result : Except CloudError Unit)
  | synced
  | syncedAt
  | failed
  | leave (outcome : Except CacheStop UnixPath.Text)
  | done (outcome : Except CacheStop UnixPath.Text)

/-- Where a logged section leads to. -/
def afterSection (next : Point) : Except Abort Unit → Point
  | .error .panic => .done (.error .panic)
  | _ => next

/-- Where a finished download leads to. -/
def afterNotify : Except CloudError Unit → Point
  | .ok () => .synced
  | .error (.cloudNativeFile _) => .leave (.error (.errno .enotsup))
  | .error _ => .failed

section

variable (cacheRoot : UnixPath.Text) (accountId : AccountId) (fileId : FileId)

/-- The flowchart of `ensure_downloaded`. -/
def flow : Point → Box CacheOp (Except CacheStop UnixPath.Text) Point
  | .start => .call (.pathExists (cachedPath cacheRoot fileId)) fun found =>
    if found then .done (.ok (cachedPath cacheRoot fileId)) else .take
  | .take => .call (.takeEntry fileId) fun entry => match entry with
    | .ok _ => .lock
    | .error _ => .done (.error (.errno .eio))
  | .lock => .call (.lockStatus fileId) fun status => match status with
    | .ok status => .check status
    | .error _ => .done (.error (.errno .eio))
  | .check status => .call (.pathExists (cachedPath cacheRoot fileId)) fun found =>
    if found || status = .complete then .leave (.ok (cachedPath cacheRoot fileId)) else .mark
  | .mark => .call (.setStatus fileId .inProgress) fun _ => .release
  | .release => .call (.unlockStatus fileId) fun _ => .syncing
  | .syncing => .call (.withConn (fileStateSection accountId fileId .syncing)) (afterSection .launch)
  | .launch => .call (.startDownload fileId (cachedPath cacheRoot fileId)) fun _ => .await
  | .await => .call (.awaitDownload fileId (cachedPath cacheRoot fileId)) .finish
  | .finish result => .call (.lockStatus fileId) fun status => match status with
    | .ok _ => .record result
    | .error _ => .done (.error (.errno .eio))
  | .record result => .call (.setStatus fileId (finalStatus result)) fun _ => .notify result
  | .notify result => .call (.notifyAll fileId) fun _ => afterNotify result
  | .synced => .call (.withConn (fileStateSection accountId fileId .synced)) (afterSection .syncedAt)
  | .syncedAt => .call (.withConn (syncedAtSection accountId fileId))
    (afterSection (.leave (.ok (cachedPath cacheRoot fileId))))
  | .failed => .call (.withConn (fileStateSection accountId fileId .error))
    (afterSection (.leave (.error (.errno .eio))))
  | .leave outcome => .call (.unlockStatus fileId) fun _ => .done outcome
  | .done outcome => .ret outcome

variable {cacheRoot accountId fileId}

theorem follows_leave (outcome : Except CacheStop UnixPath.Text) :
    Follows (flow cacheRoot accountId fileId) (.leave outcome)
      (.call (.unlockStatus fileId) fun _ => .ret outcome) :=
  .call rfl fun _ => .ret rfl

/-- A logged section follows its point if what comes next does. -/
theorem follows_section {x next : Point} {f : DbM Unit} {k : CacheM UnixPath.Text}
    (h : flow cacheRoot accountId fileId x = .call (.withConn f) (afterSection next))
    (hnext : Follows (flow cacheRoot accountId fileId) next k.run) :
    Follows (flow cacheRoot accountId fileId) x (logged f >>= fun _ => k).run := by
  refine .call h fun r => ?_
  match r with
  | .ok () => exact hnext
  | .error .panic => exact .ret rfl
  | .error (.err _) => exact hnext

theorem follows_finish (result : Except CloudError Unit) :
    Follows (flow cacheRoot accountId fileId) (.finish result)
      (finishDownload accountId fileId (cachedPath cacheRoot fileId) result).run := by
  refine .call rfl fun status => ?_
  cases status with
  | error e => exact .ret rfl
  | ok status =>
    match result with
    | .ok () =>
      exact .call rfl fun _ => .call rfl fun _ => follows_section rfl (follows_section rfl (follows_leave _))
    | .error (.cloudNativeFile _) => exact .call rfl fun _ => .call rfl fun _ => follows_leave _
    | .error (.providerApi _ _) | .error (.network _) | .error (.fileNotFound _) | .error (.io _)
    | .error (.invalidOperation _) =>
      exact .call rfl fun _ => .call rfl fun _ => follows_section rfl (follows_leave _)

theorem follows_performDownload : Follows (flow cacheRoot accountId fileId) .mark
    (performDownload accountId fileId (cachedPath cacheRoot fileId)).run :=
  .call rfl fun _ => .call rfl fun _ => follows_section rfl (.call rfl fun _ => .call rfl fun result =>
    follows_finish result)

/-- The flowchart is that of `ensure_downloaded`. -/
theorem follows_ensureDownloaded : Follows (flow cacheRoot accountId fileId) .start
    (ensureDownloaded cacheRoot accountId fileId).run := by
  refine .call rfl fun found => ?_
  cases found with
  | true => exact .ret rfl
  | false =>
    refine .call rfl fun entry => ?_
    cases entry with
    | error e => exact .ret rfl
    | ok _ =>
      refine .call rfl fun status => ?_
      cases status with
      | error e => exact .ret rfl
      | ok status =>
        refine .call rfl fun found => ?_
        cases found with
        | true => exact follows_leave _
        | false =>
          cases status with
          | complete => exact follows_leave _
          | inProgress => exact follows_performDownload
          | failed message => exact follows_performDownload

end

/-! ## Threads of one cache -/

/-- What the threads share: the cache, and who holds the lock of the file's entry. -/
structure Shared where
  world : CacheWorld
  holder : Option Nat

section

variable (env : CacheEnv) (cacheRoot : UnixPath.Text) (accountId : AccountId) (fileId : FileId)

/-- The lock of the entry makes a thread wait; the other effects are those of a single thread. No section
panics (`fileStateSection_ok`, `syncedAtSection_ok`), so no lock is ever poisoned. -/
def threadAct (i : Nat) : (β : Type) → CacheOp β → Shared → Option (β × Shared)
  | _, .lockStatus fileId, s => match s.holder with
    | some _ => none
    | none => some ((env.handler _ (.lockStatus fileId) s.world).1, { s with holder := some i })
  | _, .unlockStatus _, s => some ((), { s with holder := none })
  | _, o, s => some ((env.handler _ o s.world).1, { s with world := (env.handler _ o s.world).2 })

/-- While a thread downloads, the download can create or write the file. -/
inductive Written (point : Nat → Point) (s : Shared) : Shared → Prop
  | intro {j : Nat} (bytes : Bytes) (h : point j = .await) : Written point s
    { s with world := { s.world with
      files := Function.update s.world.files (cachePlace env cacheRoot fileId) (some (.file bytes)) } }

/-- The threads that call `ensure_downloaded` for the file. -/
def system : System CacheOp (Except CacheStop UnixPath.Text) Point Shared where
  flow := flow cacheRoot accountId fileId
  act := threadAct env
  drift := Written env cacheRoot fileId

/-- A cache no thread has called yet. -/
def idle (w : CacheWorld) : Pool Point Shared := ⟨⟨w, none⟩, fun _ => .start⟩

/-! ## What a step does to the lock, the status and the file -/

/-- What decides where the threads go. -/
structure Gate where
  present : Bool
  status : DownloadStatus
  holder : Option Nat

def gate (s : Shared) : Gate where
  present := (s.world.files (cachePlace env cacheRoot fileId)).isSome
  status := (s.world.locks fileId).getD .inProgress
  holder := s.holder

end

/-- The moves of the thread `i`; `path` is the cached path. -/
inductive Moves (path : UnixPath.Text) (i : Nat) (g : Gate) : Point → Point → Gate → Prop
  | seen (h : g.present = true) : Moves path i g .start (.done (.ok path)) g
  | unseen (h : g.present = false) : Moves path i g .start .take g
  | take : Moves path i g .take .lock g
  | lock (h : g.holder = none) : Moves path i g .lock (.check g.status) { g with holder := some i }
  | found {status : DownloadStatus} (h : g.present = true ∨ status = .complete) :
    Moves path i g (.check status) (.leave (.ok path)) g
  | begin {status : DownloadStatus} (habsent : g.present = false) (h : status ≠ .complete) :
    Moves path i g (.check status) .mark g
  | mark : Moves path i g .mark .release { g with status := .inProgress }
  | release : Moves path i g .release .syncing { g with holder := none }
  | syncing : Moves path i g .syncing .launch g
  | launch : Moves path i g .launch .await g
  | await {result : Except CloudError Unit} {present : Bool} (hkept : g.present = true → present = true)
      (hok : result = .ok () → present = true) : Moves path i g .await (.finish result) { g with present := present }
  | finish {result : Except CloudError Unit} (h : g.holder = none) :
    Moves path i g (.finish result) (.record result) { g with holder := some i }
  | record {result : Except CloudError Unit} :
    Moves path i g (.record result) (.notify result) { g with status := finalStatus result }
  | notify {result : Except CloudError Unit} : Moves path i g (.notify result) (afterNotify result) g
  | synced : Moves path i g .synced .syncedAt g
  | syncedAt : Moves path i g .syncedAt (.leave (.ok path)) g
  | failed : Moves path i g .failed (.leave (.error (.errno .eio))) g
  | leave {outcome : Except CacheStop UnixPath.Text} :
    Moves path i g (.leave outcome) (.done outcome) { g with holder := none }

section

variable {env : CacheEnv} {cacheRoot : UnixPath.Text} {accountId : AccountId} {fileId : FileId}

/-- A section leaves the gate alone and goes on. -/
theorem section_moves (cacheRoot : UnixPath.Text) (fileId : FileId) {i : Nat} {f : DbM Unit}
    (hf : ∀ now db, ∃ db', f now db = (.ok (), db')) {s s' : Shared} {r : Except Abort Unit}
    (h : threadAct env i _ (.withConn f) s = some (r, s')) (next : Point) :
    gate env cacheRoot fileId s' = gate env cacheRoot fileId s ∧ afterSection next r = next := by
  simp only [threadAct, CacheEnv.handler, Option.some.injEq, Prod.mk.injEq] at h
  obtain ⟨hr, rfl⟩ := h
  cases hfault : env.dbFault s.world.sections with
  | some e =>
    rw [hfault] at hr
    subst hr
    exact ⟨rfl, rfl⟩
  | none =>
    obtain ⟨db', hdb'⟩ := hf (env.clock s.world.sections) s.world.db
    rw [hfault] at hr
    simp only [hdb'] at hr
    subst hr
    exact ⟨rfl, rfl⟩

/-- The lock is taken when it is free. -/
theorem lock_moves {i : Nat} {r : Except PoisonError DownloadStatus} {s s' : Shared}
    (h : threadAct env i _ (.lockStatus fileId) s = some (r, s')) :
    s.holder = none ∧ r = .ok ((s.world.locks fileId).getD .inProgress) ∧ s' = { s with holder := some i } := by
  simp only [threadAct] at h
  cases hholder : s.holder with
  | some j => rw [hholder] at h; cases h
  | none => rw [hholder] at h; cases h; exact ⟨rfl, rfl, rfl⟩

/-- A status that is set is the one that is read. -/
theorem gate_setStatus (s : Shared) (status : DownloadStatus) :
    gate env cacheRoot fileId { s with world := (env.handler _ (.setStatus fileId status) s.world).2 } =
      { gate env cacheRoot fileId s with status := status } := by
  unfold gate
  simp only [CacheEnv.handler, Function.update_self, Option.getD_some]

/-- A new entry has the status that is read without one. -/
theorem gate_takeEntry (s : Shared) :
    gate env cacheRoot fileId { s with world := (env.handler _ (.takeEntry fileId) s.world).2 } =
      gate env cacheRoot fileId s :=
  gate_setStatus s ((s.world.locks fileId).getD .inProgress)

/-- A successful download leaves the file. -/
def Leaves (env : CacheEnv) (fileId : FileId) : Prop :=
  ∀ n, (env.download n fileId).1 = .ok () → (env.download n fileId).2.isSome

/-- The end of a download leaves the file, if it succeeded or the file was there. -/
theorem await_moves (hleaves : Leaves env fileId) {i : Nat} {result : Except CloudError Unit} {s s' : Shared}
    (h : threadAct env i _ (.awaitDownload fileId (cachedPath cacheRoot fileId)) s = some (result, s')) :
    Moves (cachedPath cacheRoot fileId) i (gate env cacheRoot fileId s) .await (.finish result)
      (gate env cacheRoot fileId s') := by
  simp only [threadAct, CacheEnv.handler, Option.some.injEq, Prod.mk.injEq] at h
  obtain ⟨hresult, rfl⟩ := h
  have hmove : ∀ present, ((gate env cacheRoot fileId s).present = true → present = true) →
      (result = .ok () → present = true) → Moves (cachedPath cacheRoot fileId) i (gate env cacheRoot fileId s) .await
        (.finish result) { gate env cacheRoot fileId s with present := present } := fun _ h₁ h₂ => .await h₁ h₂
  cases hleft : (env.download s.world.downloads fileId).2 with
  | none =>
    refine hmove _ id fun hok => ?_
    have hsome := hleaves s.world.downloads (hresult.trans hok)
    rw [hleft] at hsome
    cases hsome
  | some bytes =>
    have hpresent : ((Function.update s.world.files (env.place (cachedPath cacheRoot fileId))
        (some (Node.file bytes))) (cachePlace env cacheRoot fileId)).isSome = true := by
      unfold cachePlace
      rw [Function.update_self]
      rfl
    exact hmove _ (fun _ => hpresent) fun _ => hpresent

/-- What a step does at a point of the flowchart is a move. -/
theorem Moves.of_act (hleaves : Leaves env fileId) {point : Point} {i : Nat} {shared s : Shared} {β : Type}
    {o : CacheOp β} {next : β → Point} {b : β} (hbox : flow cacheRoot accountId fileId point = .call o next)
    (hact : threadAct env i β o shared = some (b, s)) :
    Moves (cachedPath cacheRoot fileId) i (gate env cacheRoot fileId shared) point (next b)
      (gate env cacheRoot fileId s) := by
  cases point with
  | start =>
    cases hbox
    cases hact
    show Moves _ i _ .start (if (gate env cacheRoot fileId shared).present then _ else _)
      (gate env cacheRoot fileId shared)
    split
    · rename_i h; exact .seen h
    · rename_i h; exact .unseen (Bool.not_eq_true _ ▸ h)
  | take =>
    cases hbox
    cases hact
    exact (gate_takeEntry shared).symm ▸ .take
  | lock =>
    cases hbox
    obtain ⟨hholder, rfl, rfl⟩ := lock_moves hact
    exact .lock hholder
  | check status =>
    cases hbox
    cases hact
    show Moves _ i _ (.check status)
      (if (gate env cacheRoot fileId shared).present || decide (status = .complete) then _ else _)
      (gate env cacheRoot fileId shared)
    split
    · rename_i h; exact .found (by simpa using h)
    · rename_i h
      simp only [Bool.or_eq_true, decide_eq_true_eq, not_or, Bool.not_eq_true] at h
      exact .begin h.1 h.2
  | mark =>
    cases hbox
    cases hact
    exact gate_setStatus shared .inProgress ▸ .mark
  | release => cases hbox; cases hact; exact .release
  | syncing =>
    cases hbox
    obtain ⟨hgate, hnext⟩ := section_moves cacheRoot fileId (fileStateSection_ok accountId fileId .syncing) hact .launch
    rw [hgate, hnext]
    exact .syncing
  | launch => cases hbox; cases hact; exact .launch
  | await =>
    cases hbox
    exact await_moves hleaves hact
  | finish result =>
    cases hbox
    obtain ⟨hholder, rfl, rfl⟩ := lock_moves hact
    exact .finish hholder
  | record result =>
    cases hbox
    cases hact
    exact gate_setStatus shared (finalStatus result) ▸ .record
  | notify result => cases hbox; cases hact; exact .notify
  | synced =>
    cases hbox
    obtain ⟨hgate, hnext⟩ := section_moves cacheRoot fileId (fileStateSection_ok accountId fileId .synced) hact
      .syncedAt
    rw [hgate, hnext]
    exact .synced
  | syncedAt =>
    cases hbox
    obtain ⟨hgate, hnext⟩ := section_moves cacheRoot fileId (syncedAtSection_ok accountId fileId) hact
      (.leave (.ok (cachedPath cacheRoot fileId)))
    rw [hgate, hnext]
    exact .syncedAt
  | failed =>
    cases hbox
    obtain ⟨hgate, hnext⟩ := section_moves cacheRoot fileId (fileStateSection_ok accountId fileId .error) hact
      (.leave (.error (.errno .eio)))
    rw [hgate, hnext]
    exact .failed
  | leave outcome => cases hbox; cases hact; exact .leave
  | done outcome => cases hbox

/-- A step of a thread is one of its moves. -/
theorem step_moves (hleaves : Leaves env fileId) {p p' : Pool Point Shared} {i : Nat}
    (h : Step (system env cacheRoot accountId fileId) p (some i) p') :
    ∃ s x, p' = p.move i s x ∧ Moves (cachedPath cacheRoot fileId) i (gate env cacheRoot fileId p.shared)
      (p.point i) x (gate env cacheRoot fileId s) := by
  obtain ⟨hbox, hact⟩ := h
  exact ⟨_, _, rfl, .of_act hleaves hbox hact⟩

end

/-! ## One download at a time -/

/-- The thread has passed the status check and not ended its download. -/
def Point.busy : Point → Bool
  | .mark | .release | .syncing | .launch | .await => true
  | _ => false

/-- The thread holds the entry's lock. -/
def Point.holds : Point → Bool
  | .check _ | .mark | .release | .record _ | .notify _ | .synced | .syncedAt | .failed | .leave _ => true
  | _ => false

/-- The thread is about to return the path. -/
def Point.succeeds : Point → Bool
  | .finish (.ok _) | .record (.ok _) | .notify (.ok _) | .synced | .syncedAt | .leave (.ok _) => true
  | _ => false

/-- A thread that checks the status, or is about to return the path, is not busy. -/
theorem Point.calm {x : Point} (h : x.succeeds = true ∨ ∃ status, x = .check status) : x.busy = false := by
  rcases h with h | ⟨status, rfl⟩
  · cases x <;> first | rfl | cases h
  · rfl

theorem Point.unlocked {x : Point} (hbusy : x.busy) (hholds : x.holds = false) (hawait : x ≠ .await) :
    x = .syncing ∨ x = .launch := by
  cases x with
  | syncing => exact .inl rfl
  | launch => exact .inr rfl
  | mark | release => cases hholds
  | await => exact absurd rfl hawait
  | _ => cases hbusy

theorem succeeds_finish {result : Except CloudError Unit} (h : (Point.finish result).succeeds) : result = .ok () := by
  match result with
  | .ok () => rfl
  | .error e => cases h

/-- At most one thread is busy, and none while another checks the status or is about to return the path; the
file is there when one is about to return it, and before the download it is not. -/
structure Exclusive (point : Nat → Point) (g : Gate) : Prop where
  one : ∀ i j, (point i).busy → (point j).busy → i = j
  holds : ∀ i, (point i).holds → g.holder = some i
  checks : ∀ i status, point i = .check status → ∀ j, (point j).busy = false
  succeeds : ∀ i, (point i).succeeds → ∀ j, (point j).busy = false
  complete : g.status = .complete ∨ (∃ i, (point i).succeeds ∨ point i = .check .complete) → g.present = true
  early : ∀ i, (point i).busy → point i ≠ .await → g.present = false

namespace Exclusive

variable {point : Nat → Point} {g : Gate} {i : Nat}

theorem start (g : Gate) (hstatus : g.status = .inProgress) : Exclusive (fun _ => .start) g where
  one _ _ h := by cases h
  holds _ h := by cases h
  checks _ _ h := by cases h
  succeeds _ h := by cases h
  complete := by
    rintro (h | ⟨_, h | h⟩)
    · rw [hstatus] at h; cases h
    · cases h
    · cases h
  early _ h := by cases h

/-- While one thread is busy, no other is, and none checks the status or is about to return the path. -/
theorem alone (h : Exclusive point g) (hi : (point i).busy) (j : Nat) (hj : j ≠ i) :
    (point j).busy = false ∧ (∀ status, point j ≠ .check status) ∧ (point j).succeeds = false := by
  refine ⟨Bool.eq_false_iff.2 fun hb => hj (h.one j i hb hi), fun status hc => ?_, Bool.eq_false_iff.2 fun hs => ?_⟩
  · rw [h.checks j status hc i] at hi; cases hi
  · rw [h.succeeds j hs i] at hi; cases hi

/-- A thread goes to another point. -/
theorem relabel (h : Exclusive point g) (x : Point) (hholds : x.holds → g.holder = some i)
    (hbusy : x.busy → (x ≠ .await → g.present = false) ∧
      ∀ j, j ≠ i → (point j).busy = false ∧ (∀ status, point j ≠ .check status) ∧ (point j).succeeds = false)
    (hquiet : x.succeeds = true ∨ (∃ status, x = .check status) → ∀ j, j ≠ i → (point j).busy = false)
    (hpresent : x.succeeds = true ∨ x = .check .complete → g.present = true) :
    Exclusive (Function.update point i x) g := by
  have hself : Function.update point i x i = x := Function.update_self ..
  have hother : ∀ j, j ≠ i → Function.update point i x j = point j := fun j hj => Function.update_of_ne hj ..
  -- whatever is quiet needs that no thread is busy, the moved one included
  have hquiet' : x.succeeds = true ∨ (∃ status, x = .check status) →
      ∀ j, (Function.update point i x j).busy = false := by
    intro hx
    exact (Function.forall_update_iff point fun _ y => y.busy = false).2 ⟨Point.calm hx, hquiet hx⟩
  have hkept : ∀ a, a ≠ i → (point a).succeeds = true ∨ (∃ status, point a = .check status) →
      ∀ j, (Function.update point i x j).busy = false := by
    intro a ha hpoint
    refine (Function.forall_update_iff point fun _ y => y.busy = false).2 ⟨?_, fun j _ => ?_⟩
    · rw [Bool.eq_false_iff]
      intro hb
      rcases hpoint with hs | ⟨status, hc⟩
      · rw [((hbusy hb).2 a ha).2.2] at hs; cases hs
      · exact ((hbusy hb).2 a ha).2.1 status hc
    · rcases hpoint with hs | ⟨status, hc⟩
      · exact h.succeeds a hs j
      · exact h.checks a status hc j
  constructor
  · intro a b ha hb
    by_cases hai : a = i
    · by_cases hbi : b = i
      · rw [hai, hbi]
      · rw [hai, hself] at ha
        rw [hother b hbi, ((hbusy ha).2 b hbi).1] at hb
        cases hb
    · by_cases hbi : b = i
      · rw [hbi, hself] at hb
        rw [hother a hai, ((hbusy hb).2 a hai).1] at ha
        cases ha
      · rw [hother a hai] at ha
        rw [hother b hbi] at hb
        exact h.one a b ha hb
  · exact (Function.forall_update_iff point fun a y => y.holds → g.holder = some a).2 ⟨hholds, fun a _ => h.holds a⟩
  · refine (Function.forall_update_iff point fun _ y => ∀ status, y = .check status →
      ∀ j, (Function.update point i x j).busy = false).2 ⟨fun status hx => ?_, fun a ha status hc => ?_⟩
    · exact hquiet' (.inr ⟨status, hx⟩)
    · exact hkept a ha (.inr ⟨status, hc⟩)
  · refine (Function.forall_update_iff point fun _ y => y.succeeds = true →
      ∀ j, (Function.update point i x j).busy = false).2 ⟨fun hx => ?_, fun a ha hs => ?_⟩
    · exact hquiet' (.inl hx)
    · exact hkept a ha (.inl hs)
  · rintro (hstatus | ⟨a, ha⟩)
    · exact h.complete (.inl hstatus)
    · by_cases hai : a = i
      · rw [hai, hself] at ha; exact hpresent ha
      · rw [hother a hai] at ha; exact h.complete (.inr ⟨a, ha⟩)
  · exact (Function.forall_update_iff point fun _ y => y.busy → y ≠ .await → g.present = false).2
      ⟨fun hb => (hbusy hb).1, fun a _ => h.early a⟩

theorem setStatus (h : Exclusive point g) {status : DownloadStatus} (hstatus : status = .complete → g.present = true) :
    Exclusive point { g with status := status } :=
  { h with complete := fun hc => hc.elim hstatus fun hi => h.complete (.inr hi) }

/-- The lock is free when no thread holds it. -/
theorem holds_none (h : Exclusive point g) (hfree : g.holder = none) (j : Nat) : (point j).holds = false := by
  rw [Bool.eq_false_iff]
  intro hj
  rw [h.holds j hj] at hfree
  cases hfree

theorem setHolder (h : Exclusive point g) {holder : Option Nat} (hholder : ∀ j, (point j).holds → holder = some j) :
    Exclusive point { g with holder := holder } :=
  { h with holds := hholder }

/-- The file appears while the one busy thread downloads it. -/
theorem written (h : Exclusive point g) (hi : point i = .await) : Exclusive point { g with present := true } :=
  { h with
    complete := fun _ => rfl
    early := fun j hj hawait => by
      have hji := h.one j i hj (by rw [hi]; rfl)
      rw [hji] at hawait
      exact absurd hi hawait }

/-- A point that takes no part. -/
theorem relabel_idle (h : Exclusive point g) {x : Point} (hholds : x.holds → g.holder = some i) (hbusy : x.busy = false)
    (hsucceeds : x.succeeds = false) (hcheck : ∀ status, x ≠ .check status) :
    Exclusive (Function.update point i x) g := by
  refine h.relabel x hholds (fun hb => ?_) (fun hq => ?_) fun hp => ?_
  · rw [hbusy] at hb; cases hb
  · rcases hq with hs | ⟨status, hc⟩
    · rw [hsucceeds] at hs; cases hs
    · exact absurd hc (hcheck status)
  · rcases hp with hs | hc
    · rw [hsucceeds] at hs; cases hs
    · exact absurd hc (hcheck _)

/-- A busy thread goes on towards its download. -/
theorem relabel_busy (h : Exclusive point g) {x : Point} (hi : (point i).busy) (hawait : point i ≠ .await)
    (hx : x.busy = true) (hholds : x.holds → (point i).holds) : Exclusive (Function.update point i x) g := by
  have hcalm : ¬ (x.succeeds = true ∨ ∃ status, x = .check status) := by
    intro hq
    rw [Point.calm hq] at hx
    cases hx
  refine h.relabel x (fun hh => h.holds i (hholds hh)) (fun _ => ⟨fun _ => h.early i hi hawait, h.alone hi⟩)
    (fun hq => absurd hq hcalm) fun hp => absurd (hp.imp id fun hc => ⟨_, hc⟩) hcalm

/-- A thread that is about to return the path goes on. -/
theorem relabel_succeeding (h : Exclusive point g) {x : Point} (hi : (point i).succeeds) (hx : x.busy = false)
    (hholds : x.holds → g.holder = some i) :
    Exclusive (Function.update point i x) g := by
  refine h.relabel x hholds (fun hb => ?_) (fun _ j _ => h.succeeds i hi j) fun _ => h.complete (.inr ⟨i, .inl hi⟩)
  rw [hx] at hb; cases hb

/-- A thread unlocks the entry. -/
theorem unlock (h : Exclusive point g) (hi : (point i).holds = true) {x : Point} (hx : x.holds = false)
    (hrelabel : Exclusive (Function.update point i x) g) :
    Exclusive (Function.update point i x) { g with holder := none } := by
  refine hrelabel.setHolder fun j hj => ?_
  by_cases hji : j = i
  · rw [hji, Function.update_self, hx] at hj; cases hj
  · rw [Function.update_of_ne hji] at hj
    have hsame := (h.holds j hj).symm.trans (h.holds i hi)
    exact absurd (Option.some.inj hsame) hji

/-- What a move preserves, if no thread is busy when one takes the lock to check the status. -/
theorem move (h : Exclusive point g) {path : UnixPath.Text} {x : Point} {g' : Gate}
    (hlock : point i = .lock → ∀ j, j ≠ i → (point j).busy = false) (hmove : Moves path i g (point i) x g') :
    Exclusive (Function.update point i x) g' := by
  generalize hi : point i = y at hmove
  cases hmove with
  | seen | unseen | take => exact h.relabel_idle nofun rfl rfl nofun
  | lock hfree =>
    have hlocked : Exclusive point { g with holder := some i } :=
      h.setHolder fun j hj => by rw [h.holds_none hfree j] at hj; cases hj
    refine hlocked.relabel _ (fun _ => rfl) nofun (fun _ => hlock hi) fun hp => ?_
    rcases hp with hs | hc
    · cases hs
    · exact h.complete (.inl (by injection hc))
  | found hpresent =>
    refine h.relabel _ (fun _ => h.holds i (by rw [hi]; rfl)) nofun (fun _ j _ => h.checks i _ hi j) fun _ => ?_
    rcases hpresent with hp | rfl
    · exact hp
    · exact h.complete (.inr ⟨i, .inr hi⟩)
  | begin habsent hstatus =>
    have hholder := h.holds i (by rw [hi]; rfl)
    refine h.relabel _ (fun _ => hholder) (fun _ => ⟨fun _ => habsent, fun j hj => ⟨h.checks i _ hi j, ?_, ?_⟩⟩)
      (fun hq => ?_) fun hp => ?_
    -- two threads that check the status hold the same lock
    · intro status hc
      have hj' := h.holds j (by rw [hc]; rfl)
      exact hj (Option.some.inj (hj'.symm.trans hholder))
    · rw [Bool.eq_false_iff]
      intro hs
      rw [h.complete (.inr ⟨j, .inl hs⟩)] at habsent
      cases habsent
    · cases Point.calm hq
    · cases Point.calm (hp.imp id fun hc => ⟨_, hc⟩)
  | mark => exact (h.relabel_busy (by rw [hi]; rfl) (by rw [hi]; nofun) rfl fun _ => by rw [hi]; rfl).setStatus nofun
  | release =>
    exact h.unlock (by rw [hi]; rfl) rfl (h.relabel_busy (by rw [hi]; rfl) (by rw [hi]; nofun) rfl nofun)
  | syncing | launch => exact h.relabel_busy (by rw [hi]; rfl) (by rw [hi]; nofun) rfl nofun
  | @await result present hkept hok =>
    have hwritten : Exclusive point { g with present := present } := by
      cases present with
      | true => exact h.written hi
      | false =>
        have hg : g.present = false := Bool.eq_false_iff.2 fun hp => Bool.false_ne_true (hkept hp)
        rw [← hg]
        exact h
    refine hwritten.relabel _ nofun nofun (fun _ j hj => (h.alone (by rw [hi]; rfl) j hj).1) fun hp => ?_
    rcases hp with hs | hc
    · exact hok (succeeds_finish hs)
    · cases hc
  | @finish result hfree =>
    have hlocked : Exclusive point { g with holder := some i } :=
      h.setHolder fun j hj => by rw [h.holds_none hfree j] at hj; cases hj
    match result with
    | .ok () => exact hlocked.relabel_succeeding (by rw [hi]; rfl) rfl fun _ => rfl
    | .error e => exact hlocked.relabel_idle (fun _ => rfl) rfl rfl nofun
  | @record result =>
    have hholder := h.holds i (by rw [hi]; rfl)
    match result with
    | .ok () =>
      refine (h.relabel_succeeding (by rw [hi]; rfl) rfl fun _ => hholder).setStatus fun _ => ?_
      exact h.complete (.inr ⟨i, .inl (by rw [hi]; rfl)⟩)
    | .error e =>
      have hnotify : Exclusive (Function.update point i (.notify (.error e))) g :=
        h.relabel_idle (fun _ => hholder) rfl rfl nofun
      refine hnotify.setStatus fun hc => ?_
      cases e <;> cases hc
  | @notify result =>
    have hholder := h.holds i (by rw [hi]; rfl)
    match result with
    | .ok () => exact h.relabel_succeeding (by rw [hi]; rfl) rfl fun _ => hholder
    | .error e => cases e <;> exact h.relabel_idle (fun _ => hholder) rfl rfl nofun
  | synced | syncedAt => exact h.relabel_succeeding (by rw [hi]; rfl) rfl fun _ => h.holds i (by rw [hi]; rfl)
  | failed => exact h.relabel_idle (fun _ => h.holds i (by rw [hi]; rfl)) rfl rfl nofun
  | leave => exact h.unlock (by rw [hi]; rfl) rfl (h.relabel_idle nofun rfl rfl nofun)

end Exclusive

/-! ## Any order of steps -/

section

variable (env : CacheEnv) (cacheRoot : UnixPath.Text) (accountId : AccountId) (fileId : FileId)

/-- At most one download of the file is in flight. -/
def OneDownload (p : Pool Point Shared) : Prop := ∀ i j, p.point i = .await → p.point j = .await → i = j

/-- The step returned the path to its thread while a download of the file is in flight. -/
def ReturnsEarly (i : Option Nat) (p' : Pool Point Shared) : Prop :=
  ∃ j n path, i = some j ∧ p'.point j = .done (.ok path) ∧ p'.point n = .await

/-- A thread that steps while another is busy does not take the entry's lock for the status check, nor does it
find the file at the start. -/
def Orderly (p : Pool Point Shared) (i : Option Nat) : Prop :=
  ∀ n j, i = some n → j ≠ n → (p.point j).busy → p.point n ≠ .lock ∧
    ¬ (p.point n = .start ∧ (gate env cacheRoot fileId p.shared).present = true)

variable {env cacheRoot accountId fileId}

theorem Exclusive.step (hleaves : Leaves env fileId) {p p' : Pool Point Shared} {i : Option Nat}
    (h : Exclusive p.point (gate env cacheRoot fileId p.shared)) (horderly : Orderly env cacheRoot fileId p i)
    (hstep : Step (system env cacheRoot accountId fileId) p i p') :
    Exclusive p'.point (gate env cacheRoot fileId p'.shared) := by
  cases i with
  | none =>
    cases hstep with
    | drift hdrift =>
      obtain ⟨bytes, hawait⟩ := hdrift
      have hpresent := h.written hawait
      unfold gate at hpresent ⊢
      simpa only [Function.update_self, Option.isSome_some] using hpresent
  | some i =>
    obtain ⟨s, x, rfl, hmove⟩ := step_moves hleaves hstep
    refine h.move (fun hlock j hj => ?_) hmove
    rw [Bool.eq_false_iff]
    exact fun hb => (horderly i j rfl hj hb).1 hlock

theorem Exclusive.oneDownload {p : Pool Point Shared} (h : Exclusive p.point (gate env cacheRoot fileId p.shared)) :
    OneDownload p := fun i j hi hj => h.one i j (by rw [hi]; rfl) (by rw [hj]; rfl)

/-- An orderly step returns the path to no thread while a download is in flight. -/
theorem Exclusive.not_early (hleaves : Leaves env fileId) {p p' : Pool Point Shared} {i : Option Nat}
    (h : Exclusive p.point (gate env cacheRoot fileId p.shared)) (horderly : Orderly env cacheRoot fileId p i)
    (hstep : Step (system env cacheRoot accountId fileId) p i p') : ¬ ReturnsEarly i p' := by
  rintro ⟨i, n, path, rfl, hdone, hawait⟩
  obtain ⟨s, x, rfl, hmove⟩ := step_moves hleaves hstep
  rw [Pool.move_self] at hdone
  have hn : n ≠ i := by
    rintro rfl
    rw [Pool.move_self, hdone] at hawait
    cases hawait
  rw [Pool.move_other p s _ hn] at hawait
  have hbusy : (p.point n).busy = true := by rw [hawait]; rfl
  generalize hi : p.point i = y at hmove
  generalize gate env cacheRoot fileId s = g' at hmove
  cases hmove with
  | seen hpresent => exact (horderly i n rfl hn hbusy).2 ⟨hi, hpresent⟩
  | leave =>
    cases hdone
    rw [h.succeeds i (by rw [hi]; rfl) n] at hbusy
    cases hbusy
  | @notify result =>
    match result with
    | .ok () => cases hdone
    | .error e => cases e <;> cases hdone
  | _ => cases hdone

/-! ## Where it goes wrong -/

/-- The step goes wrong, or a run after it does. -/
def GoesWrong (env : CacheEnv) (cacheRoot : UnixPath.Text) (accountId : AccountId) (fileId : FileId) (i : Option Nat)
    (p' : Pool Point Shared) : Prop :=
  ReturnsEarly i p' ∨ ∃ q, Steps (system env cacheRoot accountId fileId) p' q ∧
    (¬ OneDownload q ∨ ∃ n q', Step (system env cacheRoot accountId fileId) q n q' ∧ ReturnsEarly n q')

/-- The thread `i` alone takes some steps, to the point `x`. -/
structure Solo (env : CacheEnv) (cacheRoot : UnixPath.Text) (accountId : AccountId) (fileId : FileId)
    (i : Nat) (x : Point)
    (p q : Pool Point Shared) : Prop where
  steps : Steps (system env cacheRoot accountId fileId) p q
  self : q.point i = x
  others : ∀ j, j ≠ i → q.point j = p.point j

theorem Solo.trans {i : Nat} {x y : Point} {p q r : Pool Point Shared}
    (h₁ : Solo env cacheRoot accountId fileId i x p q) (h₂ : Solo env cacheRoot accountId fileId i y q r) :
    Solo env cacheRoot accountId fileId i y p r :=
  ⟨h₁.steps.trans h₂.steps, h₂.self, fun j hj => (h₂.others j hj).trans (h₁.others j hj)⟩

/-- One step of a thread that need not wait. -/
theorem act_step {p : Pool Point Shared} {i : Nat} {x : Point} {β : Type} {o : CacheOp β} {next : β → Point} {b : β}
    {s : Shared} (hx : p.point i = x) (hbox : flow cacheRoot accountId fileId x = .call o next)
    (hact : threadAct env i β o p.shared = some (b, s)) :
    Step (system env cacheRoot accountId fileId) p (some i) (p.move i s (next b)) :=
  .act (S := system env cacheRoot accountId fileId) (hx ▸ hbox) hact

theorem act_solo {p : Pool Point Shared} {i : Nat} {x : Point} {β : Type} {o : CacheOp β} {next : β → Point} {b : β}
    {s : Shared} (hx : p.point i = x) (hbox : flow cacheRoot accountId fileId x = .call o next)
    (hact : threadAct env i β o p.shared = some (b, s)) :
    Solo env cacheRoot accountId fileId i (next b) p (p.move i s (next b)) :=
  ⟨.step .refl trivial (act_step hx hbox hact), Pool.move_self .., fun _ hj => Pool.move_other _ _ _ hj⟩

theorem solo_launch (env : CacheEnv) (cacheRoot : UnixPath.Text) (accountId : AccountId) (fileId : FileId)
    {p : Pool Point Shared} {i : Nat} (hi : p.point i = .launch) :
    ∃ q, Solo env cacheRoot accountId fileId i .await p q :=
  ⟨_, act_solo hi rfl rfl⟩

/-- A section does not make a thread wait, and does not panic. -/
theorem solo_syncing (env : CacheEnv) (cacheRoot : UnixPath.Text) (accountId : AccountId) (fileId : FileId)
    {p : Pool Point Shared} {i : Nat} (hi : p.point i = .syncing) :
    ∃ q, Solo env cacheRoot accountId fileId i .await p q := by
  have hact : ∃ r s, threadAct env i _ (.withConn (fileStateSection accountId fileId .syncing)) p.shared =
      some (r, s) :=
    ⟨_, _, rfl⟩
  obtain ⟨r, s, hact⟩ := hact
  have hsolo : Solo env cacheRoot accountId fileId i _ p _ := act_solo hi rfl hact
  rw [(section_moves cacheRoot fileId (fileStateSection_ok accountId fileId .syncing) hact .launch).2] at hsolo
  obtain ⟨q, hq⟩ := solo_launch env cacheRoot accountId fileId hsolo.self
  exact ⟨q, hsolo.trans hq⟩

theorem solo_mark (env : CacheEnv) (cacheRoot : UnixPath.Text) (accountId : AccountId) (fileId : FileId)
    {p : Pool Point Shared} {i : Nat} (hi : p.point i = .mark) :
    ∃ q, Solo env cacheRoot accountId fileId i .await p q := by
  have hmark : Solo env cacheRoot accountId fileId i .release p _ := act_solo hi rfl rfl
  have hrelease : Solo env cacheRoot accountId fileId i .syncing _ _ := act_solo hmark.self rfl rfl
  obtain ⟨q, hq⟩ := solo_syncing env cacheRoot accountId fileId hrelease.self
  exact ⟨q, (hmark.trans hrelease).trans hq⟩

/-- A thread that checks the status while another one downloads returns the path of a file that is there, and
otherwise downloads it too. -/
theorem check_goesWrong {p : Pool Point Shared} {i j : Nat} {status : DownloadStatus} {n : Option Nat}
    (hi : p.point i = .check status) (hij : j ≠ i)
    (hj : p.point j = .await ∨ (gate env cacheRoot fileId p.shared).present = false ∧
      (p.point j = .syncing ∨ p.point j = .launch))
    (hstatus : status = .complete → (gate env cacheRoot fileId p.shared).present = true) :
    GoesWrong env cacheRoot accountId fileId n p := by
  have hact : threadAct env i _ (.pathExists (cachedPath cacheRoot fileId)) p.shared =
      some ((gate env cacheRoot fileId p.shared).present, p.shared) := rfl
  have hsolo : Solo env cacheRoot accountId fileId i _ p _ := act_solo hi rfl hact
  right
  cases hpresent : (gate env cacheRoot fileId p.shared).present with
  | true =>
    rw [hpresent] at hsolo
    have hawait : p.point j = .await := by
      rcases hj with hj | ⟨habsent, -⟩
      · exact hj
      · rw [hpresent] at habsent; cases habsent
    refine ⟨_, hsolo.steps, .inr ⟨some i, _, act_step hsolo.self rfl rfl, i, j, _, rfl, Pool.move_self .., ?_⟩⟩
    rw [Pool.move_other _ _ _ hij, hsolo.others j hij, hawait]
  | false =>
    have hne : status ≠ .complete := by
      intro hc
      rw [hstatus hc] at hpresent
      cases hpresent
    rw [hpresent] at hsolo
    simp only [Bool.false_or, decide_eq_true_eq, if_neg hne] at hsolo
    obtain ⟨q, hq⟩ := solo_mark env cacheRoot accountId fileId hsolo.self
    have hq := hsolo.trans hq
    -- the other thread goes on to its download
    obtain ⟨r, hr⟩ : ∃ r, Solo env cacheRoot accountId fileId j .await q r := by
      have hqj := hq.others j hij
      rcases hj with hj | ⟨-, hj | hj⟩
      · exact ⟨q, .refl, hqj.trans hj, fun _ _ => rfl⟩
      · exact solo_syncing env cacheRoot accountId fileId (hqj.trans hj)
      · exact solo_launch env cacheRoot accountId fileId (hqj.trans hj)
    refine ⟨r, hq.steps.trans hr.steps, .inl fun hone => hij ?_⟩
    exact hone j i hr.self ((hr.others i (Ne.symm hij)).trans hq.self)

/-- A step that is not orderly goes wrong. -/
theorem Exclusive.goesWrong (hleaves : Leaves env fileId) {p p' : Pool Point Shared} {i : Option Nat}
    (h : Exclusive p.point (gate env cacheRoot fileId p.shared))
    (hstep : Step (system env cacheRoot accountId fileId) p i p') (hno : ¬ Orderly env cacheRoot fileId p i) :
    GoesWrong env cacheRoot accountId fileId i p' := by
  unfold Orderly at hno
  push Not at hno
  obtain ⟨n, j, rfl, hj, hbusy, hbad⟩ := hno
  obtain ⟨s, x, rfl, hmove⟩ := step_moves hleaves hstep
  by_cases hlock : p.point n = .lock
  · generalize hg : gate env cacheRoot fileId s = g' at hmove
    rw [hlock] at hmove
    cases hmove with
    | lock hfree =>
      have hpresent : (gate env cacheRoot fileId s).present = (gate env cacheRoot fileId p.shared).present := by rw [hg]
      have hother : (p.move n s (.check (gate env cacheRoot fileId p.shared).status)).point j = p.point j :=
        Pool.move_other p s _ hj
      refine check_goesWrong (Pool.move_self ..) hj ?_ fun hc => ?_
      · rw [hother, Pool.move_shared, hpresent]
        by_cases hawait : p.point j = .await
        · exact .inl hawait
        -- the lock is free, so the other thread has unlocked the entry
        · exact .inr ⟨h.early j hbusy hawait, Point.unlocked hbusy (h.holds_none hfree j) hawait⟩
      · rw [Pool.move_shared, hpresent]
        exact h.complete (.inl hc)
  · obtain ⟨hstart, hpresent⟩ := hbad hlock
    rw [hstart] at hmove
    generalize gate env cacheRoot fileId s = g' at hmove
    have hawait : p.point j = .await := by
      by_contra hawait
      rw [h.early j hbusy hawait] at hpresent
      cases hpresent
    cases hmove with
    | seen => exact .inl ⟨n, j, _, rfl, Pool.move_self .., (Pool.move_other p s _ hj).trans hawait⟩
    | unseen habsent => rw [habsent] at hpresent; cases hpresent

end

/-- Any number of threads call `ensure_downloaded` for one file of a cache that has no entry for it. While their
steps are orderly, at most one download is in flight and no call returns the path during a download; and a step
that is not orderly goes wrong, at once or in a run after it. -/
theorem ensureDownloaded_exclusive (env : CacheEnv) (cacheRoot : UnixPath.Text) (accountId : AccountId)
    (fileId : FileId) (w : CacheWorld) (hleaves : Leaves env fileId) (hfresh : w.locks fileId = none) :
    (∀ p, Reached (system env cacheRoot accountId fileId) (Orderly env cacheRoot fileId) (idle w) p →
      OneDownload p ∧ ∀ i p', Orderly env cacheRoot fileId p i →
        Step (system env cacheRoot accountId fileId) p i p' → ¬ ReturnsEarly i p') ∧
    ∀ p, Reached (system env cacheRoot accountId fileId) (Orderly env cacheRoot fileId) (idle w) p →
      ∀ i p', ¬ Orderly env cacheRoot fileId p i → Step (system env cacheRoot accountId fileId) p i p' →
        GoesWrong env cacheRoot accountId fileId i p' := by
  have hstart : Exclusive (idle w).point (gate env cacheRoot fileId (idle w).shared) := by
    refine Exclusive.start _ ?_
    show (w.locks fileId).getD .inProgress = .inProgress
    rw [hfresh]
    rfl
  have hreached : ∀ {p}, Reached (system env cacheRoot accountId fileId) (Orderly env cacheRoot fileId) (idle w) p →
      Exclusive p.point (gate env cacheRoot fileId p.shared) := fun {p} hp =>
    hp.invariant (I := fun p => Exclusive p.point (gate env cacheRoot fileId p.shared)) hstart
      fun _ _ _ h => h.step hleaves
  refine ⟨fun p hp => ⟨(hreached hp).oneDownload, fun i p' horderly hstep => ?_⟩, fun p hp i p' hno hstep => ?_⟩
  · exact (hreached hp).not_early hleaves horderly hstep
  · exact (hreached hp).goesWrong hleaves hstep hno

/-- Downloads of one byte. -/
def oneByteEnv : CacheEnv := calm fun _ _ => (.ok (), some [1])

/-- While the other threads have not begun, the steps of the first one are orderly. -/
theorem reached_alone {env : CacheEnv} {cacheRoot : UnixPath.Text} {accountId : AccountId} {fileId : FileId}
    {w : CacheWorld} {n : Nat} {q : Pool Point Shared}
    (h : (system env cacheRoot accountId fileId).schedule (List.replicate n 0) (idle w) = some q) :
    Reached (system env cacheRoot accountId fileId) (Orderly env cacheRoot fileId) (idle w) q := by
  refine System.schedule_reached (I := fun p => ∀ j, j ≠ 0 → p.point j = .start) ?_ ?_ .refl (fun _ _ => rfl) h
  · intro i hi p p' hothers hstep j hj
    rw [List.eq_of_mem_replicate hi] at hstep
    cases hstep with
    | act => exact (Pool.move_other p _ _ hj).trans (hothers j hj)
  · rintro i hi p hothers _ j ⟨⟩ hj hbusy
    rw [List.eq_of_mem_replicate hi] at hj
    rw [hothers j hj] at hbusy
    cases hbusy

/-- The first thread downloads, and a second one calls. -/
theorem ensureDownloaded_exclusive_sample :
    ∃ p, p.point 0 = .await ∧ OneDownload p ∧
      ∀ p', Step (system oneByteEnv ['/', 'c'] sampleAccount ⟨['f']⟩) p (some 1) p' → ¬ ReturnsEarly (some 1) p' := by
  have hall := ensureDownloaded_exclusive oneByteEnv ['/', 'c'] sampleAccount ⟨['f']⟩ emptyCache (fun _ _ => rfl) rfl
  obtain ⟨hone, hearly⟩ := hall.1 _ (reached_alone (n := 8) rfl)
  refine ⟨_, rfl, hone, fun p' => hearly (some 1) p' ?_⟩
  rintro n j ⟨⟩ - -
  exact ⟨nofun, fun h => nomatch h.2⟩

/-- A second thread passes the status check while the first one downloads. -/
theorem two_downloads : ∃ q, Steps (system oneByteEnv ['/', 'c'] sampleAccount ⟨['f']⟩) (idle emptyCache) q ∧
    q.point 0 = .await ∧ q.point 1 = .await ∧ ¬ OneDownload q :=
  ⟨_, System.schedule_steps (l := [0, 0, 0, 0, 0, 0, 0, 0, 1, 1, 1, 1, 1, 1, 1, 1]) rfl, rfl, rfl,
    fun h => absurd (h 0 1 rfl rfl) (by decide)⟩

end ContentCache

end CloudSync
