/-
The files table and the cache directory. Calls of the cache, requests of the shell extensions and metadata
syncs write the states of the rows; a row is synced exactly when its file is cached as long as no request
takes the pin off a cached file, no sync stores the row of one anew, and every download reaches its row and
leads to no other row's place.
-/
import CloudSync.Daemon.Status
import CloudSync.Daemon.Confinement
import CloudSync.Vfs.Baseline
import CloudSync.Vfs.CacheContent

namespace CloudSync

open Prog (exec Uses Along)
open ContentCache (ensureDownloaded cachePlace cachedPath unlessFault unlessFault_fixed downloadStates)
open Ipc (Request)

/-! ## What metadata sync does to the states -/

theorem Database.stateAt_self (db : Database) (account : AccountId) (id : FileId) :
    db.stateAt (account.val, id.val) = (db.rowStates account id).map RowState.state := by
  unfold Database.stateAt Database.rowStates Database.rowOf
  rw [Option.map_map]
  rfl

/-- An entry keeps states and makes at most one row, a cloud-only one. -/
theorem Replayed.states {account : AccountId} {e : KeyedLog.Entry FileId Metadata} {db db' : Database}
    (h : Replayed account [e] db db') {key : Str × Str} {state : Str} (hstate : db'.stateAt key = some state) :
    db.stateAt key = some state ∨
      ∃ id m, e = .set id m ∧ key = (account.val, id.val) ∧ db.rowOf account id = none ∧
        state = stateText .cloudOnly := by
  obtain ⟨a, id⟩ := key
  by_cases ha : a = account.val
  · subst ha
    rw [db'.stateAt_self account ⟨id⟩, h.rows] at hstate
    rw [db.stateAt_self account ⟨id⟩]
    obtain ⟨s, hs, rfl⟩ := Option.map_eq_some_iff.1 hstate
    change rowCell.actAt _ _ e = some s at hs
    cases e with
    | erase k =>
      change (if k = _ then none else _) = _ at hs
      split at hs
      · cases hs
      · exact .inl (by rw [hs]; rfl)
    | set k m =>
      change (if k = _ then rowCell.write m _ else _) = _ at hs
      split at hs
      · rename_i hk
        subst hk
        cases hrow : db.rowStates account ⟨id⟩ with
        | none =>
          rw [hrow] at hs
          cases hs
          exact .inr ⟨⟨id⟩, m, rfl, rfl, Option.map_eq_none_iff.1 hrow, rfl⟩
        | some s₀ => rw [hrow] at hs; cases hs; exact .inl rfl
      · exact .inl (by rw [hs]; rfl)
    | skip => exact .inl (by rw [show db.rowStates account ⟨id⟩ = some s from hs]; rfl)
  · left
    unfold Database.stateAt at hstate ⊢
    rwa [h.others (a, id) ha] at hstate

/-- An upsert of a known account can make the row of its item, and no other. -/
theorem upsertSection_states {account : AccountId} {item : CloudItem} {now : DateTime} {db : Database}
    {key : Str × Str} {state : Str} (h : (upsertSection account item now db).2.stateAt key = some state) :
    db.stateAt key = some state ∨
      account ∈ db.accounts ∧ key = (account.val, item.id.val) ∧ db.rowOf account item.id = none ∧
        state = stateText .cloudOnly := by
  by_cases hacc : account ∈ db.accounts
  · obtain ⟨db', hdb', -, hrep⟩ := upsertSection_spec item now hacc
    rw [hdb'] at h
    rcases hrep.states h with hkeep | ⟨id, m, he, hkey, hrow, hstate⟩
    · exact .inl hkeep
    · cases he
      exact .inr ⟨hacc, hkey, hrow, hstate⟩
  · obtain ⟨e, he⟩ := upsertSection_refused item now hacc
    rw [he] at h
    exact .inl h

theorem deleteSection_states {account : AccountId} {id : FileId} {now : DateTime} {db : Database}
    {key : Str × Str} {state : Str} (h : (deleteSection account id now db).2.stateAt key = some state) :
    db.stateAt key = some state := by
  obtain ⟨db', hdb', -, hrep⟩ := @deleteSection_spec db account id now
  rw [hdb'] at h
  rcases hrep.states h with hkeep | ⟨_, _, he, -⟩
  · exact hkeep
  · cases he

theorem upsertCursor_states {account : AccountId} {cursor : Cursor} {now : DateTime} {db : Database}
    {key : Str × Str} {state : Str} (h : (upsertCursor account cursor now db).2.stateAt key = some state) :
    db.stateAt key = some state := by
  by_cases hacc : account ∈ db.accounts
  · obtain ⟨db', hdb', hfiles, -⟩ := upsertCursor_spec cursor now hacc
    unfold Database.stateAt at h ⊢
    rwa [hdb', hfiles] at h
  · obtain ⟨e, he⟩ := upsertCursor_refused cursor now hacc
    rwa [he] at h

/-! ## The effects of a sync -/

/-- A sync asks the provider, stores an item, or runs a section that makes no row and gives no row another
state. -/
inductive SyncEffect (account : AccountId) : (β : Type) → SyncOp β → Prop
  | listFolder (path : CloudPath) : SyncEffect account _ (.listFolder path)
  | getChanges (cursor : Option Cursor) : SyncEffect account _ (.getChanges cursor)
  | upsert (item : CloudItem) : SyncEffect account _ (.withConn (upsertSection account item))
  | keep {β : Type} {f : DbM β}
      (h : ∀ {now db key state}, (f now db).2.stateAt key = some state → db.stateAt key = some state) :
      SyncEffect account _ (.withConn f)

theorem uses_withConn {account : AccountId} {β : Type} {f : DbM β} (hf : SyncEffect account _ (.withConn f)) :
    Uses (SyncEffect account) (withConn f).run := by
  refine Uses.andThen ⟨hf, fun _ => trivial⟩ fun r => ?_
  cases r <;> trivial

theorem uses_call {account : AccountId} {α : Type} {context : String} {o : SyncOp (Except CloudError α)}
    (ho : SyncEffect account _ o) : Uses (SyncEffect account) (call context o).run := by
  refine Uses.andThen ⟨ho, fun _ => trivial⟩ fun r => ?_
  cases r <;> trivial

theorem uses_upsertCursor (account : AccountId) (cursor : Cursor) :
    Uses (SyncEffect account) (withConn (upsertCursor account cursor)).run :=
  uses_withConn (.keep upsertCursor_states)

theorem uses_applyChange (account : AccountId) (change : Change) :
    Uses (SyncEffect account) (applyChange account change).run := by
  unfold applyChange
  split
  · exact uses_withConn (.keep deleteSection_states)
  · split
    · exact uses_withConn (.upsert _)
    · trivial

theorem uses_initialSync (account : AccountId) : Uses (SyncEffect account) (initialSync account).run := by
  refine Uses.andThen (uses_call (.listFolder _)) fun items => ?_
  refine Uses.andThen (Uses.forM (fun item => uses_withConn (.upsert item)) items) fun _ => ?_
  refine Uses.andThen (uses_call (.getChanges _)) fun changeList => ?_
  exact Uses.andThen (uses_upsertCursor account changeList.cursor) fun _ => trivial

theorem uses_pageLoop (account : AccountId) : ∀ (fuel : Nat) (cursor : Cursor) (total : Nat),
    Uses (SyncEffect account) (pageLoop account fuel cursor total).run
  | 0, _, _ => trivial
  | fuel + 1, cursor, total => by
    unfold pageLoop
    refine Uses.andThen (uses_call (.getChanges _)) fun changeList => ?_
    have hchange : ∀ (n : Nat) (change : Change), Uses (SyncEffect account) (do
        applyChange account change
        pure (n + 1) : SyncM Nat).run :=
      fun n change => Uses.andThen (uses_applyChange account change) fun _ => trivial
    refine Uses.andThen (Uses.foldlM hchange changeList.changes total) fun total => ?_
    refine Uses.andThen (uses_upsertCursor account changeList.cursor) fun _ => ?_
    split
    · trivial
    · exact uses_pageLoop account fuel changeList.cursor total

theorem uses_incrementalSync (account : AccountId) (fuel : Nat) :
    Uses (SyncEffect account) (incrementalSync fuel account).run := by
  refine Uses.andThen (uses_withConn (.keep fun h => h)) fun cursor => ?_
  cases cursor with
  | none => exact uses_initialSync account
  | some cursor => exact uses_pageLoop account fuel cursor 0

/-- The states agree with a set of cached files: a row is synced exactly when its file is one of them. -/
def Agree (cached : Str → Prop) (f : Str × Str → Option Str) : Prop :=
  ∀ key state, f key = some state → (state = stateText .synced ↔ cached key.2)

theorem cloudOnly_ne_synced : stateText .cloudOnly ≠ stateText .synced := fun h => by cases stateText_inj h

/-- The effect stores an item of a cached file that has no row. -/
inductive Restores {π : Type} (env : Env π) (account : AccountId) (cached : Str → Prop) :
    (β : Type) → SyncOp β → World π → Prop
  | upsert {w : World π} (item : CloudItem) (hfault : env.dbFault w.step = none) (hacc : account ∈ w.db.accounts)
      (hcached : cached item.id.val) (hrow : w.db.rowOf account item.id = none) :
      Restores env account cached _ (.withConn (upsertSection account item)) w

theorem Agree.syncEffect {π : Type} {env : Env π} {account : AccountId} {cached : Str → Prop} {β : Type}
    {o : SyncOp β} {w : World π} (ho : SyncEffect account β o) (hnot : ¬ Restores env account cached β o w)
    (h : Agree cached w.db.stateAt) : Agree cached (handler env β o w).2.db.stateAt := by
  cases ho with
  | listFolder path => exact h
  | getChanges cursor => exact h
  | upsert item =>
    cases hfault : env.dbFault w.step with
    | some e => rw [handler_withConn_fault _ hfault]; exact h
    | none =>
      rw [handler_withConn_run _ hfault]
      intro key state hstate
      rcases upsertSection_states hstate with hkeep | ⟨hacc, rfl, hrow, rfl⟩
      · exact h key state hkeep
      · exact iff_of_false cloudOnly_ne_synced fun hcached => hnot (.upsert item hfault hacc hcached hrow)
  | keep hf =>
    cases hfault : env.dbFault w.step with
    | some e => rw [handler_withConn_fault _ hfault]; exact h
    | none =>
      rw [handler_withConn_run _ hfault]
      exact fun key state hstate => h key state (hf hstate)

/-- A sync that stores no cached file's row anew keeps the agreement. -/
theorem Agree.sync {π : Type} {env : Env π} {account : AccountId} {cached : Str → Prop} {α : Type} {p : SyncM α}
    {w : World π} (hp : Uses (SyncEffect account) p.run)
    (halong : Along (handler env) (fun β o w => ¬ Restores env account cached β o w) p.run w)
    (h : Agree cached w.db.stateAt) : Agree cached (exec (handler env) p w).2.db.stateAt :=
  halong.invariant (I := fun w => Agree cached w.db.stateAt) (fun _ _ _ ho hnot => Agree.syncEffect ho hnot) hp h

/-! ## What a request does to the states -/

/-- The path a request takes the pin off. -/
def Ipc.Request.unpins : Request → Option Str
  | .setPinned path false => some path
  | .setCloudOnly path => some path
  | _ => none

namespace DaemonHandler

variable {env : DaemonEnv} {h : DaemonHandler}

/-- A path that a request does not make pending is one it takes the pin off. -/
theorem writes_cases {request : Request} {path : Str} {state : FileState} (h : request.writes = some (path, state)) :
    state = .pending ∨ state = .cloudOnly ∧ request.unpins = some path := by
  cases request with
  | setPinned path pinned =>
    cases pinned with
    | true => cases h; exact .inl rfl
    | false => cases h; exact .inr ⟨rfl, rfl⟩
  | setCloudOnly path => cases h; exact .inr ⟨rfl, rfl⟩
  | getStatus | getStatusBatch | forceSync | pauseSync | resumeSync => cases h

/-- A request changes no state, or makes a cloud-only row pending, or makes the row cloud-only that it takes the
pin off. -/
theorem handle_states (request : Request) (w : DaemonWorld) :
    (h.handle env request w).2.db.stateAt = w.db.stateAt ∨
      (∃ key, w.db.stateAt key = some (stateText .cloudOnly) ∧
        (h.handle env request w).2.db.stateAt = Function.update w.db.stateAt key (some (stateText .pending))) ∨
      ∃ path r, request.unpins = some path ∧ env.dbFault w.sections = none ∧ h.target env w.db path = some r ∧
        (h.handle env request w).2.db.stateAt = Function.update w.db.stateAt r.key (some (stateText .cloudOnly)) := by
  have hdone := handle_done env h request w
  generalize h.handle env request w = answer at hdone ⊢
  cases hdone with
  | kept hdb => exact .inl (congrArg Database.stateAt hdb)
  | @written path slug state accountId cloudPath w' hwrites hfound hfault hrow =>
    obtain ⟨r, hrow, hcloudOnly, hsets⟩ := hrow
    have hstates := hsets.stateAt
    rcases writes_cases hwrites with rfl | ⟨rfl, hunpins⟩
    · refine .inr (.inl ⟨r.key, ?_, hstates⟩)
      unfold Database.stateAt
      rw [FilesTable.mem_iff_rowAt.1 (mem_of_firstRow hrow).1]
      exact congrArg some (hcloudOnly rfl)
    · refine .inr (.inr ⟨path, r, hunpins, hfault, ?_, hstates⟩)
      unfold target
      rw [hfound]
      exact hrow

end DaemonHandler

/-! ## The agreement through the states of a download -/

theorem Agree.update {cached : Str → Prop} {f : Str × Str → Option Str} (h : Agree cached f) {key : Str × Str}
    {state : Str} (hstate : state = stateText .synced ↔ cached key.2) :
    Agree cached (Function.update f key (some state)) := by
  intro key' state' heq
  by_cases hkey : key' = key
  · subst hkey
    rw [Function.update_self] at heq
    cases heq
    exact hstate
  · rw [Function.update_of_ne hkey] at heq
    exact h key' state' heq

theorem relabel_none {key : Str × Str} {f : Str × Str → Option Str} (hnone : f key = none) (state : FileState) :
    relabel key state f = f := by
  unfold relabel
  rw [hnone]
  exact Function.update_eq_self_iff.2 hnone.symm

theorem relabel_some {key : Str × Str} {f : Str × Str → Option Str} (hsome : f key ≠ none) (state : FileState) :
    relabel key state f = Function.update f key (some (stateText state)) := by
  obtain ⟨old, hold⟩ := Option.ne_none_iff_exists'.1 hsome
  unfold relabel
  rw [hold]
  rfl

/-- A file that is not cached can be given any state but synced. -/
theorem Agree.uncached {cached : Str → Prop} {f : Str × Str → Option Str} (h : Agree cached f) {key : Str × Str}
    (hkey : ¬ cached key.2) {state : FileState} (hstate : state ≠ .synced) (env : CacheEnv) (n : Nat) :
    Agree cached (unlessFault env n (relabel key state) f) := by
  by_cases hrow : f key = none
  · rw [unlessFault_fixed env n (relabel_none hrow state)]
    exact h
  · unfold unlessFault
    cases env.dbFault n with
    | some e => exact h
    | none =>
      show Agree cached (relabel key state f)
      rw [relabel_some hrow]
      exact h.update (iff_of_false (fun heq => hstate (stateText_inj heq)) hkey)

/-- A failed download of a file that is not cached. -/
theorem Agree.failed {cached : Str → Prop} {f : Str × Str → Option Str} (h : Agree cached f) {key : Str × Str}
    (hkey : ¬ cached key.2) (env : CacheEnv) (n : Nat) (e : CloudError) :
    Agree cached (downloadStates env n key (.error e) f) := by
  have hsyncing : Agree cached (unlessFault env n (relabel key .syncing) f) := h.uncached hkey (by decide) env n
  have herror : Agree cached (unlessFault env (n + 1) (relabel key .error)
      (unlessFault env n (relabel key .syncing) f)) :=
    hsyncing.uncached hkey (by decide) env (n + 1)
  cases e with
  | cloudNativeFile url => exact hsyncing
  | _ => exact herror

theorem relabel_relabel (key : Str × Str) (before state : FileState) (f : Str × Str → Option Str) :
    relabel key state (relabel key before f) = relabel key state f := by
  unfold relabel
  rw [Function.update_self, Option.map_map, Function.update_idem]
  rfl

/-- A download that succeeds leaves the row synced if the section that says so runs. -/
theorem downloadStates_ok {f : Str × Str → Option Str} {key : Str × Str} {env : CacheEnv} {n : Nat}
    (hfault : f key = none ∨ env.dbFault (n + 1) = none) :
    downloadStates env n key (.ok ()) f = relabel key .synced f := by
  show unlessFault env (n + 1) (relabel key .synced) (unlessFault env n (relabel key .syncing) f) = _
  rcases hfault with hnone | hfault
  · rw [unlessFault_fixed env n (relabel_none hnone .syncing),
      unlessFault_fixed env (n + 1) (relabel_none hnone .synced), relabel_none hnone .synced]
  · have hsynced : unlessFault env (n + 1) (relabel key .synced) = relabel key .synced := by
      unfold unlessFault
      rw [hfault]
    rw [hsynced]
    unfold unlessFault
    cases env.dbFault n with
    | some e => rfl
    | none => exact relabel_relabel key .syncing .synced f

/-- A download that succeeds makes its file cached, and leads to no other row's file. -/
theorem Agree.succeeded {cached cached' : Str → Prop} {f : Str × Str → Option Str} (h : Agree cached f)
    {key : Str × Str} (hkey : cached' key.2)
    (hother : ∀ key', f key' ≠ none → key' ≠ key → (cached' key'.2 ↔ cached key'.2)) :
    Agree cached' (relabel key .synced f) := by
  intro key' state hstate
  unfold relabel at hstate
  by_cases heq : key' = key
  · subst heq
    rw [Function.update_self] at hstate
    obtain ⟨_, _, rfl⟩ := Option.map_eq_some_iff.1 hstate
    exact iff_of_true rfl hkey
  · rw [Function.update_of_ne heq] at hstate
    exact (h key' state hstate).trans (hother key' (by rw [hstate]; exact Option.some_ne_none _) heq).symm

/-! ## The cache, the daemon and the syncs over one database -/

/-- The parts that share the database, and what they cannot control. -/
structure SharedEnv where
  cache : CacheEnv
  daemon : DaemonEnv
  handler : DaemonHandler
  cacheRoot : UnixPath.Text
  accountId : AccountId

/-- The cache with the database, how many sections the daemon has run, and the actions it has sent. -/
structure SharedState where
  cache : CacheWorld
  sections : Nat
  sent : List DaemonAction

/-- A call of the cache, a request, or a metadata sync with the provider it talks to. -/
inductive SharedAction (π : Type)
  | ensureDownloaded (fileId : FileId)
  | request (request : Request)
  | initialSync (env : Env π) (remote : π) (step : Nat)
  | incrementalSync (fuel : Nat) (env : Env π) (remote : π) (step : Nat)

/-- Every download either succeeds or writes nothing. -/
def CacheEnv.AllOrNothing (env : CacheEnv) : Prop :=
  ∀ n fileId, (∃ bytes, env.download n fileId = (.ok (), some bytes)) ∨ ∃ e, env.download n fileId = (.error e, none)

/-- A file is at the path of the cache for a file id. -/
def SharedEnv.Cached (c : SharedEnv) (files : List UnixPath.Text → Option Node) (id : Str) : Prop :=
  ∃ bytes, files (cachePlace c.cache c.cacheRoot ⟨id⟩) = some (.file bytes)

namespace SharedState

variable {π : Type} (c : SharedEnv)

def step (s : SharedState) : SharedAction π → SharedState
  | .ensureDownloaded fileId =>
    { s with cache := (exec c.cache.handler (ensureDownloaded c.cacheRoot c.accountId fileId) s.cache).2 }
  | .request request =>
    let w := (c.handler.handle c.daemon request ⟨s.cache.db, s.sections, s.sent⟩).2
    ⟨{ s.cache with db := w.db }, w.sections, w.sent⟩
  | .initialSync env remote step =>
    { s with cache := { s.cache with
        db := (exec (handler env) (initialSync c.accountId) ⟨s.cache.db, remote, step⟩).2.db } }
  | .incrementalSync fuel env remote step =>
    { s with cache := { s.cache with
        db := (exec (handler env) (incrementalSync fuel c.accountId) ⟨s.cache.db, remote, step⟩).2.db } }

def run (s : SharedState) (actions : List (SharedAction π)) : SharedState := actions.foldl (step c) s

/-- A download that is made and succeeds finds no row or can write that it is synced, and leads to no other row's
place; a request that can write takes the pin off no cached file; a sync stores no item of a cached file that has
no row. -/
def Meets (s : SharedState) : SharedAction π → Prop
  | .ensureDownloaded fileId =>
    s.cache.files (cachePlace c.cache c.cacheRoot fileId) = none →
      (c.cache.download s.cache.downloads fileId).1 = .ok () →
      (s.cache.db.rowOf c.accountId fileId = none ∨ c.cache.dbFault (s.cache.sections + 1) = none) ∧
        ∀ r ∈ s.cache.db.files.rows, r.key ≠ (c.accountId.val, fileId.val) →
          cachePlace c.cache c.cacheRoot ⟨r.providerFileId⟩ ≠ cachePlace c.cache c.cacheRoot fileId
  | .request request =>
    ∀ path r, request.unpins = some path → c.daemon.dbFault s.sections = none →
      c.handler.target c.daemon s.cache.db path = some r → ¬ c.Cached s.cache.files r.providerFileId
  | .initialSync env remote step =>
    Along (handler env) (fun β o w => ¬ Restores env c.accountId (c.Cached s.cache.files) β o w)
      (initialSync c.accountId).run ⟨s.cache.db, remote, step⟩
  | .incrementalSync fuel env remote step =>
    Along (handler env) (fun β o w => ¬ Restores env c.accountId (c.Cached s.cache.files) β o w)
      (incrementalSync fuel c.accountId).run ⟨s.cache.db, remote, step⟩

/-- The states agree with the cached files, and something is where a download was completed. -/
structure Linked (s : SharedState) : Prop where
  states : Agree (c.Cached s.cache.files) s.cache.db.stateAt
  completed : ∀ fileId, s.cache.locks fileId = some .complete →
    s.cache.files (cachePlace c.cache c.cacheRoot fileId) ≠ none

variable {c}

theorem Database.exists_row {db : Database} {key : Str × Str} (h : db.stateAt key ≠ none) :
    ∃ r ∈ db.files.rows, r.key = key := by
  cases hrow : db.files.rowAt key with
  | none => exact absurd (congrArg (Option.map FileRow.state) hrow) h
  | some r => exact ⟨r, FilesTable.rowAt_eq_some.1 hrow⟩

/-- After a download that wrote its file, something is where a download was completed. -/
theorem Linked.completed_written {s : SharedState} (h : s.Linked c) (fileId : FileId) (status : DownloadStatus)
    (node : Node) (fileId' : FileId)
    (hlock : Function.update s.cache.locks fileId (some status) fileId' = some .complete) :
    Function.update s.cache.files (cachePlace c.cache c.cacheRoot fileId) (some node)
      (cachePlace c.cache c.cacheRoot fileId') ≠ none := by
  by_cases heq : cachePlace c.cache c.cacheRoot fileId' = cachePlace c.cache c.cacheRoot fileId
  · rw [heq, Function.update_self]
    exact Option.some_ne_none _
  · rw [Function.update_of_ne heq]
    have hid : fileId' ≠ fileId := fun hid => heq (congrArg (cachePlace c.cache c.cacheRoot) hid)
    rw [Function.update_of_ne hid] at hlock
    exact h.completed fileId' hlock

/-- A download that is not completed leaves the completed ones. -/
theorem Linked.completed_unwritten {s : SharedState} (h : s.Linked c) (fileId : FileId) {status : DownloadStatus}
    (hstatus : status ≠ .complete) (fileId' : FileId)
    (hlock : Function.update s.cache.locks fileId (some status) fileId' = some .complete) :
    s.cache.files (cachePlace c.cache c.cacheRoot fileId') ≠ none := by
  have hid : fileId' ≠ fileId := by
    rintro rfl
    rw [Function.update_self] at hlock
    exact hstatus (Option.some.inj hlock)
  rw [Function.update_of_ne hid] at hlock
  exact h.completed fileId' hlock

/-- Where nothing is, a call downloads; a success leads to a cached file and a synced row, a failure to neither. -/
theorem Linked.ensureDownloaded {s : SharedState} (h : s.Linked c) (hdownload : c.cache.AllOrNothing)
    {fileId : FileId} (hmeets : s.Meets c (.ensureDownloaded fileId : SharedAction π)) :
    (s.step c (.ensureDownloaded fileId : SharedAction π)).Linked c := by
  cases hplace : s.cache.files (cachePlace c.cache c.cacheRoot fileId) with
  | some node =>
    have hsame : s.step c (.ensureDownloaded fileId : SharedAction π) = s := by
      show { s with cache := (exec c.cache.handler (CloudSync.ContentCache.ensureDownloaded c.cacheRoot c.accountId
        fileId) s.cache).2 } = s
      rw [ContentCache.exec_ensureDownloaded_present c.accountId hplace]
    rw [hsame]
    exact h
  | none =>
    have hlock : s.cache.locks fileId ≠ some .complete := fun hlock => h.completed fileId hlock hplace
    have huncached : ¬ c.Cached s.cache.files fileId.val := by
      rintro ⟨bytes, hbytes⟩
      rw [show cachePlace c.cache c.cacheRoot ⟨fileId.val⟩ = cachePlace c.cache c.cacheRoot fileId from rfl,
        hplace] at hbytes
      cases hbytes
    obtain ⟨db, sections, hrun, hstates⟩ := ContentCache.exec_ensureDownloaded_states c.accountId hplace hlock
    have hcache : (s.step c (.ensureDownloaded fileId : SharedAction π)).cache = _ := congrArg Prod.snd hrun
    rcases hdownload s.cache.downloads fileId with ⟨bytes, hd⟩ | ⟨e, hd⟩
    · obtain ⟨hfault, hplaces⟩ := hmeets hplace (congrArg Prod.fst hd)
      unfold ContentCache.downloaded at hcache
      rw [hd] at hcache hstates
      constructor
      · rw [hcache]
        show Agree (c.Cached (Function.update s.cache.files (cachePlace c.cache c.cacheRoot fileId)
          (some (.file bytes)))) db.stateAt
        have hnone : s.cache.db.stateAt (c.accountId.val, fileId.val) = none ∨
            c.cache.dbFault (s.cache.sections + 1) = none :=
          hfault.imp_left fun hrow => Option.map_eq_none_iff.2 hrow
        rw [hstates, downloadStates_ok hnone]
        refine h.states.succeeded ⟨bytes, Function.update_self ..⟩ fun key hkey hne => ?_
        obtain ⟨r, hr, rfl⟩ := Database.exists_row hkey
        have hplace' : cachePlace c.cache c.cacheRoot ⟨r.key.2⟩ ≠ cachePlace c.cache c.cacheRoot fileId :=
          hplaces r hr hne
        unfold SharedEnv.Cached
        rw [Function.update_of_ne hplace']
      · rw [hcache]
        exact h.completed_written fileId _ (.file bytes)
    · unfold ContentCache.downloaded at hcache
      rw [hd] at hcache hstates
      constructor
      · rw [hcache]
        show Agree (c.Cached s.cache.files) db.stateAt
        rw [hstates]
        exact h.states.failed huncached _ _ e
      · rw [hcache]
        refine h.completed_unwritten fileId ?_
        cases e <;> exact nofun

theorem Linked.request {s : SharedState} (h : s.Linked c) {request : Request}
    (hmeets : s.Meets c (.request request : SharedAction π)) :
    (s.step c (.request request : SharedAction π)).Linked c := by
  refine ⟨?_, h.completed⟩
  show Agree (c.Cached s.cache.files)
    (c.handler.handle c.daemon request ⟨s.cache.db, s.sections, s.sent⟩).2.db.stateAt
  rcases DaemonHandler.handle_states request ⟨s.cache.db, s.sections, s.sent⟩ with
    heq | ⟨key, hkey, heq⟩ | ⟨path, r, hunpins, hfault, htarget, heq⟩
  · rw [heq]
    exact h.states
  · rw [heq]
    -- a cloud-only row is not cached, and a pending one is not synced
    have huncached : ¬ c.Cached s.cache.files key.2 :=
      fun hcached => cloudOnly_ne_synced ((h.states key _ hkey).2 hcached)
    exact h.states.update (iff_of_false (fun hpending => by cases stateText_inj hpending) huncached)
  · rw [heq]
    exact h.states.update (iff_of_false cloudOnly_ne_synced (hmeets path r hunpins hfault htarget))

theorem Linked.step {s : SharedState} (h : s.Linked c) (hdownload : c.cache.AllOrNothing)
    {action : SharedAction π} (hmeets : s.Meets c action) : (s.step c action).Linked c := by
  cases action with
  | ensureDownloaded fileId => exact h.ensureDownloaded hdownload hmeets
  | request request => exact h.request hmeets
  | initialSync env remote step => exact ⟨h.states.sync (uses_initialSync c.accountId) hmeets, h.completed⟩
  | incrementalSync fuel env remote step =>
    exact ⟨h.states.sync (uses_incrementalSync c.accountId fuel) hmeets, h.completed⟩

theorem Linked.run {s : SharedState} (h : s.Linked c) (hdownload : c.cache.AllOrNothing)
    {actions : List (SharedAction π)}
    (hmeets : ∀ before action after, actions = before ++ action :: after → (s.run c before).Meets c action) :
    (s.run c actions).Linked c := by
  induction actions generalizing s with
  | nil => exact h
  | cons action actions ih =>
    refine ih (h.step hdownload (hmeets [] action actions rfl)) fun before action' after heq => ?_
    exact hmeets (action :: before) action' after (congrArg (action :: ·) heq)

/-- From an empty files table, in every state of a run of calls, requests and syncs that all meet the condition, a
row of no folder is synced if and only if its file is cached. -/
theorem synced_iff_cached (c : SharedEnv) (hdownload : c.cache.AllOrNothing) (s : SharedState)
    (hrows : s.cache.db.files.rows = []) (hlocks : ∀ fileId, s.cache.locks fileId = none)
    (actions : List (SharedAction π))
    (hmeets : ∀ before action after, actions = before ++ action :: after → (s.run c before).Meets c action)
    (before after : List (SharedAction π)) (hsplit : actions = before ++ after) :
    ∀ r ∈ (s.run c before).cache.db.files.rows, r.isFolder = 0 →
      (r.state = stateText .synced ↔ c.Cached (s.run c before).cache.files r.providerFileId) := by
  have hstart : s.Linked c := by
    refine ⟨fun key state hstate => ?_, fun fileId hlock => by rw [hlocks] at hlock; cases hlock⟩
    obtain ⟨r, hr, -⟩ := Database.exists_row (hstate ▸ Option.some_ne_none state)
    rw [hrows] at hr
    cases hr
  subst hsplit
  have hlinked : (s.run c before).Linked c := hstart.run hdownload fun before' action after' heq =>
    hmeets before' action (after' ++ after) (by rw [heq, List.append_assoc]; rfl)
  intro r hr _
  refine hlinked.states r.key r.state ?_
  unfold Database.stateAt
  rw [FilesTable.mem_iff_rowAt.1 hr]
  rfl

/-! ## A cached file made cloud-only -/

/-- One account, whose downloads all succeed. -/
def sampleShared : SharedEnv where
  cache := ContentCache.calm fun _ _ => (.ok (), some [1])
  daemon := ⟨.byRowid, fun _ => [], fun _ => DateTime.epoch, fun _ => none⟩
  handler := .oneAccount
  cacheRoot := ['/', 'c']
  accountId := sampleAccount

/-- Nothing is stored and nothing is cached. -/
def emptyShared : SharedState := ⟨ContentCache.emptyCache, 0, []⟩

def listOne : SharedAction Unit := .initialSync (Env.calm oneFileRemote) () 0

def fetchOne : SharedAction Unit := .ensureDownloaded ⟨['f']⟩

def freeOne : SharedAction Unit := .request (.setCloudOnly "/r/gdrive/n".toList)

theorem synced_iff_cached_sample :
    ∃ r ∈ (emptyShared.run sampleShared [listOne, freeOne, fetchOne]).cache.db.files.rows,
      r.state = stateText .synced := by
  have hmeets : ∀ before action after, [listOne, freeOne, fetchOne] = before ++ action :: after →
      (emptyShared.run sampleShared before).Meets sampleShared action := by
    intro before action after hsplit
    match before, hsplit with
    | [], hsplit =>
      cases hsplit
      refine Along.of_forall (fun β o w hrestores => ?_) _ _
      obtain ⟨item, -, -, ⟨bytes, hbytes⟩, -⟩ := hrestores
      cases hbytes
    | [_], hsplit =>
      cases hsplit
      rintro path r - - - ⟨bytes, hbytes⟩
      have hnone : (none : Option Node) = some (.file bytes) := hbytes
      cases hnone
    | [_, _], hsplit =>
      cases hsplit
      exact fun _ _ => ⟨.inr rfl, by decide +kernel⟩
    | _ :: _ :: _ :: _, hsplit =>
      have hlen := congrArg List.length hsplit
      simp only [List.length_append, List.length_cons, List.length_nil] at hlen
      omega
  have hall := synced_iff_cached sampleShared (fun _ _ => .inl ⟨[1], rfl⟩) emptyShared rfl (fun _ => rfl)
    [listOne, freeOne, fetchOne] hmeets [listOne, freeOne, fetchOne] [] rfl
  exact ⟨_, List.mem_cons_self, (hall _ List.mem_cons_self rfl).2 ⟨[1], rfl⟩⟩

/-- The request keeps the copy: the row says cloud-only while the file is still cached. -/
theorem freed_file_cached :
    ¬ ∀ before after, [listOne, fetchOne, freeOne] = before ++ after →
      ∀ r ∈ (emptyShared.run sampleShared before).cache.db.files.rows, r.isFolder = 0 →
        (r.state = stateText .synced ↔
          sampleShared.Cached (emptyShared.run sampleShared before).cache.files r.providerFileId) := by
  intro h
  have hrow := h [listOne, fetchOne, freeOne] [] rfl _ List.mem_cons_self rfl
  have hsynced := hrow.2 ⟨[1], rfl⟩
  exact absurd hsynced (by decide +kernel)

end SharedState

end CloudSync
