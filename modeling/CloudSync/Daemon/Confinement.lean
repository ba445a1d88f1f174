/-
What a request writes: the state and `updated_at` of the row it finds at the resolved cloud path, or nothing. The
row is decoded and all its columns are written back; the other columns come out as they were, since the path of
the row is one that `CloudPath::new` makes.
-/
import CloudSync.Daemon.Handler

namespace CloudSync

open Ipc (Request Response)

/-- The path and the new state of a request that writes. -/
def Ipc.Request.writes : Request → Option (Str × FileState)
  | .setPinned path true => some (path, .pending)
  | .setPinned path false => some (path, .cloudOnly)
  | .setCloudOnly path => some (path, .cloudOnly)
  | _ => none

/-- The row with another state, written at the instant. -/
def FileRow.relabel (r : FileRow) (state : FileState) (now : DateTime) : FileRow :=
  { r with state := stateText state, updatedAt := now.timestamp }

namespace DaemonHandler

variable {env : DaemonEnv} {h : DaemonHandler} {accountId : AccountId} {cloudPath : CloudPath}

/-! ## The row of a path -/

/-- The row SQLite finds first at a cloud path. -/
def firstRow (env : DaemonEnv) (db : Database) (accountId : AccountId) (cloudPath : CloudPath) : Option FileRow :=
  (env.scan.order db.files.rows).find? fun r => r.accountId = accountId.val ∧ r.path = cloudPath.asStr

/-- The row a request for a path acts on. -/
def target (env : DaemonEnv) (h : DaemonHandler) (db : Database) (path : Str) : Option FileRow :=
  match h.resolveAndLookup path with
  | .error _ => none
  | .ok (accountId, cloudPath, _) => firstRow env db accountId cloudPath

theorem mem_of_firstRow {db : Database} {r : FileRow} (h : firstRow env db accountId cloudPath = some r) :
    r ∈ db.files.rows ∧ r.accountId = accountId.val ∧ r.path = cloudPath.asStr := by
  unfold firstRow at h
  have hfound := List.find?_some h
  simp only [decide_eq_true_eq] at hfound
  exact ⟨Scan.mem_order.1 (List.mem_of_find?_eq_some h), hfound⟩

theorem getFileByCloudPath_none (now : DateTime) {db : Database}
    (hrow : firstRow env db accountId cloudPath = none) :
    getFileByCloudPath env.scan accountId cloudPath now db = (.ok none, db) := by
  unfold firstRow at hrow
  unfold getFileByCloudPath
  rw [hrow]

theorem getFileByCloudPath_some (now : DateTime) {db : Database} {r : FileRow}
    (hrow : firstRow env db accountId cloudPath = some r) :
    ∃ f : File, f.toRow = r ∧ r ∈ db.files.rows ∧
      getFileByCloudPath env.scan accountId cloudPath now db = (.ok (some f.stored), db) := by
  have hr := (mem_of_firstRow hrow).1
  obtain ⟨f, rfl⟩ := db.files.written r hr
  refine ⟨f, rfl, hr, ?_⟩
  unfold firstRow at hrow
  unfold getFileByCloudPath
  rw [hrow]
  show ((File.fromRow f.toRow).map some, db) = _
  rw [File.fromRow_toRow]
  rfl

/-! ## Sections -/

/-- The first row at the cloud path gets the state. Only a cloud-only row is made pending. -/
def Relabeled (env : DaemonEnv) (accountId : AccountId) (cloudPath : CloudPath) (now : DateTime) (state : FileState)
    (db db' : Database) : Prop :=
  ∃ r, firstRow env db accountId cloudPath = some r ∧ (state = .pending → r.state = stateText .cloudOnly) ∧
    db.Sets r.key (some { r.relabel state now with path := (CloudPath.new r.path).text }) db'

/-- A decoded row that is written back with a state: every other column but the path is as it was. -/
theorem updateState_sets {db : Database} {f : File} (hf : f.toRow ∈ db.files.rows) (state : FileState)
    (now : DateTime) :
    ∃ db', updateFile { f.stored with state := state } now db = (.ok true, db') ∧
      db.Sets f.toRow.key (some { f.toRow.relabel state now with path := (CloudPath.new f.path.asStr).text }) db' := by
  obtain ⟨db', hdb', hsets⟩ := updateFile_spec (f := { f.stored with state := state }) (g := f) now
    (FilesTable.mem_iff_rowAt.1 hf) rfl rfl rfl
  refine ⟨db', hdb', ?_⟩
  have hcolumns := File.stored_toRow f
  have hrow : ({ f.stored with state := state, updatedAt := now, createdAt := f.createdAt } : File).toRow =
      { f.stored.toRow with
        state := stateText state, updatedAt := now.timestamp, createdAt := f.createdAt.timestamp } := rfl
  rw [hcolumns] at hrow
  rw [hrow] at hsets
  exact hsets

/-- What a section that looks for a row and writes it answers. -/
inductive SectionDone (env : DaemonEnv) (accountId : AccountId) (cloudPath : CloudPath) (now : DateTime)
    (state : FileState) (db : Database) : Except Abort Bool × Database → Prop
  | missing (h : firstRow env db accountId cloudPath = none) :
    SectionDone env accountId cloudPath now state db (.ok false, db)
  | kept : SectionDone env accountId cloudPath now state db (.ok true, db)
  | written (db' : Database) (h : Relabeled env accountId cloudPath now state db db') :
    SectionDone env accountId cloudPath now state db (.ok true, db')

theorem setCloudOnlySection_done (now : DateTime) (db : Database) :
    SectionDone env accountId cloudPath now .cloudOnly db (setCloudOnlySection env accountId cloudPath now db) := by
  unfold setCloudOnlySection
  cases hrow : firstRow env db accountId cloudPath with
  | none =>
    rw [DbM.bind_ok (getFileByCloudPath_none now hrow)]
    exact .missing hrow
  | some r =>
    obtain ⟨f, rfl, hmem, hget⟩ := getFileByCloudPath_some now hrow
    obtain ⟨db', hdb', hsets⟩ := updateState_sets hmem .cloudOnly now
    rw [DbM.bind_ok hget]
    show SectionDone _ _ _ _ _ _ ((updateFile _ >>= fun _ => pure true) now db)
    rw [DbM.bind_ok hdb']
    exact .written db' ⟨f.toRow, hrow, (fun heq => by cases heq), hsets⟩

theorem setPinnedSection_done (now : DateTime) (db : Database) :
    SectionDone env accountId cloudPath now .pending db (setPinnedSection env accountId cloudPath true now db) := by
  unfold setPinnedSection
  cases hrow : firstRow env db accountId cloudPath with
  | none =>
    rw [DbM.bind_ok (getFileByCloudPath_none now hrow)]
    exact .missing hrow
  | some r =>
    obtain ⟨f, rfl, hmem, hget⟩ := getFileByCloudPath_some now hrow
    rw [DbM.bind_ok hget]
    simp only [if_true]
    by_cases hstate : f.stored.state = .cloudOnly
    · obtain ⟨db', hdb', hsets⟩ := updateState_sets hmem .pending now
      rw [if_pos hstate, DbM.bind_ok hdb']
      exact .written db' ⟨f.toRow, hrow, fun _ => congrArg stateText hstate, hsets⟩
    · rw [if_neg hstate]
      exact .kept

/-! ## Requests -/

theorem sendAction_db (action : DaemonAction) (w : DaemonWorld) : (h.sendAction action w).db = w.db := by
  unfold sendAction
  split <;> rfl

theorem getFileByCloudPath_db (now : DateTime) (db : Database) :
    (getFileByCloudPath env.scan accountId cloudPath now db).2 = db := by
  unfold getFileByCloudPath
  split <;> rfl

/-- A section that only reads counts as a section and does nothing else. -/
theorem withConn_read {β : Type} {f : DbM β} (hf : ∀ now db, (f now db).2 = db) (w : DaemonWorld) :
    (w.withConn env f).2 = { w with sections := w.sections + 1 } := by
  unfold DaemonWorld.withConn
  split
  · rfl
  · rw [hf]

theorem getStatusForPath_world (path : Str) (w : DaemonWorld) :
    ∃ n, (h.getStatusForPath env path w).2 = { w with sections := n } := by
  unfold getStatusForPath
  cases h.resolveAndLookup path with
  | error resp => exact ⟨w.sections, rfl⟩
  | ok found =>
    obtain ⟨accountId, cloudPath, slug⟩ := found
    have hworld : (w.withConn env (getFileByCloudPath env.scan accountId cloudPath)).2 = _ :=
      withConn_read getFileByCloudPath_db w
    simp only
    split
    all_goals
      rename_i hrun
      rw [hrun] at hworld
      exact ⟨_, hworld⟩

/-- A batch of statuses leaves everything but the number of sections. -/
theorem getStatusBatch_world (paths : List Str) (w : DaemonWorld) :
    ∃ n, (h.getStatusBatch env paths w).2 = { w with sections := n } := by
  induction paths generalizing w with
  | nil => exact ⟨w.sections, rfl⟩
  | cons path paths ih =>
    obtain ⟨n, hpath⟩ : ∃ n, (h.getStatusForPath env path w).2 = _ := getStatusForPath_world path w
    unfold getStatusBatch
    rcases hrun : h.getStatusForPath env path w with ⟨_ | resp, w₁⟩
    · rw [hrun] at hpath
      exact ⟨n, hpath⟩
    · rw [hrun] at hpath
      obtain rfl : w₁ = { w with sections := n } := hpath
      obtain ⟨m, hrest⟩ := ih { w with sections := n }
      simp only
      rcases hruns : h.getStatusBatch env paths { w with sections := n } with ⟨_ | statuses, w₂⟩
      · rw [hruns] at hrest
        exact ⟨m, hrest⟩
      · rw [hruns] at hrest
        exact ⟨m, hrest⟩

/-- What a request does to the database: nothing, or the row of its path gets the state and the reply is no error. -/
inductive Done (env : DaemonEnv) (h : DaemonHandler) (w : DaemonWorld) (writes : Option (Str × FileState)) :
    Option Response × DaemonWorld → Prop
  | kept {response : Option Response} {w' : DaemonWorld} (hdb : w'.db = w.db) : Done env h w writes (response, w')
  | written {path slug : Str} {state : FileState} {accountId : AccountId} {cloudPath : CloudPath} {w' : DaemonWorld}
      (hwrites : writes = some (path, state)) (hfound : h.resolveAndLookup path = .ok (accountId, cloudPath, slug))
      (hfault : env.dbFault w.sections = none)
      (hrow : Relabeled env accountId cloudPath (env.clock w.sections) state w.db w'.db) :
      Done env h w writes (some .ok, w')

/-- The reply to a section for a path that was found. -/
theorem replyTo_done {f : DbM Bool} {path slug : Str} {state : FileState}
    (hfound : h.resolveAndLookup path = .ok (accountId, cloudPath, slug))
    (hf : ∀ now db, SectionDone env accountId cloudPath now state db (f now db))
    (after : DaemonWorld → DaemonWorld) (hafter : ∀ w, (after w).db = w.db) (w : DaemonWorld) :
    Done env h w (some (path, state)) (replyTo env path after (w.withConn env f)) := by
  unfold DaemonWorld.withConn
  cases hfault : env.dbFault w.sections with
  | some e => exact .kept rfl
  | none =>
    have hdone := hf (env.clock w.sections) w.db
    simp only
    generalize f (env.clock w.sections) w.db = r at hdone
    cases hdone with
    | missing hrow => exact .kept rfl
    | kept => exact .kept (hafter _)
    | written db' hrelabeled => exact .written rfl hfound hfault ((hafter _).symm ▸ hrelabeled)

theorem handle_done (env : DaemonEnv) (h : DaemonHandler) (request : Request) (w : DaemonWorld) :
    Done env h w request.writes (h.handle env request w) := by
  cases request with
  | getStatus path =>
    obtain ⟨n, hworld⟩ : ∃ n, (h.getStatusForPath env path w).2 = _ := getStatusForPath_world path w
    exact .kept ((congrArg DaemonWorld.db hworld).trans rfl)
  | getStatusBatch paths =>
    obtain ⟨n, hworld⟩ : ∃ n, (h.getStatusBatch env paths w).2 = _ := getStatusBatch_world paths w
    exact .kept ((congrArg DaemonWorld.db hworld).trans rfl)
  | setPinned path pinned =>
    simp only [handle]
    cases hfound : h.resolveAndLookup path with
    | error resp => exact .kept rfl
    | ok found =>
      obtain ⟨accountId, cloudPath, slug⟩ := found
      cases pinned with
      | true => exact replyTo_done hfound setPinnedSection_done _ (sendAction_db _) w
      | false => exact replyTo_done hfound setCloudOnlySection_done _ (fun _ => rfl) w
  | setCloudOnly path =>
    simp only [handle]
    cases hfound : h.resolveAndLookup path with
    | error resp => exact .kept rfl
    | ok found => exact replyTo_done hfound setCloudOnlySection_done _ (fun _ => rfl) w
  | forceSync path =>
    simp only [handle]
    cases h.resolveAndLookup path with
    | error resp => exact .kept rfl
    | ok found => exact .kept (sendAction_db _ w)
  | pauseSync provider => exact .kept (sendAction_db _ w)
  | resumeSync provider => exact .kept (sendAction_db _ w)

/-! ## The frame -/

/-- What is resolved and looked up: the cloud path of the local one, and an account of the provider. -/
theorem resolveAndLookup_ok {path slug : Str} (hfound : h.resolveAndLookup path = .ok (accountId, cloudPath, slug)) :
    h.pathResolver.resolveLocal path = some ⟨slug, cloudPath⟩ ∧ h.lookupAccount slug = some accountId := by
  unfold resolveAndLookup at hfound
  split at hfound
  · cases hfound
  · rename_i resolved hresolved
    split at hfound
    · cases hfound
    · rename_i account haccount
      cases hfound
      exact ⟨hresolved, haccount⟩

/-- A request changes no row but the first one of its account at its cloud path, and of that row the state and
`updated_at`; to pending only a cloud-only row. A request that is answered by an error changes nothing. -/
theorem handle_confined (env : DaemonEnv) (h : DaemonHandler) (request : Request) (w : DaemonWorld) :
    ((h.handle env request w).2.db = w.db ∨
      ∃ path state resolved accountId r now, request.writes = some (path, state) ∧
        h.pathResolver.resolveLocal path = some resolved ∧ h.lookupAccount resolved.providerSlug = some accountId ∧
        r ∈ w.db.files.rows ∧ r.accountId = accountId.val ∧ r.path = resolved.cloudPath.asStr ∧
        (state = .pending → r.state = stateText .cloudOnly) ∧
        w.db.Sets r.key (some (r.relabel state now)) (h.handle env request w).2.db) ∧
    ∀ message, (h.handle env request w).1 = some (.error message) → (h.handle env request w).2.db = w.db := by
  have hdone := handle_done env h request w
  generalize h.handle env request w = answer at hdone ⊢
  cases hdone with
  | kept hdb => exact ⟨.inl hdb, fun _ _ => hdb⟩
  | @written path slug state accountId cloudPath w' hwrites hfound hfault hrow =>
    obtain ⟨r, hrow, hstate, hsets⟩ := hrow
    obtain ⟨hresolved, haccount⟩ := resolveAndLookup_ok hfound
    obtain ⟨hr, hacc, hpath⟩ := mem_of_firstRow hrow
    -- the path is written back as `CloudPath::new` makes it, as which it was looked up
    have hkept : (CloudPath.new r.path).text = r.path := by
      rw [hpath]
      exact congrArg CloudPath.text (PathResolver.new_resolved hresolved)
    rw [hkept] at hsets
    refine ⟨.inr ⟨path, state, ⟨slug, cloudPath⟩, accountId, r, _, hwrites, hresolved, haccount, hr, hacc, hpath,
      hstate, hsets⟩, fun message herror => ?_⟩
    cases herror

end DaemonHandler

end CloudSync
