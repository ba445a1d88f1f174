/-
What the path returned by `ensure_downloaded` holds, over calls made one after another. The first
attempt that leaves anything at a path decides what every later call finds there: a partial file of a
failed attempt is returned as a success, and a complete file is returned however old it is.
-/
import CloudSync.Vfs.ContentCache
import CloudSync.Vfs.Convergence

namespace CloudSync

open Prog (exec)
open GDrive (Attempt)

/-- The states of the rows, by account and provider file id. -/
def Database.stateAt (db : Database) (key : Str × Str) : Option Str := (db.files.rowAt key).map FileRow.state

theorem Database.Sets.stateAt {db db' : Database} {key : Str × Str} {row : Option FileRow} (h : db.Sets key row db') :
    db'.stateAt = Function.update db.stateAt key (row.map FileRow.state) := by
  funext key'
  unfold Database.stateAt
  rw [h.rows]
  by_cases hkey : key' = key
  · rw [hkey, Function.update_self, Function.update_self]
  · rw [Function.update_of_ne hkey, Function.update_of_ne hkey]

/-- Gives a row a state, if the row is there. -/
def relabel (key : Str × Str) (state : FileState) (f : Str × Str → Option Str) : Str × Str → Option Str :=
  Function.update f key ((f key).map fun _ => stateText state)

namespace ContentCache

/-! ## Database sections -/

/-- An edit that keeps id, account and file id always succeeds: it changes nothing without a row, and
writes the edited record to the row if there is one. -/
theorem editSection_spec (edit : DateTime → File → File) (hid : ∀ now f, (edit now f).id = f.id)
    (hacc : ∀ now f, (edit now f).accountId = f.accountId)
    (hfid : ∀ now f, (edit now f).providerFileId = f.providerFileId) (accountId : AccountId) (fileId : FileId)
    (now : DateTime) (db : Database) :
    ∃ db', editSection accountId fileId edit now db = (.ok (), db') ∧
      ((db.rowOf accountId fileId = none ∧ db' = db) ∨
        ∃ g : File, db.rowOf accountId fileId = some g.toRow ∧
          db.Sets (accountId.val, fileId.val)
            (some { edit now g.stored with updatedAt := now, createdAt := g.createdAt }.toRow) db') := by
  unfold editSection
  cases hrow : db.rowOf accountId fileId with
  | none =>
    rw [DbM.bind_ok (getFileByProviderId_none now hrow)]
    exact ⟨db, rfl, .inl ⟨rfl, rfl⟩⟩
  | some r =>
    obtain ⟨g, rfl, rfl, rfl, -⟩ := Database.rowOf_written hrow
    rw [DbM.bind_ok (getFileByProviderId_some now hrow)]
    obtain ⟨db', hdb', hsets⟩ := updateFile_spec (g := g) now hrow (hid now g.stored) (hacc now g.stored)
      (hfid now g.stored)
    refine ⟨db', ?_, .inr ⟨g, rfl, hsets⟩⟩
    show (DbM.now >>= fun now => updateFile (edit now g.stored) >>= fun _ => pure ()) now db = _
    rw [DbM.bind_ok (DbM.now_eq now db), DbM.bind_ok hdb']; rfl

theorem fileStateSection_states (accountId : AccountId) (fileId : FileId) (state : FileState) (now : DateTime)
    (db : Database) : ∃ db', fileStateSection accountId fileId state now db = (.ok (), db') ∧
      db'.stateAt = relabel (accountId.val, fileId.val) state db.stateAt := by
  obtain ⟨db', hdb', h⟩ := editSection_spec (fun _ dbFile => { dbFile with state := state })
    (fun _ _ => rfl) (fun _ _ => rfl) (fun _ _ => rfl) accountId fileId now db
  refine ⟨db', hdb', ?_⟩
  have hat : db.stateAt (accountId.val, fileId.val) = (db.rowOf accountId fileId).map FileRow.state := rfl
  unfold relabel
  rw [hat]
  rcases h with ⟨hrow, rfl⟩ | ⟨g, hrow, hsets⟩
  · rw [hrow]
    exact (Function.update_eq_self_iff.2 (by rw [hat, hrow]; rfl)).symm
  · rw [hsets.stateAt, hrow]
    rfl

theorem syncedAtSection_states (accountId : AccountId) (fileId : FileId) (now : DateTime) (db : Database) :
    ∃ db', syncedAtSection accountId fileId now db = (.ok (), db') ∧ db'.stateAt = db.stateAt := by
  obtain ⟨db', hdb', h⟩ := editSection_spec (fun now dbFile => { dbFile with syncedAt := some now })
    (fun _ _ => rfl) (fun _ _ => rfl) (fun _ _ => rfl) accountId fileId now db
  refine ⟨db', hdb', ?_⟩
  rcases h with ⟨-, rfl⟩ | ⟨g, hrow, hsets⟩
  · rfl
  · rw [hsets.stateAt]
    refine Function.update_eq_self_iff.2 ?_
    have hat : db.stateAt (accountId.val, fileId.val) = (db.rowOf accountId fileId).map FileRow.state := rfl
    rw [hat, hrow]
    rfl

theorem fileStateSection_ok (accountId : AccountId) (fileId : FileId) (state : FileState) (now : DateTime)
    (db : Database) : ∃ db', fileStateSection accountId fileId state now db = (.ok (), db') := by
  obtain ⟨db', hdb', -⟩ := fileStateSection_states accountId fileId state now db
  exact ⟨db', hdb'⟩

theorem syncedAtSection_ok (accountId : AccountId) (fileId : FileId) (now : DateTime) (db : Database) :
    ∃ db', syncedAtSection accountId fileId now db = (.ok (), db') := by
  obtain ⟨db', hdb', -⟩ := syncedAtSection_states accountId fileId now db
  exact ⟨db', hdb'⟩

variable {env : CacheEnv}

/-- What the section of a number does to the states, unless a fault stops it. -/
def unlessFault (env : CacheEnv) (n : Nat) (g : (Str × Str → Option Str) → Str × Str → Option Str)
    (f : Str × Str → Option Str) : Str × Str → Option Str :=
  match env.dbFault n with
  | some _ => f
  | none => g f

theorem unlessFault_fixed (env : CacheEnv) (n : Nat) {g : (Str × Str → Option Str) → Str × Str → Option Str}
    {f : Str × Str → Option Str} (h : g f = f) : unlessFault env n g f = f := by
  unfold unlessFault
  cases env.dbFault n with
  | some e => rfl
  | none => exact h

theorem exec_act_bind {α β : Type} (o : CacheOp α) (f : α → CacheM β) (w : CacheWorld) :
    exec env.handler (act o >>= f) w = exec env.handler (f (env.handler α o w).1) (env.handler α o w).2 :=
  Prog.exec_perform_bind env.handler o f w

/-- The database after the section of a number, unless a fault stops it. -/
def sectionDb (env : CacheEnv) (n : Nat) (f : DbM Unit) (db : Database) : Database :=
  match env.dbFault n with
  | some _ => db
  | none => (f (env.clock n) db).2

theorem sectionDb_states (env : CacheEnv) (n : Nat) {f : DbM Unit}
    {g : (Str × Str → Option Str) → Str × Str → Option Str}
    (hf : ∀ now db, ∃ db', f now db = (.ok (), db') ∧ db'.stateAt = g db.stateAt) (db : Database) :
    (sectionDb env n f db).stateAt = unlessFault env n g db.stateAt := by
  unfold sectionDb unlessFault
  cases env.dbFault n with
  | some e => rfl
  | none =>
    obtain ⟨db', hdb', hstates⟩ := hf (env.clock n) db
    simp only [hdb', hstates]

/-- A logged section only touches the database. -/
theorem exec_logged (env : CacheEnv) {β : Type} {f : DbM Unit} (hf : ∀ now db, ∃ db', f now db = (.ok (), db'))
    (k : Unit → CacheM β) (w : CacheWorld) :
    exec env.handler (logged f >>= k) w =
      exec env.handler (k ()) { w with db := sectionDb env w.sections f w.db, sections := w.sections + 1 } := by
  have hlogged : exec env.handler (logged f) w =
      (.ok (), { w with db := sectionDb env w.sections f w.db, sections := w.sections + 1 }) := by
    unfold logged act sectionDb
    rw [Prog.exec_perform_bind]
    simp only [CacheEnv.handler]
    cases env.dbFault w.sections with
    | some e => rfl
    | none =>
      obtain ⟨db', hdb'⟩ := hf (env.clock w.sections) w.db
      rw [hdb']
      rfl
  rw [Prog.exec_bind, hlogged]

/-! ## One call -/

variable {cacheRoot : UnixPath.Text} {accountId : AccountId} {fileId : FileId} {w : CacheWorld}

/-- Where the cached copy of a file is on the local disk. -/
def cachePlace (env : CacheEnv) (cacheRoot : UnixPath.Text) (fileId : FileId) : List UnixPath.Text :=
  env.place (cachedPath cacheRoot fileId)

/-- Anything at the path is returned as it is. -/
theorem exec_ensureDownloaded_present (accountId : AccountId) {node : Node}
    (h : w.files (cachePlace env cacheRoot fileId) = some node) :
    exec env.handler (ensureDownloaded cacheRoot accountId fileId) w = (.ok (cachedPath cacheRoot fileId), w) := by
  have hexists : (env.handler Bool (.pathExists (cachedPath cacheRoot fileId)) w) = (true, w) := by
    show ((w.files (cachePlace env cacheRoot fileId)).isSome, w) = _
    rw [h]; rfl
  unfold ensureDownloaded act
  rw [Prog.exec_perform_bind, hexists]
  rfl

/-- What a download answers to the caller. -/
def outcome (path : UnixPath.Text) : Except CloudError Unit → Except CacheStop UnixPath.Text
  | .ok () => .ok path
  | .error (.cloudNativeFile _) => .error (.errno .enotsup)
  | .error _ => .error (.errno .eio)

/-- The status a download leaves. -/
def finalStatus : Except CloudError Unit → DownloadStatus
  | .ok () => .complete
  | .error (.cloudNativeFile _) => .failed "cloud-native file".toList
  | .error e => .failed e.toString

/-- What the end of a download does to the states, its section having the number `n`. -/
def finishStates (env : CacheEnv) (n : Nat) (key : Str × Str) :
    Except CloudError Unit → (Str × Str → Option Str) → Str × Str → Option Str
  | .ok () => unlessFault env n (relabel key .synced)
  | .error (.cloudNativeFile _) => id
  | .error _ => unlessFault env n (relabel key .error)

/-- The database after the end of a download, its first section having the number `n`. -/
def finishDb (env : CacheEnv) (accountId : AccountId) (fileId : FileId) (n : Nat) (db : Database) :
    Except CloudError Unit → Database
  | .ok () => sectionDb env (n + 1) (syncedAtSection accountId fileId)
      (sectionDb env n (fileStateSection accountId fileId .synced) db)
  | .error (.cloudNativeFile _) => db
  | .error _ => sectionDb env n (fileStateSection accountId fileId .error) db

/-- Only a cloud-native file makes an error leave the row as it is. -/
theorem finish_error {e : CloudError} (hnative : ¬ ∃ url, e = .cloudNativeFile url) (env : CacheEnv)
    (accountId : AccountId) (fileId : FileId) (path : UnixPath.Text) (n : Nat) (db : Database) :
    outcome path (.error e) = .error (.errno .eio) ∧ finalStatus (.error e) = .failed e.toString ∧
      finishDb env accountId fileId n db (.error e) =
        sectionDb env n (fileStateSection accountId fileId .error) db ∧
      finishStates env n (accountId.val, fileId.val) (.error e) =
        unlessFault env n (relabel (accountId.val, fileId.val) .error) := by
  cases e <;> first | exact ⟨rfl, rfl, rfl, rfl⟩ | exact absurd ⟨_, rfl⟩ hnative

theorem finishDb_states (env : CacheEnv) (accountId : AccountId) (fileId : FileId) (n : Nat) (db : Database)
    (result : Except CloudError Unit) :
    (finishDb env accountId fileId n db result).stateAt =
      finishStates env n (accountId.val, fileId.val) result db.stateAt := by
  rcases result with e | ⟨⟩
  · by_cases hnative : ∃ url, e = .cloudNativeFile url
    · obtain ⟨url, rfl⟩ := hnative
      rfl
    · obtain ⟨-, -, hdb, hstates⟩ := finish_error hnative env accountId fileId [] n db
      rw [hdb, hstates]
      exact sectionDb_states env n (fileStateSection_states accountId fileId .error) db
  · show (sectionDb env (n + 1) (syncedAtSection accountId fileId) _).stateAt = _
    rw [sectionDb_states (g := id) env (n + 1) (syncedAtSection_states accountId fileId),
      unlessFault_fixed env (n + 1) rfl]
    exact sectionDb_states env n (fileStateSection_states accountId fileId .synced) db

/-- After a download the caller gets its outcome, the entry its status, the row its state, and the disk stays
as it is. -/
theorem exec_finishDownload (env : CacheEnv) (accountId : AccountId) (fileId : FileId) (path : UnixPath.Text)
    (result : Except CloudError Unit) (w : CacheWorld) :
    ∃ sections', exec env.handler (finishDownload accountId fileId path result) w =
      (outcome path result, { w with
        db := finishDb env accountId fileId w.sections w.db result
        sections := sections'
        locks := Function.update w.locks fileId (some (finalStatus result)) }) := by
  unfold finishDownload
  rw [exec_act_bind]
  rcases result with e | ⟨⟩
  -- only an error other than a cloud-native file writes to the row
  · by_cases hnative : ∃ url, e = .cloudNativeFile url
    · obtain ⟨url, rfl⟩ := hnative
      exact ⟨w.sections, rfl⟩
    · obtain ⟨houtcome, hstatus, hdb, -⟩ := finish_error hnative env accountId fileId path w.sections w.db
      rw [houtcome, hstatus, hdb]
      have hlogged := exec_logged env (fileStateSection_ok accountId fileId .error)
        (fun _ => do
          act (.unlockStatus fileId)
          (throw (.errno .eio) : CacheM UnixPath.Text))
        { w with locks := Function.update w.locks fileId (some (.failed e.toString)) }
      refine ⟨w.sections + 1, Eq.trans ?_ hlogged⟩
      cases e <;> first | rfl | exact absurd ⟨_, rfl⟩ hnative
  · have hsynced := exec_logged env (fileStateSection_ok accountId fileId .synced)
      (fun _ => do
        updateSyncedAt accountId fileId
        act (.unlockStatus fileId)
        (pure path : CacheM UnixPath.Text))
      { w with locks := Function.update w.locks fileId (some .complete) }
    have hsyncedAt := exec_logged env (syncedAtSection_ok accountId fileId)
      (fun _ => do
        act (.unlockStatus fileId)
        (pure path : CacheM UnixPath.Text))
      { w with
        db := sectionDb env w.sections (fileStateSection accountId fileId .synced) w.db
        sections := w.sections + 1
        locks := Function.update w.locks fileId (some .complete) }
    exact ⟨w.sections + 2, hsynced.trans hsyncedAt⟩

/-- The local disk after a download. -/
def downloaded (env : CacheEnv) (cacheRoot : UnixPath.Text) (fileId : FileId) (w : CacheWorld) :
    List UnixPath.Text → Option Node :=
  match (env.download w.downloads fileId).2 with
  | some bytes => Function.update w.files (cachePlace env cacheRoot fileId) (some (.file bytes))
  | none => w.files

/-- What a download does to the states, its first section having the number `n`. -/
def downloadStates (env : CacheEnv) (n : Nat) (key : Str × Str) (result : Except CloudError Unit)
    (f : Str × Str → Option Str) : Str × Str → Option Str :=
  finishStates env (n + 1) key result (unlessFault env n (relabel key .syncing) f)

/-- The database after a download, its first section having the number `n`. -/
def downloadDb (env : CacheEnv) (accountId : AccountId) (fileId : FileId) (n : Nat) (db : Database)
    (result : Except CloudError Unit) : Database :=
  finishDb env accountId fileId (n + 1) (sectionDb env n (fileStateSection accountId fileId .syncing) db) result

theorem downloadDb_states (env : CacheEnv) (accountId : AccountId) (fileId : FileId) (n : Nat) (db : Database)
    (result : Except CloudError Unit) :
    (downloadDb env accountId fileId n db result).stateAt =
      downloadStates env n (accountId.val, fileId.val) result db.stateAt := by
  unfold downloadDb downloadStates
  rw [finishDb_states, sectionDb_states env n (fileStateSection_states accountId fileId .syncing)]

/-- A download answers its outcome, and leaves on the disk what the provider left. -/
theorem exec_performDownload (env : CacheEnv) (cacheRoot : UnixPath.Text) (accountId : AccountId) (fileId : FileId)
    (w : CacheWorld) :
    ∃ sections', exec env.handler (performDownload accountId fileId (cachedPath cacheRoot fileId)) w =
      (outcome (cachedPath cacheRoot fileId) (env.download w.downloads fileId).1, {
        db := downloadDb env accountId fileId w.sections w.db (env.download w.downloads fileId).1
        sections := sections'
        files := downloaded env cacheRoot fileId w
        locks := Function.update w.locks fileId (some (finalStatus (env.download w.downloads fileId).1))
        downloads := w.downloads + 1 }) := by
  have hsyncing := exec_logged env (fileStateSection_ok accountId fileId .syncing)
    (fun _ => do
      act (.startDownload fileId (cachedPath cacheRoot fileId))
      let result ← act (.awaitDownload fileId (cachedPath cacheRoot fileId))
      finishDownload accountId fileId (cachedPath cacheRoot fileId) result)
    { w with locks := Function.update w.locks fileId (some .inProgress) }
  obtain ⟨sections', hfinish⟩ := exec_finishDownload env accountId fileId
    (cachedPath cacheRoot fileId) (env.download w.downloads fileId).1 {
      db := sectionDb env w.sections (fileStateSection accountId fileId .syncing) w.db
      sections := w.sections + 1
      files := downloaded env cacheRoot fileId w
      locks := Function.update w.locks fileId (some .inProgress)
      downloads := w.downloads + 1 }
  rw [Function.update_idem] at hfinish
  exact ⟨sections', hsyncing.trans hfinish⟩

/-- Where nothing is, a file that was never completed is downloaded. -/
theorem exec_ensureDownloaded_download (accountId : AccountId)
    (hnone : w.files (cachePlace env cacheRoot fileId) = none) (hlock : w.locks fileId ≠ some .complete) :
    ∃ sections', exec env.handler (ensureDownloaded cacheRoot accountId fileId) w =
      (outcome (cachedPath cacheRoot fileId) (env.download w.downloads fileId).1, {
        db := downloadDb env accountId fileId w.sections w.db (env.download w.downloads fileId).1
        sections := sections'
        files := downloaded env cacheRoot fileId w
        locks := Function.update w.locks fileId (some (finalStatus (env.download w.downloads fileId).1))
        downloads := w.downloads + 1 }) := by
  have hexists : ∀ w' : CacheWorld, w'.files = w.files →
      env.handler Bool (.pathExists (cachedPath cacheRoot fileId)) w' = (false, w') := by
    intro w' hw'
    show ((w'.files (cachePlace env cacheRoot fileId)).isSome, w') = _
    rw [hw', hnone]; rfl
  obtain ⟨status, hstatus⟩ : ∃ status, (w.locks fileId).getD .inProgress = status := ⟨_, rfl⟩
  obtain ⟨sections', hrun⟩ := exec_performDownload env cacheRoot accountId fileId
    { w with locks := Function.update w.locks fileId (some status) }
  rw [Function.update_idem] at hrun
  refine ⟨sections', Eq.trans ?_ hrun⟩
  unfold ensureDownloaded
  rw [exec_act_bind, hexists w rfl]
  show exec env.handler (act (.takeEntry fileId) >>= _) w = _
  rw [exec_act_bind]
  show exec env.handler (act (.lockStatus fileId) >>= _)
    { w with locks := Function.update w.locks fileId (some ((w.locks fileId).getD .inProgress)) } = _
  rw [exec_act_bind, hstatus]
  show exec env.handler (locked (.ok ((Function.update w.locks fileId (some status) fileId).getD .inProgress)) >>= _)
    { w with locks := Function.update w.locks fileId (some status) } = _
  rw [Function.update_self]
  show exec env.handler (act (.pathExists (cachedPath cacheRoot fileId)) >>= _)
    { w with locks := Function.update w.locks fileId (some status) } = _
  rw [exec_act_bind, hexists { w with locks := Function.update w.locks fileId (some status) } rfl]
  cases status with
  | inProgress => rfl
  | failed m => rfl
  | complete =>
    cases hl : w.locks fileId with
    | none => rw [hl] at hstatus; cases hstatus
    | some d => rw [hl] at hstatus hlock; exact absurd (congrArg some hstatus) hlock

theorem exec_ensureDownloaded_states (accountId : AccountId) (hnone : w.files (cachePlace env cacheRoot fileId) = none)
    (hlock : w.locks fileId ≠ some .complete) :
    ∃ db' sections', exec env.handler (ensureDownloaded cacheRoot accountId fileId) w =
      (outcome (cachedPath cacheRoot fileId) (env.download w.downloads fileId).1, {
        db := db'
        sections := sections'
        files := downloaded env cacheRoot fileId w
        locks := Function.update w.locks fileId (some (finalStatus (env.download w.downloads fileId).1))
        downloads := w.downloads + 1 }) ∧
      db'.stateAt = downloadStates env w.sections (accountId.val, fileId.val) (env.download w.downloads fileId).1
        w.db.stateAt := by
  obtain ⟨sections', hrun⟩ := exec_ensureDownloaded_download accountId hnone hlock
  exact ⟨_, sections', hrun, downloadDb_states env accountId fileId w.sections w.db _⟩

theorem exec_ensureDownloaded_absent (accountId : AccountId) (hnone : w.files (cachePlace env cacheRoot fileId) = none)
    (hlock : w.locks fileId ≠ some .complete) :
    ∃ db' sections', exec env.handler (ensureDownloaded cacheRoot accountId fileId) w =
      (outcome (cachedPath cacheRoot fileId) (env.download w.downloads fileId).1, {
        db := db'
        sections := sections'
        files := downloaded env cacheRoot fileId w
        locks := Function.update w.locks fileId (some (finalStatus (env.download w.downloads fileId).1))
        downloads := w.downloads + 1 }) := by
  obtain ⟨db', sections', hrun, -⟩ := exec_ensureDownloaded_states accountId hnone hlock
  exact ⟨db', sections', hrun⟩

/-! ## Calls for one file -/

/-- The world after so many calls for a file. -/
def afterCalls (env : CacheEnv) (cacheRoot : UnixPath.Text) (accountId : AccountId) (fileId : FileId)
    (w : CacheWorld) : Nat → CacheWorld
  | 0 => w
  | k + 1 => (exec env.handler (ensureDownloaded cacheRoot accountId fileId)
      (afterCalls env cacheRoot accountId fileId w k)).2

/-- Either every attempt so far has left nothing and each call has made one, or the first attempt that
left something decided what is at the path. -/
theorem afterCalls_cases (accountId : AccountId) {content : Bytes} (attempts : Nat → Attempt content)
    (hdownload : ∀ k, env.download (w.downloads + k) fileId = ((attempts k).result, (attempts k).left))
    (hfiles : w.files (cachePlace env cacheRoot fileId) = none) (hlock : w.locks fileId ≠ some .complete) (k : Nat) :
    let w' := afterCalls env cacheRoot accountId fileId w k
    ((∀ j < k, (attempts j).left = none) ∧ w'.files (cachePlace env cacheRoot fileId) = none ∧
        w'.locks fileId ≠ some .complete ∧ w'.downloads = w.downloads + k) ∨
      ∃ j < k, (∀ i < j, (attempts i).left = none) ∧
        ∃ bytes, (attempts j).left = some bytes ∧
          w'.files (cachePlace env cacheRoot fileId) = some (.file bytes) := by
  induction k with
  | zero => exact .inl ⟨fun j hj => absurd hj (Nat.not_lt_zero j), hfiles, hlock, rfl⟩
  | succ k ih =>
    intro w'
    rcases ih with ⟨hnone, hf, hl, hd⟩ | ⟨j, hj, hnone, bytes, hleft, hf⟩
    · obtain ⟨db', sections', hrun⟩ := exec_ensureDownloaded_absent accountId hf hl
      have hw' : w' = _ := congrArg Prod.snd hrun
      rw [hd, hdownload] at hw'
      have hfiles' : w'.files = downloaded env cacheRoot fileId (afterCalls env cacheRoot accountId fileId w k) :=
        congrArg CacheWorld.files hw'
      unfold downloaded at hfiles'
      rw [hd, hdownload] at hfiles'
      cases hleft : (attempts k).left with
      | none =>
        refine .inl ⟨fun j hj => ?_, ?_, ?_, ?_⟩
        · rcases Nat.lt_succ_iff_lt_or_eq.1 hj with hj | rfl
          · exact hnone j hj
          · exact hleft
        · rw [hfiles']; simp only [hleft]; exact hf
        -- an attempt that left nothing has failed, and its entry says so
        · rw [hw']
          show Function.update _ fileId _ fileId ≠ _
          rw [Function.update_self]
          cases hresult : (attempts k).result with
          | ok u => rw [(attempts k).complete hresult] at hleft; cases hleft
          | error e => cases e <;> (intro h; injection h with h; cases h)
        · rw [hw']; rfl
      | some bytes =>
        refine .inr ⟨k, Nat.lt_succ_self k, hnone, bytes, hleft, ?_⟩
        rw [hfiles']; simp only [hleft]
        exact Function.update_self ..
    · have hw' : w' = _ := congrArg Prod.snd (exec_ensureDownloaded_present accountId hf)
      exact .inr ⟨j, Nat.lt_succ_of_lt hj, hnone, bytes, hleft, by rw [hw']; exact hf⟩

/-- After the first attempt that left something, what it left is at the path. -/
theorem afterCalls_first (accountId : AccountId) {content : Bytes} (attempts : Nat → Attempt content)
    (hdownload : ∀ k, env.download (w.downloads + k) fileId = ((attempts k).result, (attempts k).left))
    (hfiles : w.files (cachePlace env cacheRoot fileId) = none) (hlock : w.locks fileId ≠ some .complete) {k : Nat}
    (hnone : ∀ j < k, (attempts j).left = none) {bytes : Bytes} (hleft : (attempts k).left = some bytes) :
    (afterCalls env cacheRoot accountId fileId w (k + 1)).files (cachePlace env cacheRoot fileId) =
      some (.file bytes) := by
  rcases afterCalls_cases accountId attempts hdownload hfiles hlock (k + 1) with
    ⟨hall, -⟩ | ⟨j, hj, -, bytes', hleft', hf⟩
  · have hk := hall k (Nat.lt_succ_self k)
    rw [hleft] at hk; cases hk
  · -- those before the `k`-th left nothing, so it is the one that decided
    have hjk : j = k := by
      rcases Nat.lt_succ_iff_lt_or_eq.1 hj with hlt | heq
      · have hj' := hnone j hlt
        rw [hleft'] at hj'; cases hj'
      · exact heq
    subst hjk
    rw [hleft] at hleft'
    cases hleft'
    exact hf

/-- A call that returns a path has found there what the first attempt that left something left, or has
just made that attempt with success. -/
theorem returned_content {content : Bytes} (attempts : Nat → Attempt content)
    (hdownload : ∀ k, env.download (w.downloads + k) fileId = ((attempts k).result, (attempts k).left))
    (hfiles : w.files (cachePlace env cacheRoot fileId) = none) (hlock : w.locks fileId ≠ some .complete) {k : Nat}
    {path : UnixPath.Text} {w' : CacheWorld}
    (hrun : exec env.handler (ensureDownloaded cacheRoot accountId fileId)
      (afterCalls env cacheRoot accountId fileId w k) = (.ok path, w')) :
    path = cachedPath cacheRoot fileId ∧ ∃ bytes, w'.files (cachePlace env cacheRoot fileId) = some (.file bytes) ∧
      (bytes = content ∨ ∃ j < k, (∀ i < j, (attempts i).left = none) ∧ (attempts j).left = some bytes) := by
  rcases afterCalls_cases accountId attempts hdownload hfiles hlock k with
    ⟨-, hf, hl, hd⟩ | ⟨j, hj, hbefore, bytes, hleft, hf⟩
  · obtain ⟨db', sections', hrun'⟩ := exec_ensureDownloaded_absent accountId hf hl
    rw [hrun, hd, hdownload] at hrun'
    obtain ⟨hpath, hw'⟩ := Prod.mk.inj hrun'
    cases hresult : (attempts k).result with
    | error e => rw [hresult] at hpath; cases e <;> cases hpath
    | ok u =>
      rw [hresult] at hpath
      injection hpath with hpath
      refine ⟨hpath, content, ?_, .inl rfl⟩
      rw [hw']
      show downloaded env cacheRoot fileId _ (cachePlace env cacheRoot fileId) = _
      unfold downloaded
      rw [hd, hdownload]
      simp only [(attempts k).complete hresult]
      exact Function.update_self ..
  · rw [exec_ensureDownloaded_present accountId hf] at hrun
    obtain ⟨hpath, hw'⟩ := Prod.mk.inj hrun
    injection hpath with hpath
    exact ⟨hpath.symm, bytes, by rw [← hw']; exact hf, .inr ⟨j, hj, hbefore, hleft⟩⟩

/-- Over any number of calls for a file that is not cached yet, every returned path holds the complete
content if and only if no attempt before the last call was the first to leave something at the path
and left only a part of the content there. -/
theorem ensured_content_iff {content : Bytes} (env : CacheEnv) (cacheRoot : UnixPath.Text) (accountId : AccountId)
    (fileId : FileId) (w : CacheWorld) (attempts : Nat → Attempt content)
    (hdownload : ∀ k, env.download (w.downloads + k) fileId = ((attempts k).result, (attempts k).left))
    (hfiles : w.files (cachePlace env cacheRoot fileId) = none) (hlock : w.locks fileId = none) (n : Nat) :
    (∀ k < n, ∀ path w', exec env.handler (ensureDownloaded cacheRoot accountId fileId)
        (afterCalls env cacheRoot accountId fileId w k) = (.ok path, w') →
        w'.files (env.place path) = some (.file content)) ↔
      ∀ k, k + 1 < n → (∀ j < k, (attempts j).left = none) →
        (attempts k).left = none ∨ (attempts k).left = some content := by
  have hlock : w.locks fileId ≠ some .complete := by rw [hlock]; exact nofun
  constructor
  · intro h k hk hnone
    cases hleft : (attempts k).left with
    | none => exact .inl rfl
    | some bytes =>
      have hf := afterCalls_first accountId attempts hdownload hfiles hlock hnone hleft
      have hfile : some (Node.file bytes) = some (.file content) :=
        hf.symm.trans (h (k + 1) hk _ _ (exec_ensureDownloaded_present accountId hf))
      cases hfile
      exact .inr rfl
  · intro h k hk path w' hrun
    obtain ⟨rfl, bytes, hf, rfl | ⟨j, hj, hbefore, hleft⟩⟩ := returned_content attempts hdownload hfiles hlock hrun
    · exact hf
    · rcases h j (by omega) hbefore with hnone | hcontent
      · rw [hleft] at hnone; cases hnone
      · rw [hleft] at hcontent
        cases hcontent
        exact hf

/-! ## An interrupted transfer -/

/-- A cache with nothing in it. -/
def emptyCache : CacheWorld where
  db := sampleDb
  files _ := none
  locks _ := none
  sections := 0
  downloads := 0

/-- A database without faults. -/
def calm (download : Nat → FileId → Except CloudError Unit × Option Bytes) : CacheEnv where
  cwd := []
  clock _ := DateTime.epoch
  dbFault _ := none
  download := download

/-- Downloads of one content. -/
def attemptEnv {content : Bytes} (attempts : Nat → Attempt content) : CacheEnv :=
  calm fun k _ => ((attempts k).result, (attempts k).left)

/-- A download of two bytes: whether the file can be created, and the frames of the body. -/
def twoBytes (create : Except Str Unit) (frames : List GDrive.Frame) (h : GDrive.Carries frames [1, 2]) :
    Attempt [1, 2] :=
  GDrive.downloadAttempt (fun _ => none) ⟨['f']⟩ ⟨.ok none, .ok (), create, frames, .ok ()⟩ h

def wholeBody (create : Except Str Unit) : Attempt [1, 2] :=
  twoBytes create [.data [1] none, .trailers, .data [2] none] ⟨[2], rfl, [], rfl, rfl⟩

/-- The connection breaks after the first byte. -/
def brokenBody : Attempt [1, 2] := twoBytes (.ok ()) [.data [1] none, .error ['e']] ⟨[2], rfl, trivial⟩

/-- A first attempt that cannot create the file, and then a complete one. -/
def refusedThenWhole : Nat → Attempt [1, 2]
  | 0 => wholeBody (.error ['e'])
  | _ + 1 => wholeBody (.ok ())

theorem ensured_content_sample :
    ∃ w', exec (attemptEnv refusedThenWhole).handler (ensureDownloaded ['/', 'c'] sampleAccount ⟨['f']⟩)
        (afterCalls (attemptEnv refusedThenWhole) ['/', 'c'] sampleAccount ⟨['f']⟩ emptyCache 1) =
          (.ok ['/', 'c', '/', 'f'], w') ∧
      w'.files [['c'], ['f']] = some (.file [1, 2]) := by
  refine ⟨_, rfl, (ensured_content_iff (attemptEnv refusedThenWhole) ['/', 'c'] sampleAccount ⟨['f']⟩ emptyCache
    refusedThenWhole (fun k => ?_) rfl rfl 2).2 (fun k hk _ => ?_) 1 (by decide) ['/', 'c', '/', 'f'] _ rfl⟩
  · rw [show emptyCache.downloads = 0 from rfl, Nat.zero_add]; rfl
  · match k, hk with
    | 0, _ => exact .inl rfl

/-- After a broken transfer the next call returns the part it has left. -/
theorem ensured_content_broken :
    ¬ ∀ k < 2, ∀ path w', exec (attemptEnv fun _ => brokenBody).handler
        (ensureDownloaded ['/', 'c'] sampleAccount ⟨['f']⟩)
        (afterCalls (attemptEnv fun _ => brokenBody) ['/', 'c'] sampleAccount ⟨['f']⟩ emptyCache k) = (.ok path, w') →
      w'.files ((attemptEnv fun _ => brokenBody).place path) = some (.file [1, 2]) := by
  intro h
  have hcall := h 1 (by decide) ['/', 'c', '/', 'f'] _ rfl
  have hpart : some (Node.file [1]) = some (Node.file [1, 2]) := hcall
  cases hpart

end ContentCache

end CloudSync
