/-
Reading back what was stored. A record that is created, and one that is updated, is returned by all queries that
ask for it, its timestamps rounded down to seconds; no other row changes.
-/
import CloudSync.Db.Queries

namespace CloudSync

/-- `SELECT … WHERE id = id` -/
def FilesTable.rowById (t : FilesTable) (id : Int) : Option FileRow := t.rows.find? (·.id = id)

def getFileById (id : Int) : DbM (Option File) := fun _ db =>
  match db.files.rowById id with
  | none => (.ok none, db)
  | some row => ((File.fromRow row).map some, db)

theorem FilesTable.rowById_eq_some {t : FilesTable} {id : Int} {r : FileRow} :
    t.rowById id = some r ↔ r ∈ t.rows ∧ r.id = id := UniqueKey.find_eq_some t.idsNodup

/-! ## Records -/

namespace File

/-- The record with its timestamps rounded down to seconds. -/
def floored (f : File) : File :=
  { f with
    modifiedAt := f.modifiedAt.floor
    syncedAt := f.syncedAt.map DateTime.floor
    createdAt := f.createdAt.floor
    updatedAt := f.updatedAt.floor }

/-- A record with a path that `CloudPath::new` makes reads back with this path. -/
theorem stored_eq_floored {f : File} (hpath : ∃ s, f.path = CloudPath.new s) : f.stored = f.floored := by
  obtain ⟨s, hs⟩ := hpath
  have hnew : CloudPath.new f.path.asStr = f.path := by
    rw [hs]
    exact CloudPath.new_new s
  unfold stored floored
  rw [hnew]

theorem mem_mapM_fromRow {rows : List FileRow} {files : List File} (h : rows.mapM fromRow = .ok files) {f : File} :
    f ∈ files ↔ ∃ r ∈ rows, fromRow r = .ok f := by
  induction rows generalizing files with
  | nil =>
    cases h
    simp
  | cons r rows ih =>
    rw [List.mapM_cons] at h
    cases hr : fromRow r with
    | error e =>
      rw [hr] at h
      cases h
    | ok g =>
      cases hrows : rows.mapM fromRow with
      | error e =>
        rw [hr, hrows] at h
        cases h
      | ok gs =>
        rw [hr, hrows] at h
        obtain rfl : g :: gs = files := Except.ok.inj h
        rw [List.mem_cons, ih hrows, List.exists_mem_cons_iff, hr, Except.ok.injEq, eq_comm]

end File

/-! ## Queries -/

theorem Scan.mem_stateRows {scan : Scan} {account : AccountId} {state : FileState} {t : FilesTable} {r : FileRow} :
    r ∈ scan.accountRows account (some state) t ↔
      r ∈ t.rows ∧ r.accountId = account.val ∧ r.state = stateText state := by
  unfold accountRows
  rw [List.mem_insertionSort, List.mem_filter, mem_order]
  simp only [Option.all_some, decide_eq_true_eq]

/-- The queries that ask for a record return it: by its id, by its account and file id, and in the lists of its
state and of no other. -/
structure Database.Returns (db : Database) (f : File) : Prop where
  byId : ∀ now, getFileById f.id now db = (.ok (some f), db)
  byProviderId : ∀ now, getFileByProviderId f.accountId f.providerFileId now db = (.ok (some f), db)
  listed : ∀ scan account state now, ∃ files, listFiles scan account (some state) now db = (.ok files, db) ∧
    (f ∈ files ↔ account = f.accountId ∧ f.state = state)

/-- The rows of other records are the same. -/
def Database.SameBut (db : Database) (f : File) (db' : Database) : Prop :=
  ∀ r : FileRow, r.key ≠ f.toRow.key → (r ∈ db'.files.rows ↔ r ∈ db.files.rows)

theorem Database.Sets.sameBut {db db' : Database} {f : File} {row : Option FileRow}
    (h : db.Sets f.toRow.key row db') : db.SameBut f db' := by
  intro r hr
  rw [FilesTable.mem_iff_rowAt, FilesTable.mem_iff_rowAt, h.rows, Function.update_of_ne hr]

theorem Database.Sets.rowOf {db db' : Database} {f : File} (h : db.Sets f.toRow.key (some f.toRow) db') :
    db'.rowOf f.accountId f.providerFileId = some f.toRow := by
  show db'.files.rowAt f.toRow.key = _
  rw [h.rows, Function.update_self]

/-- The list of an account and a state decodes. -/
theorem listFiles_state (scan : Scan) (account : AccountId) (state : FileState) (now : DateTime) (db : Database) :
    ∃ files, listFiles scan account (some state) now db = (.ok files, db) ∧
      ∀ f, f ∈ files ↔ ∃ r ∈ scan.accountRows account (some state) db.files, File.fromRow r = .ok f := by
  have hwritten : ∀ r ∈ scan.accountRows account (some state) db.files, ∃ f : File, r = f.toRow :=
    fun r hr => db.files.written r (Scan.mem_stateRows.1 hr).1
  obtain ⟨files, hfiles, -⟩ := File.mapM_fromRow hwritten
  exact ⟨files, by unfold listFiles; rw [hfiles], fun f => File.mem_mapM_fromRow hfiles⟩

/-- A stored record is the one that every query for it returns. -/
theorem Database.returns_stored {db : Database} {f : File}
    (h : db.rowOf f.accountId f.providerFileId = some f.toRow) : db.Returns f.stored where
  byId now := by
    have hrow : db.files.rowById f.id = some f.toRow :=
      FilesTable.rowById_eq_some.2 ⟨(FilesTable.rowAt_eq_some.1 h).1, rfl⟩
    show getFileById f.id now db = _
    unfold getFileById
    rw [hrow]
    simp only [File.fromRow_toRow]
    rfl
  byProviderId now := getFileByProviderId_some now h
  listed scan account state now := by
    have hmem : f.toRow ∈ db.files.rows := (FilesTable.rowAt_eq_some.1 h).1
    obtain ⟨files, hfiles, hall⟩ := listFiles_state scan account state now db
    refine ⟨files, hfiles, (hall _).trans ⟨?_, ?_⟩⟩
    · rintro ⟨r, hr, hdecode⟩
      obtain ⟨hr, hacc, hstate⟩ := Scan.mem_stateRows.1 hr
      -- the row decodes to a record with its id, so it is the row of `f`
      obtain ⟨g, rfl⟩ := db.files.written r hr
      rw [File.fromRow_toRow] at hdecode
      have hstored : g.stored = f.stored := Except.ok.inj hdecode
      have hid : g.stored.id = f.stored.id := congrArg File.id hstored
      rw [FilesTable.eq_of_id hr hmem hid] at hacc hstate
      refine ⟨?_, stateText_inj hstate⟩
      show account = f.accountId
      exact (congrArg AccountId.mk hacc).symm
    · rintro ⟨rfl, rfl⟩
      exact ⟨f.toRow, Scan.mem_stateRows.2 ⟨hmem, rfl, rfl⟩, File.fromRow_toRow f⟩

/-! ## Creating and updating -/

/-- A record of a known account and a new file id is created under a new id, and an update replaces it: after
each, the queries return the record with its timestamps rounded down to seconds, `created_at` being that of the
creation and `updated_at` that of the update, and the other rows are the same. -/
theorem create_update_returns (db : Database) (file : File) (now : DateTime) (hacc : file.accountId ∈ db.accounts)
    (hnew : db.rowOf file.accountId file.providerFileId = none) (hpath : ∃ s, file.path = CloudPath.new s) :
    ∃ id db', createFile file now db = (.ok id, db') ∧ id ∉ db.files.rows.map FileRow.id ∧
      db'.Returns { file with id := id }.floored ∧ db.SameBut file db' ∧
      ∀ (next : File) (later : DateTime), next.id = id → next.accountId = file.accountId →
        next.providerFileId = file.providerFileId → (∃ s, next.path = CloudPath.new s) →
        ∃ db'', updateFile next later db' = (.ok true, db'') ∧
          db''.Returns { next with createdAt := file.createdAt, updatedAt := later }.floored ∧
           db'.SameBut file db'' := by
  obtain ⟨db', hcreate, hsets⟩ := createFile_spec file now hnew hacc
  generalize hid : db.files.seq + 1 = id at hcreate hsets
  have hrow : db'.rowOf file.accountId file.providerFileId = some { file with id := id }.toRow :=
    Database.Sets.rowOf (f := { file with id := id }) hsets
  refine ⟨id, db', hcreate, ?_, ?_, hsets.sameBut, ?_⟩
  · intro hmem
    obtain ⟨r, hr, hrid⟩ := List.mem_map.1 hmem
    have hle := db.files.idsBelow r hr
    omega
  · have hreturns := Database.returns_stored (f := { file with id := id }) hrow
    rwa [File.stored_eq_floored (f := { file with id := id }) hpath] at hreturns
  · intro next later hnextId hnextAcc hnextFile hnextPath
    obtain ⟨db'', hupdate, hsets'⟩ := updateFile_spec (f := next) (g := { file with id := id }) later hrow hnextId
      hnextAcc hnextFile
    have hkey : ({ file with id := id } : File).toRow.key = next.toRow.key := by
      show (file.accountId.val, file.providerFileId.val) = (next.accountId.val, next.providerFileId.val)
      rw [hnextAcc, hnextFile]
    refine ⟨db'', hupdate, ?_, hsets'.sameBut⟩
    rw [hkey] at hsets'
    have hreturns := Database.returns_stored (Database.Sets.rowOf
      (f := { next with updatedAt := later, createdAt := file.createdAt }) hsets')
    rwa [File.stored_eq_floored (f := { next with updatedAt := later, createdAt := file.createdAt }) hnextPath]
      at hreturns

/-- A file of the greatest size, half a second after the epoch. -/
def report : File :=
  File.new ⟨0, 500000000, DateTime.epoch.lo, DateTime.epoch.hi, by decide⟩ ⟨['a']⟩ ⟨['f']⟩
    (CloudPath.new "docs\\report.pdf".toList) "report.pdf".toList (some 18446744073709551615) none false DateTime.epoch

/-- It is created and made conflicting. -/
theorem create_update_returns_sample :
    ∃ id db' db'', createFile report DateTime.epoch (Database.empty [⟨['a']⟩]) = (.ok id, db') ∧
      updateFile { report with id := id, state := .conflict } DateTime.epoch db' = (.ok true, db'') ∧
      db''.Returns { report with id := id, state := .conflict, updatedAt := DateTime.epoch }.floored := by
  obtain ⟨id, db', hcreate, -, -, -, hupdate⟩ := create_update_returns (Database.empty [⟨['a']⟩]) report DateTime.epoch
    List.mem_cons_self rfl ⟨"docs\\report.pdf".toList, rfl⟩
  obtain ⟨db'', hdb'', hreturns, -⟩ := hupdate { report with id := id, state := .conflict } DateTime.epoch rfl rfl rfl
    ⟨"docs\\report.pdf".toList, rfl⟩
  exact ⟨id, db', db'', hcreate, hdb'', hreturns⟩

end CloudSync
