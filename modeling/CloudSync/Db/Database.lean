/-
The database calls of the sync crates: file records (`create_file`, `get_file_by_provider_id`,
`update_file`, `delete_file`) and sync cursors (`upsert_cursor`, `get_cursor`), each with one
theorem that says what it answers and what it does to the rows. A call reads the clock at most
once; a failed statement leaves the database as it was.
-/
import CloudSync.Db.Files

namespace CloudSync

/-- A row of the `sync_cursors` table. -/
structure CursorRow where
  accountId : Str
  cursor : Cursor
  updatedAt : Int
deriving DecidableEq

/-- The tables metadata sync reads and writes; of `accounts` only the ids, which are the targets of
the foreign keys. -/
structure Database where
  accounts : List AccountId
  files : FilesTable
  cursors : List CursorRow
  filesFk : ∀ r ∈ files.rows, (⟨r.accountId⟩ : AccountId) ∈ accounts
  cursorsFk : ∀ r ∈ cursors, (⟨r.accountId⟩ : AccountId) ∈ accounts

namespace Database

def empty (accounts : List AccountId) : Database where
  accounts := accounts
  files := FilesTable.empty
  cursors := []
  filesFk := by simp [FilesTable.empty]
  cursorsFk := by simp

/-- The row of an account's file. -/
def rowOf (db : Database) (account : AccountId) (id : FileId) : Option FileRow :=
  db.files.rowAt (account.val, id.val)

end Database

/-- A database call at an instant of the clock: its outcome and the database after it. -/
def DbM (β : Type) : Type := DateTime → Database → Except Abort β × Database

namespace DbM

variable {α β : Type}

instance : Monad DbM where
  pure a := fun _ db => (.ok a, db)
  bind m f := fun now db => match m now db with
    | (.ok a, db') => f a now db'
    | (.error e, db') => (.error e, db')

/-- `Utc::now()` -/
def now : DbM DateTime := fun now db => (.ok now, db)

@[simp] theorem pure_eq (a : α) (now : DateTime) (db : Database) : (pure a : DbM α) now db = (.ok a, db) := rfl

@[simp] theorem now_eq (now : DateTime) (db : Database) : DbM.now now db = (.ok now, db) := rfl

theorem bind_ok {m : DbM α} {f : α → DbM β} {now : DateTime} {db db' : Database} {a : α}
    (h : m now db = (.ok a, db')) : (m >>= f) now db = f a now db' := by
  show (match m now db with
    | (.ok a, db') => f a now db'
    | (.error e, db') => (.error e, db')) = _
  rw [h]

theorem bind_error {m : DbM α} {f : α → DbM β} {now : DateTime} {db db' : Database} {e : Abort}
    (h : m now db = (.error e, db')) : (m >>= f) now db = (.error e, db') := by
  show (match m now db with
    | (.ok a, db') => f a now db'
    | (.error e, db') => (.error e, db')) = _
  rw [h]

end DbM

/-! ## Statements on the files table -/

/-- The error of a refused statement. -/
def refused (c : Constraint) : SqliteError := .constraintViolation c

namespace Database

theorem insert_files_fk {db : Database} {f : File} {id : Int} {t : FilesTable} (h : db.files.insert f = .ok (id, t))
    (hacc : f.accountId ∈ db.accounts) : ∀ r ∈ t.rows, (⟨r.accountId⟩ : AccountId) ∈ db.accounts := by
  unfold FilesTable.insert at h
  split at h
  · cases h
  split at h
  · cases h
  cases h
  intro r hr
  rcases List.mem_append.1 hr with hr | hr
  · exact db.filesFk r hr
  · rw [List.mem_singleton.1 hr]; exact hacc

theorem update_files_fk {db : Database} {f : File} {n : Nat} {t : FilesTable} (h : db.files.update f = .ok (n, t))
    (hacc : f.accountId ∈ db.accounts) : ∀ r ∈ t.rows, (⟨r.accountId⟩ : AccountId) ∈ db.accounts := by
  unfold FilesTable.update at h
  split at h
  · cases h; exact db.filesFk
  split at h
  · cases h
  split at h
  · cases h
  cases h
  intro r hr
  obtain ⟨r₀, hr₀, rfl⟩ := List.mem_map.1 hr
  unfold FilesTable.assign; split
  · exact hacc
  · exact db.filesFk r₀ hr₀

/-- `INSERT INTO files`: the foreign key is checked with the row constraints. -/
def insertFile (db : Database) (f : File) : Except SqliteError (Int × Database) :=
  match h : db.files.insert f with
  | .error c => .error (refused c)
  | .ok (id, t) =>
    if hacc : f.accountId ∈ db.accounts then .ok (id, { db with files := t, filesFk := insert_files_fk h hacc })
    else .error (refused .foreignKey)

/-- `UPDATE files SET … WHERE id = f.id` -/
def updateFile (db : Database) (f : File) : Except SqliteError (Nat × Database) :=
  match h : db.files.update f with
  | .error c => .error (refused c)
  -- no row has the id: nothing is written, and the foreign key is not looked at
  | .ok (0, _) => .ok (0, db)
  | .ok (n + 1, t) =>
    if hacc : f.accountId ∈ db.accounts then .ok (n + 1, { db with files := t, filesFk := update_files_fk h hacc })
    else .error (refused .foreignKey)

/-- `DELETE FROM files WHERE id = id` -/
def deleteFile (db : Database) (id : Int) : Nat × Database :=
  ((db.files.delete id).1,
    { db with files := (db.files.delete id).2, filesFk := fun r hr => db.filesFk r (List.mem_filter.1 hr).1 })

end Database

/-! ## File records -/

def createFile (file : File) : DbM Int := fun _ db =>
  match db.insertFile file with
  | .ok (id, db') => (.ok id, db')
  -- a failed CHECK and a missing account are reported as a conflict too
  | .error (.constraintViolation _) =>
    (.error (.err (.conflict "File with this account and provider_file_id already exists".toList)), db)
  | .error e => (.error (.err (.sqlite e)), db)

def getFileByProviderId (accountId : AccountId) (providerFileId : FileId) : DbM (Option File) := fun _ db =>
  match db.rowOf accountId providerFileId with
  | none => (.ok none, db)
  | some row => ((File.fromRow row).map some, db)

def updateFile (file : File) : DbM Bool := fun now db =>
  let updatedFile := { file with updatedAt := now }
  match db.updateFile updatedFile with
  | .ok (rowsAffected, db') => (.ok (decide (rowsAffected > 0)), db')
  | .error e => (.error (.err (.sqlite e)), db)

def deleteFile (id : Int) : DbM Bool := fun _ db =>
  (.ok (decide ((db.deleteFile id).1 > 0)), (db.deleteFile id).2)

/-- The row of the key after a call, every other row and the other tables as before. -/
structure Database.Sets (db : Database) (key : Str × Str) (row : Option FileRow) (db' : Database) : Prop where
  rows : db'.files.rowAt = Function.update db.files.rowAt key row
  accounts : db'.accounts = db.accounts
  cursors : db'.cursors = db.cursors

/-- A record of an unknown key and a known account is stored under the next id. -/
theorem createFile_spec {db : Database} (file : File) (now : DateTime)
    (hnew : db.rowOf file.accountId file.providerFileId = none) (hacc : file.accountId ∈ db.accounts) :
    ∃ db', createFile file now db = (.ok (db.files.seq + 1), db') ∧
      db.Sets file.toRow.key (some { file with id := db.files.seq + 1 }.toRow) db' := by
  obtain ⟨t, ht, -, -, hrow⟩ := FilesTable.insert_spec (f := file) hnew
  have hins : ∃ db', db.insertFile file = .ok (db.files.seq + 1, db') ∧
      db.Sets file.toRow.key (some { file with id := db.files.seq + 1 }.toRow) db' := by
    unfold Database.insertFile
    split
    · rename_i c hc; rw [ht] at hc; cases hc
    · rename_i id t' ht'
      rw [ht] at ht'; cases ht'
      rw [dif_pos hacc]
      exact ⟨_, rfl, hrow, rfl, rfl⟩
  obtain ⟨db', hdb, hsets⟩ := hins
  refine ⟨db', ?_, hsets⟩
  unfold createFile; rw [hdb]

/-- The error of every refused insert. -/
def duplicateError : Abort :=
  .err (.conflict "File with this account and provider_file_id already exists".toList)

/-- A record of a known file is refused, and so is one of an account that is not there. -/
theorem Database.insertFile_duplicate {db : Database} {file : File} {r : FileRow}
    (h : db.rowOf file.accountId file.providerFileId = some r) : db.insertFile file = .error (refused .unique) := by
  have hinsert : db.files.insert file = .error .unique := FilesTable.insert_duplicate h
  unfold insertFile
  split
  · rename_i c hc
    rw [hinsert] at hc
    cases hc
    rfl
  · rename_i id t ht
    rw [hinsert] at ht
    cases ht

theorem Database.insertFile_noAccount {db : Database} {file : File}
    (h : db.rowOf file.accountId file.providerFileId = none) (hacc : file.accountId ∉ db.accounts) :
    db.insertFile file = .error (refused .foreignKey) := by
  obtain ⟨t, hinsert, -⟩ := FilesTable.insert_spec (f := file) h
  unfold insertFile
  split
  · rename_i c hc
    rw [hinsert] at hc
    cases hc
  · rw [dif_neg hacc]

theorem createFile_refused {db : Database} {file : File} {c : Constraint} (now : DateTime)
    (h : db.insertFile file = .error (refused c)) : createFile file now db = (.error duplicateError, db) := by
  unfold createFile
  rw [h]
  rfl

theorem getFileByProviderId_none {db : Database} {account : AccountId} {id : FileId} (now : DateTime)
    (h : db.rowOf account id = none) : getFileByProviderId account id now db = (.ok none, db) := by
  unfold getFileByProviderId; rw [h]

/-- A stored record reads back as `File.stored`. -/
theorem getFileByProviderId_some {db : Database} {account : AccountId} {id : FileId} {f : File} (now : DateTime)
    (h : db.rowOf account id = some f.toRow) :
    getFileByProviderId account id now db = (.ok (some f.stored), db) := by
  unfold getFileByProviderId
  rw [h]; simp only [File.fromRow_toRow]; rfl

/-- Every row is the columns of a record, of the account and file id it is looked up by. -/
theorem Database.rowOf_written {db : Database} {account : AccountId} {id : FileId} {r : FileRow}
    (h : db.rowOf account id = some r) :
    ∃ f : File, r = f.toRow ∧ f.accountId = account ∧ f.providerFileId = id ∧ account ∈ db.accounts := by
  obtain ⟨hmem, hkey⟩ := FilesTable.rowAt_eq_some.1 h
  obtain ⟨f, rfl⟩ := db.files.written r hmem
  have hfk := db.filesFk _ hmem
  have hkey : f.accountId.val = account.val ∧ f.providerFileId.val = id.val := Prod.mk.inj hkey
  have hacc : f.accountId = account := by
    cases account; cases hf : f.accountId; simp only [hf] at hkey; rw [hkey.1]
  refine ⟨f, rfl, hacc, ?_, hacc ▸ hfk⟩
  cases id; cases hf : f.providerFileId; simp only [hf] at hkey; rw [hkey.2]

/-- A stored record is replaced by one of the same id and key; `created_at` stays, `updated_at` is
the instant of the call. -/
theorem updateFile_spec {db : Database} {f g : File} (now : DateTime)
    (hg : db.rowOf g.accountId g.providerFileId = some g.toRow) (hid : f.id = g.id)
    (hacc : f.accountId = g.accountId) (hfid : f.providerFileId = g.providerFileId) :
    ∃ db', updateFile f now db = (.ok true, db') ∧
      db.Sets g.toRow.key (some { f with updatedAt := now, createdAt := g.createdAt }.toRow) db' := by
  obtain ⟨g', -, hg', -, hmem⟩ := Database.rowOf_written hg
  have hkey : ({ f with updatedAt := now } : File).toRow.key = g.toRow.key := by
    show (f.accountId.val, f.providerFileId.val) = _
    rw [hacc, hfid]; rfl
  obtain ⟨t, ht, -, -, hrow⟩ :=
    FilesTable.update_spec (t := db.files) (f := { f with updatedAt := now }) (r := g.toRow) (hkey ▸ hg) hid.symm
  have hupd : ∃ db', db.updateFile { f with updatedAt := now } = .ok (1, db') ∧
      db.Sets g.toRow.key (some { f with updatedAt := now, createdAt := g.createdAt }.toRow) db' := by
    unfold Database.updateFile
    split
    · rename_i c hc; rw [ht] at hc; cases hc
    · rename_i t' ht'; rw [ht] at ht'; cases ht'
    · rename_i n t' ht'
      rw [ht] at ht'; cases ht'
      rw [dif_pos (hacc ▸ hmem)]
      exact ⟨_, rfl, hkey ▸ hrow, rfl, rfl⟩
  obtain ⟨db', hdb, hsets⟩ := hupd
  refine ⟨db', ?_, hsets⟩
  unfold updateFile
  simp only [hdb]; rfl

theorem deleteFile_spec {db : Database} {account : AccountId} {id : FileId} {r : FileRow} (now : DateTime)
    (h : db.rowOf account id = some r) :
    ∃ db', deleteFile r.id now db = (.ok true, db') ∧ db.Sets (account.val, id.val) none db' := by
  obtain ⟨-, -, hrow⟩ := FilesTable.delete_spec h
  have hmem := (FilesTable.rowAt_eq_some.1 h).1
  have hpos : (db.deleteFile r.id).1 > 0 := List.countP_pos_iff.2 ⟨r, hmem, by simp⟩
  refine ⟨(db.deleteFile r.id).2, ?_, hrow, rfl, rfl⟩
  unfold deleteFile
  rw [decide_eq_true hpos]

/-! ## Sync cursors -/

/-- `INSERT … ON CONFLICT(account_id) DO UPDATE`: only an inserted row meets the foreign key. -/
def upsertCursor (accountId : AccountId) (cursor : Cursor) : DbM Unit := fun now db =>
  let row : CursorRow := ⟨accountId.val, cursor, now.timestamp⟩
  if db.cursors.any (·.accountId = accountId.val) then
    (.ok (), { db with
      cursors := db.cursors.map fun r => if r.accountId = accountId.val then row else r
      cursorsFk := by
        intro r hr
        obtain ⟨r₀, hr₀, rfl⟩ := List.mem_map.1 hr
        split
        · rename_i hacc
          show (⟨accountId.val⟩ : AccountId) ∈ db.accounts
          rw [← hacc]; exact db.cursorsFk r₀ hr₀
        · exact db.cursorsFk r₀ hr₀ })
  else if hacc : accountId ∈ db.accounts then
    (.ok (), { db with
      cursors := db.cursors ++ [row]
      cursorsFk := by
        intro r hr
        rcases List.mem_append.1 hr with hr | hr
        · exact db.cursorsFk r hr
        · rw [List.mem_singleton.1 hr]; exact hacc })
  else
    (.error (.err (.sqlite (refused .foreignKey))), db)

/-- The stored cursor of an account. -/
def Database.cursorOf (db : Database) (accountId : AccountId) : Option Cursor :=
  (db.cursors.find? (·.accountId = accountId.val)).map CursorRow.cursor

/-- Only accounts of the `accounts` table have a cursor. -/
theorem Database.account_of_cursor {db : Database} {account : AccountId} {c : Cursor}
    (h : db.cursorOf account = some c) : account ∈ db.accounts := by
  obtain ⟨r, hr, -⟩ := Option.map_eq_some_iff.1 h
  have hacc : r.accountId = account.val := by simpa using List.find?_some hr
  have hfk := db.cursorsFk r (List.mem_of_find?_eq_some hr)
  rw [hacc] at hfk; exact hfk

def getCursor (accountId : AccountId) : DbM (Option Cursor) := fun _ db => (.ok (db.cursorOf accountId), db)

@[simp] theorem getCursor_eq (accountId : AccountId) (now : DateTime) (db : Database) :
    getCursor accountId now db = (.ok (db.cursorOf accountId), db) := rfl

/-- A stored cursor is the one read back; nothing else changes. -/
theorem upsertCursor_spec {db : Database} {account : AccountId} (cursor : Cursor) (now : DateTime)
    (hacc : account ∈ db.accounts) :
    ∃ db', upsertCursor account cursor now db = (.ok (), db') ∧ db'.files = db.files ∧
      db'.accounts = db.accounts ∧ db'.cursorOf account = some cursor := by
  unfold upsertCursor
  simp only
  split
  · rename_i hany
    refine ⟨_, rfl, rfl, rfl, ?_⟩
    obtain ⟨r, hr, hra⟩ := List.any_eq_true.1 hany
    have hra : r.accountId = account.val := by simpa using hra
    show (List.find? _ (db.cursors.map _)).map _ = _
    rw [List.find?_map]
    -- the rewrite keeps the account of every row, so the same row is found
    have hp : ((fun x : CursorRow => decide (x.accountId = account.val)) ∘ fun r =>
        if r.accountId = account.val then ⟨account.val, cursor, now.timestamp⟩ else r) =
        fun x => decide (x.accountId = account.val) := by
      funext x
      by_cases hx : x.accountId = account.val <;> simp [hx]
    rw [hp]
    cases hf : db.cursors.find? fun x => decide (x.accountId = account.val) with
    | none =>
      rw [List.find?_eq_none] at hf
      exact absurd (hf r hr) (by simpa using hra)
    | some x =>
      have hx : x.accountId = account.val := by simpa using List.find?_some hf
      simp [hx]
  · rename_i hany
    refine ⟨_, rfl, rfl, rfl, ?_⟩
    show (List.find? _ (db.cursors ++ _)).map _ = _
    rw [List.find?_append, List.find?_eq_none.2 (fun x hx => ?_)]
    · simp
    · intro hxa
      exact hany (List.any_eq_true.2 ⟨x, hx, hxa⟩)

end CloudSync
