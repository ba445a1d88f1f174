/-
The whole database and the calls on it: those on accounts, and those on the rows that belong to accounts. The accounts
are a book of records by id, no two of one person at one provider; a deleted account takes its rows with it and stays
gone; and what belongs to one account is not changed by calls for others.
-/
import CloudSync.Lib.CallRuns
import CloudSync.Db.Accounts
import CloudSync.Db.Conflicts

namespace CloudSync

/-! ## The rows of an account -/

/-- `DELETE FROM files WHERE account_id = accountId`: the number of deleted rows and the table. -/
def FilesTable.deleteByAccount (t : FilesTable) (accountId : AccountId) : Nat × FilesTable :=
  (t.rows.countP (·.accountId = accountId.val), {
    rows := t.rows.filter (·.accountId ≠ accountId.val)
    seq := t.seq
    idsBelow := fun r hr => t.idsBelow r (List.mem_filter.1 hr).1
    idsNodup := t.idsNodup.sublist (List.filter_sublist.map _)
    keysNodup := t.keysNodup.sublist (List.filter_sublist.map _)
    written := fun r hr => t.written r (List.mem_filter.1 hr).1 })

def deleteFilesByAccount (accountId : AccountId) : DbM Nat := fun _ db =>
  (.ok (db.files.deleteByAccount accountId).1,
    { db with
      files := (db.files.deleteByAccount accountId).2
      filesFk := fun r hr => db.filesFk r (List.mem_filter.1 hr).1 })

def deleteCursor (accountId : AccountId) : DbM Bool := fun _ db =>
  (.ok (decide (db.cursors.countP (·.accountId = accountId.val) > 0)),
    { db with
      cursors := db.cursors.filter (·.accountId ≠ accountId.val)
      cursorsFk := fun r hr => db.cursorsFk r (List.mem_filter.1 hr).1 })

namespace Database

/-- The file rows of an account, in the order of the table. -/
def rowsOf (db : Database) (accountId : AccountId) : List FileRow := db.files.rows.filter (·.accountId = accountId.val)

/-- The tables after the row of an account was inserted. -/
def addAccount (db : Database) (id : AccountId) : Database :=
  { db with
    accounts := db.accounts ++ [id]
    filesFk := fun r hr => List.mem_append_left _ (db.filesFk r hr)
    cursorsFk := fun r hr => List.mem_append_left _ (db.cursorsFk r hr) }

theorem mem_accounts_of_ne {db : Database} {id : AccountId} {accountId : Str} (h : ⟨accountId⟩ ∈ db.accounts)
    (hne : accountId ≠ id.val) : (⟨accountId⟩ : AccountId) ∈ db.accounts.filter (· ≠ id) :=
  List.mem_filter.2 ⟨h, decide_eq_true fun heq => hne (congrArg AccountId.val heq)⟩

/-- `ON DELETE CASCADE`: the tables after the row of an account was deleted. -/
def removeAccount (db : Database) (id : AccountId) : Database where
  accounts := db.accounts.filter (· ≠ id)
  files := (db.files.deleteByAccount id).2
  cursors := db.cursors.filter (·.accountId ≠ id.val)
  filesFk r hr := by
    obtain ⟨hmem, hne⟩ := List.mem_filter.1 hr
    exact mem_accounts_of_ne (db.filesFk r hmem) (of_decide_eq_true hne)
  cursorsFk r hr := by
    obtain ⟨hmem, hne⟩ := List.mem_filter.1 hr
    exact mem_accounts_of_ne (db.cursorsFk r hmem) (of_decide_eq_true hne)

end Database

/-! ## Calls on the tables -/

/-- The calls on files and cursors. -/
inductive TableCall
  | createFile (file : File)
  | getFileById (id : Int)
  | getFileByProviderId (accountId : AccountId) (providerFileId : FileId)
  | getFileByCloudPath (scan : Scan) (accountId : AccountId) (cloudPath : CloudPath)
  | listFiles (scan : Scan) (accountId : AccountId) (stateFilter : Option FileState)
  | updateFile (file : File)
  | deleteFile (id : Int)
  | deleteFilesByAccount (accountId : AccountId)
  | upsertCursor (accountId : AccountId) (cursor : Cursor)
  | getCursor (accountId : AccountId)
  | deleteCursor (accountId : AccountId)

inductive TableReply
  | rowId (id : Int)
  | file (file : Option File)
  | files (files : List File)
  | changed (changed : Bool)
  | count (count : Nat)
  | done
  | cursor (cursor : Option Cursor)
deriving DecidableEq

/-- A call with its answer made a reply. -/
def DbM.map {α β : Type} (f : α → β) (m : DbM α) : DbM β := fun now db => ((m now db).1.map f, (m now db).2)

def TableCall.run : TableCall → DbM TableReply
  | .createFile file => (CloudSync.createFile file).map .rowId
  | .getFileById id => (CloudSync.getFileById id).map .file
  | .getFileByProviderId accountId providerFileId =>
    (CloudSync.getFileByProviderId accountId providerFileId).map .file
  | .getFileByCloudPath scan accountId cloudPath => (CloudSync.getFileByCloudPath scan accountId cloudPath).map .file
  | .listFiles scan accountId stateFilter => (CloudSync.listFiles scan accountId stateFilter).map .files
  | .updateFile file => (CloudSync.updateFile file).map .changed
  | .deleteFile id => (CloudSync.deleteFile id).map .changed
  | .deleteFilesByAccount accountId => (CloudSync.deleteFilesByAccount accountId).map .count
  | .upsertCursor accountId cursor => (CloudSync.upsertCursor accountId cursor).map fun _ => .done
  | .getCursor accountId => (CloudSync.getCursor accountId).map .cursor
  | .deleteCursor accountId => (CloudSync.deleteCursor accountId).map .changed

/-! ### What a call does to the rows -/

/-- What updating a record does: nothing, or it rewrites the row with its id. -/
theorem updateFile_cases (file : File) (now : DateTime) (db : Database) :
    (updateFile file now db).2 = db ∨ file.accountId ∈ db.accounts ∧
      (updateFile file now db).2.accounts = db.accounts ∧ (updateFile file now db).2.cursors = db.cursors ∧
      (updateFile file now db).2.files.rows =
        db.files.rows.map (FilesTable.assign { file with updatedAt := now }) := by
  unfold updateFile
  simp only
  split
  · rename_i rowsAffected db' hupdate
    unfold Database.updateFile at hupdate
    split at hupdate
    · cases hupdate
    · cases hupdate
      exact .inl rfl
    · rename_i n t ht
      split at hupdate
      · rename_i hacc
        cases hupdate
        refine .inr ⟨hacc, rfl, rfl, ?_⟩
        unfold FilesTable.update at ht
        split at ht
        · cases ht
        split at ht
        · cases ht
        split at ht
        · cases ht
        cases ht
        rfl
      · cases hupdate
  · exact .inl rfl

/-- What creating a record does: nothing, or it adds a row of its account. -/
theorem createFile_cases (file : File) (now : DateTime) (db : Database) :
    (∃ e, (createFile file now db).1 = .error e) ∧ (createFile file now db).2 = db ∨ file.accountId ∈ db.accounts ∧
      (createFile file now db).2.accounts = db.accounts ∧ (createFile file now db).2.cursors = db.cursors ∧
      ∃ id, (createFile file now db).2.files.rows = db.files.rows ++ [{ file with id := id }.toRow] := by
  unfold createFile
  split
  · rename_i id db' hinsert
    unfold Database.insertFile at hinsert
    split at hinsert
    · cases hinsert
    · rename_i id t ht
      split at hinsert
      · rename_i hacc
        cases hinsert
        refine .inr ⟨hacc, rfl, rfl, id, ?_⟩
        unfold FilesTable.insert at ht
        split at ht
        · cases ht
        split at ht
        · cases ht
        cases ht
        rfl
      · cases hinsert
  · exact .inl ⟨⟨_, rfl⟩, rfl⟩
  · exact .inl ⟨⟨_, rfl⟩, rfl⟩

/-- What storing a cursor does: nothing, or it sets the cursor row of the account. -/
theorem upsertCursor_cases (accountId : AccountId) (cursor : Cursor) (now : DateTime) (db : Database) :
    (upsertCursor accountId cursor now db).2.accounts = db.accounts ∧
      (upsertCursor accountId cursor now db).2.files = db.files ∧
      ∀ other, other ≠ accountId → (upsertCursor accountId cursor now db).2.cursorOf other = db.cursorOf other := by
  have hne : ∀ {other : AccountId}, other ≠ accountId → accountId.val ≠ other.val :=
    fun h heq => h (congrArg AccountId.mk heq.symm)
  unfold upsertCursor
  simp only
  split
  · refine ⟨rfl, rfl, fun other hother => ?_⟩
    unfold Database.cursorOf
    simp only
    rw [List.find?_map]
    have hpred : ((fun r : CursorRow => decide (r.accountId = other.val)) ∘ fun r : CursorRow =>
        if r.accountId = accountId.val then ⟨accountId.val, cursor, now.timestamp⟩ else r) =
        fun r => decide (r.accountId = other.val) := by
      funext r
      by_cases hr : r.accountId = accountId.val
      · simp [hr]
      · simp [hr]
    rw [hpred]
    cases hfind : db.cursors.find? fun r => decide (r.accountId = other.val) with
    | none => rfl
    | some r =>
      -- the row found is not the one that was set
      have hr : r.accountId = other.val := by simpa using List.find?_some hfind
      rw [Option.map_some, if_neg fun heq => hne hother (heq.symm.trans hr)]
  · split
    · refine ⟨rfl, rfl, fun other hother => ?_⟩
      unfold Database.cursorOf
      simp only
      rw [List.find?_append, List.find?_cons_of_neg (by simpa using hne hother), List.find?_nil, Option.or_none]
    · exact ⟨rfl, rfl, fun _ _ => rfl⟩

/-- No call on files and cursors changes the accounts. -/
theorem TableCall.run_accounts (call : TableCall) (now : DateTime) (db : Database) :
    (call.run now db).2.accounts = db.accounts := by
  cases call with
  | createFile file =>
    rcases createFile_cases file now db with ⟨-, h⟩ | ⟨-, h, -⟩
    · exact congrArg Database.accounts h
    · exact h
  | getFileById id =>
    show (CloudSync.getFileById id now db).2.accounts = _
    unfold CloudSync.getFileById
    split <;> rfl
  | getFileByProviderId accountId providerFileId =>
    show (CloudSync.getFileByProviderId accountId providerFileId now db).2.accounts = _
    unfold CloudSync.getFileByProviderId
    split <;> rfl
  | getFileByCloudPath scan accountId cloudPath =>
    show (CloudSync.getFileByCloudPath scan accountId cloudPath now db).2.accounts = _
    unfold CloudSync.getFileByCloudPath
    split <;> rfl
  | listFiles scan accountId stateFilter => rfl
  | updateFile file =>
    rcases updateFile_cases file now db with h | ⟨-, h, -⟩
    · exact congrArg Database.accounts h
    · exact h
  | deleteFile id => rfl
  | deleteFilesByAccount accountId => rfl
  | upsertCursor accountId cursor => exact (upsertCursor_cases accountId cursor now db).1
  | getCursor accountId => rfl
  | deleteCursor accountId => rfl

/-! ## The store -/

/-- The database with all its tables: the ids the foreign keys refer to are those of the accounts. -/
structure AccountStore where
  accounts : AccountsTable
  tables : Database
  agree : tables.accounts = accounts.ids

namespace AccountStore

def empty : AccountStore := ⟨.empty, .empty [], rfl⟩

def accountAt (s : AccountStore) : AccountId → Option Account := s.accounts.accountAt

end AccountStore

/-- The order in which SQLite visits the rows of the `accounts` table. -/
structure AccountScan where
  order : List AccountRow → List AccountRow
  perm : ∀ rows, (order rows).Perm rows

/-- A call on the store at an instant of the clock, with the fault of its statement: the outcome, and the store
after it. -/
def StoreM (β : Type) : Type := Fault → DateTime → AccountStore → Except Abort β × AccountStore

/-- A statement that fails leaves the store as it was. -/
def StoreM.unlessFault {β : Type} (f : DateTime → AccountStore → Except Abort β × AccountStore) : StoreM β :=
  fun fault now s => match fault with
  | some message => (.error (.err (failed message)), s)
  | none => f now s

/-- The conflict of every refused account. -/
def accountConflict : Abort := .err (.conflict "Account with this provider and email already exists".toList)

/-- The ids after an insert. -/
theorem AccountsTable.ids_insert {t t' : AccountsTable} {a : Account} (h : t.insert a = .ok t') :
    t'.ids = t.ids ++ [a.id] := by
  rcases t.insert_spec a with ⟨hrefused, -⟩ | ⟨t'', hok, -, -, hids⟩
  · rw [h] at hrefused
    cases hrefused
  · rw [h] at hok
    cases hok
    exact hids

theorem AccountsTable.ids_update {t t' : AccountsTable} {a : Account} {changed : Bool}
    (h : t.update a = .ok (changed, t')) : t'.ids = t.ids := by
  rcases t.update_spec a with ⟨hok, -⟩ | ⟨hrefused, -⟩ | ⟨t'', old, hok, -, -, -, hids⟩
  · rw [h] at hok
    cases hok
    rfl
  · rw [h] at hrefused
    cases hrefused
  · rw [h] at hok
    cases hok
    exact hids

def createAccount (account : Account) : StoreM AccountId := .unlessFault fun _ s =>
  match h : s.accounts.insert account with
  | .error _ => (.error accountConflict, s)
  | .ok accounts => (.ok account.id,
    ⟨accounts, s.tables.addAccount account.id,
      (congrArg (· ++ [account.id]) s.agree).trans (AccountsTable.ids_insert h).symm⟩)

def getAccountById (id : AccountId) : StoreM (Option Account) := .unlessFault fun _ s =>
  match s.accounts.table.rowAt id.val with
  | none => (.ok none, s)
  | some row => ((Account.fromRow row).map some, s)

/-- `SELECT … FROM accounts … ORDER BY created_at DESC` -/
def AccountScan.rows (scan : AccountScan) (activeOnly : Bool) (t : AccountsTable) : List AccountRow :=
  ((scan.order t.table.rows).filter fun r => !activeOnly || decide (r.isActive = 1)).insertionSort
    fun a b => b.createdAt ≤ a.createdAt

def listAccounts (scan : AccountScan) (activeOnly : Bool) : StoreM (List Account) := .unlessFault fun _ s =>
  ((scan.rows activeOnly s.accounts).mapM Account.fromRow, s)

def updateAccount (account : Account) : StoreM Bool := .unlessFault fun now s =>
  match h : s.accounts.update { account with updatedAt := now } with
  -- unlike a refused insert, this is no conflict
  | .error c => (.error (.err (.sqlite (refused c))), s)
  | .ok (changed, accounts) => (.ok changed, ⟨accounts, s.tables, s.agree.trans (AccountsTable.ids_update h).symm⟩)

def deleteAccount (id : AccountId) : StoreM Bool := .unlessFault fun _ s =>
  (.ok (s.accounts.delete id).1,
    ⟨(s.accounts.delete id).2, s.tables.removeAccount id,
      (congrArg (List.filter (· ≠ id)) s.agree).trans (s.accounts.delete_spec id).2.2.symm⟩)

def TableCall.onStore (call : TableCall) : StoreM TableReply := .unlessFault fun now s =>
  ((call.run now s.tables).1,
    ⟨s.accounts, (call.run now s.tables).2, (call.run_accounts now s.tables).trans s.agree⟩)

/-- The calls on the store. -/
inductive StoreCall
  | createAccount (account : Account)
  | getAccountById (id : AccountId)
  | listAccounts (scan : AccountScan) (activeOnly : Bool)
  | updateAccount (account : Account)
  | deleteAccount (id : AccountId)
  | tables (call : TableCall)

inductive StoreReply
  | accountId (id : AccountId)
  | account (account : Option Account)
  | accounts (accounts : List Account)
  | changed (changed : Bool)
  | tables (reply : TableReply)
deriving DecidableEq

def StoreM.map {α β : Type} (f : α → β) (m : StoreM α) : StoreM β := fun fault now s =>
  ((m fault now s).1.map f, (m fault now s).2)

def StoreCall.run : StoreCall → StoreM StoreReply
  | .createAccount account => (CloudSync.createAccount account).map .accountId
  | .getAccountById id => (CloudSync.getAccountById id).map .account
  | .listAccounts scan activeOnly => (CloudSync.listAccounts scan activeOnly).map .accounts
  | .updateAccount account => (CloudSync.updateAccount account).map .changed
  | .deleteAccount id => (CloudSync.deleteAccount id).map .changed
  | .tables call => call.onStore.map .tables

/-- A call with its clock and the fault of its statement. -/
structure StoreStep where
  call : StoreCall
  fault : Fault
  now : DateTime

def StoreStep.run (step : StoreStep) (s : AccountStore) : Except Abort StoreReply × AccountStore :=
  step.call.run step.fault step.now s

/-- The answers of a run of calls, and the store after them. -/
def AccountStore.run (steps : List StoreStep) (s : AccountStore) :
    List (StoreStep × Except Abort StoreReply) × AccountStore := CallRuns.run StoreStep.run steps s

end CloudSync
