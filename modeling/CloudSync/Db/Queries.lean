/-
The queries that may match several rows: `list_files` and `get_file_by_cloud_path`. Rows that a query
leaves unordered come in an order of SQLite's own, which is a parameter here.
-/
import CloudSync.Db.Database
import Mathlib.Data.Char
import Mathlib.Data.List.Lex
import Mathlib.Data.List.Sort

namespace CloudSync

/-- The order in which SQLite visits the rows of the `files` table. -/
structure Scan where
  order : List FileRow → List FileRow
  perm : ∀ rows, (order rows).Perm rows

namespace Scan

def byRowid : Scan := ⟨id, fun _ => .refl _⟩

theorem mem_order {scan : Scan} {rows : List FileRow} {r : FileRow} : r ∈ scan.order rows ↔ r ∈ rows :=
  (scan.perm rows).mem_iff

end Scan

/-- `SELECT … WHERE account_id = … ORDER BY path ASC`, with the filter on the state if there is one. -/
def Scan.accountRows (scan : Scan) (accountId : AccountId) (stateFilter : Option FileState) (t : FilesTable) :
    List FileRow :=
  ((scan.order t.rows).filter fun r => r.accountId = accountId.val ∧
    stateFilter.all fun state => r.state = stateText state).insertionSort fun a b => a.path ≤ b.path

def listFiles (scan : Scan) (accountId : AccountId) (stateFilter : Option FileState) : DbM (List File) := fun _ db =>
  ((scan.accountRows accountId stateFilter db.files).mapM File.fromRow, db)

def getFileByCloudPath (scan : Scan) (accountId : AccountId) (cloudPath : CloudPath) : DbM (Option File) := fun _ db =>
  match (scan.order db.files.rows).find? fun r => r.accountId = accountId.val ∧ r.path = cloudPath.asStr with
  | none => (.ok none, db)
  | some row => ((File.fromRow row).map some, db)

/-! ## What the rows decode to -/

/-- What a row and its decoded record share. -/
theorem File.fromRow_written {r : FileRow} (h : ∃ f : File, r = f.toRow) :
    ∃ f : File, fromRow r = .ok f ∧ f.accountId.val = r.accountId ∧ f.providerFileId.val = r.providerFileId ∧
      f.path = CloudPath.new r.path ∧ f.name = r.name ∧ stateText f.state = r.state := by
  obtain ⟨f, rfl⟩ := h
  exact ⟨f.stored, fromRow_toRow f, rfl, rfl, rfl, rfl, rfl⟩

/-- The row is that of a record which reads back as this one. -/
def File.Reads (r : FileRow) (f : File) : Prop := ∃ g : File, r = g.toRow ∧ f = g.stored

theorem File.mapM_fromRow {rows : List FileRow} (h : ∀ r ∈ rows, ∃ f : File, r = f.toRow) :
    ∃ files, rows.mapM fromRow = .ok files ∧ List.Forall₂ Reads rows files := by
  induction rows with
  | nil => exact ⟨[], rfl, .nil⟩
  | cons r rows ih =>
    obtain ⟨f, rfl⟩ := h r List.mem_cons_self
    obtain ⟨files, hfiles, hall⟩ := ih fun r' hr' => h r' (List.mem_cons_of_mem _ hr')
    refine ⟨f.stored :: files, ?_, .cons ⟨f, rfl, rfl⟩ hall⟩
    rw [List.mapM_cons, fromRow_toRow, hfiles]
    rfl

theorem Scan.mem_accountRows {scan : Scan} {account : AccountId} {t : FilesTable} {r : FileRow} :
    r ∈ scan.accountRows account none t ↔ r ∈ t.rows ∧ r.accountId = account.val := by
  unfold accountRows
  rw [List.mem_insertionSort, List.mem_filter, mem_order]
  simp only [Option.all_none, and_true, decide_eq_true_eq]

/-- An account has one row for a file id. -/
theorem Scan.accountRows_nodup (scan : Scan) (account : AccountId) (t : FilesTable) :
    ((scan.accountRows account none t).map FileRow.providerFileId).Nodup := by
  have hkeys : ((scan.accountRows account none t).map FileRow.key).Nodup := by
    refine ((List.perm_insertionSort _ _).map FileRow.key).nodup_iff.2 ?_
    refine List.Nodup.sublist (List.filter_sublist.map _) ?_
    exact ((scan.perm t.rows).map FileRow.key).nodup_iff.2 t.keysNodup
  refine List.pairwise_map.2 ((List.pairwise_map.1 hkeys).imp_of_mem fun {a b} ha hb hne hid => hne ?_)
  have hacc := (mem_accountRows.1 ha).2.trans (mem_accountRows.1 hb).2.symm
  exact Prod.ext hacc hid

/-- The records of an account are those its rows read back as, in order. -/
theorem listFiles_rows (scan : Scan) (account : AccountId) (now : DateTime) (db : Database) :
    ∃ files, listFiles scan account none now db = (.ok files, db) ∧
      List.Forall₂ File.Reads (scan.accountRows account none db.files) files := by
  have hwritten : ∀ r ∈ scan.accountRows account none db.files, ∃ f : File, r = f.toRow :=
    fun r hr => db.files.written r (Scan.mem_accountRows.1 hr).1
  obtain ⟨files, hfiles, hall⟩ := File.mapM_fromRow hwritten
  exact ⟨files, by unfold listFiles; rw [hfiles], hall⟩

end CloudSync
