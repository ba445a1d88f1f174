/-
The `vfs_inodes` table: the persistent map between inode numbers and provider file ids, and its
statements. A number is stored as the `i64` with its bits, so `MAX(inode)` compares signed; below 2^63
the two orders agree. Every statement may fail; a failed one leaves the table as it was.
-/
import CloudSync.Lib.UniqueKey
import CloudSync.Db.Files

namespace CloudSync

/-! ## Numbers as they are stored -/

/-- Below 2^63 a number is stored as itself. -/
theorem toInt_toInt64 {n : UInt64} (h : n.toNat < 2 ^ 63) : n.toInt64.toInt = n.toNat := by
  show n.toBitVec.toInt = _
  rw [BitVec.toInt_eq_toNat_of_lt]
  · rfl
  · show 2 * n.toNat < 2 ^ 64
    omega

theorem toNat_toUInt64 {v : Int64} (h : 0 ≤ v.toInt) : (v.toUInt64.toNat : Int) = v.toInt := by
  have h : 0 ≤ v.toBitVec.toInt := h
  show ((v.toBitVec.toNat : Nat) : Int) = v.toBitVec.toInt
  rw [BitVec.toInt_eq_toNat_cond] at h ⊢
  have hlt := v.toBitVec.isLt
  split at h <;> omega

theorem toInt64_inj {m n : UInt64} : m.toInt64 = n.toInt64 ↔ m = n := by
  refine ⟨fun h => ?_, congrArg _⟩
  rw [← UInt64.toUInt64_toInt64 m, h, UInt64.toUInt64_toInt64]

instance lawfulOrderMaxInt64 : Std.LawfulOrderMax Int64 := by
  have hmax : ∀ a b : Int64, max a b = if a ≤ b then b else a := fun _ _ => rfl
  refine .of_max_le_iff (fun a b c => ?_) (fun a b => ?_)
  · rw [hmax]
    simp only [Int64.le_iff_toInt_le]
    split <;> omega
  · rw [hmax]
    split
    · exact .inr rfl
    · exact .inl rfl

/-! ## The table -/

/-- A row of the `vfs_inodes` table. -/
structure InodeRow where
  inode : Int64
  fileId : Str
deriving DecidableEq

structure InodesTable where
  rows : List InodeRow
  inodesNodup : (rows.map InodeRow.inode).Nodup
  fileIdsNodup : (rows.map InodeRow.fileId).Nodup

namespace InodesTable

def empty : InodesTable where
  rows := []
  inodesNodup := List.nodup_nil
  fileIdsNodup := List.nodup_nil

/-- `INSERT INTO vfs_inodes` -/
def insert (t : InodesTable) (row : InodeRow) : Except Constraint InodesTable :=
  if h : row.inode ∈ t.rows.map InodeRow.inode ∨ row.fileId ∈ t.rows.map InodeRow.fileId then .error .unique
  else .ok {
    rows := t.rows ++ [row]
    inodesNodup := by
      rw [List.map_append]
      exact List.nodup_append_comm.1 (List.nodup_cons.2 ⟨fun hmem => h (.inl hmem), t.inodesNodup⟩)
    fileIdsNodup := by
      rw [List.map_append]
      exact List.nodup_append_comm.1 (List.nodup_cons.2 ⟨fun hmem => h (.inr hmem), t.fileIdsNodup⟩) }

/-- `DELETE FROM vfs_inodes WHERE file_id = fileId`: the number of deleted rows and the table. -/
def delete (t : InodesTable) (fileId : Str) : Nat × InodesTable :=
  (t.rows.countP (·.fileId = fileId), {
    rows := t.rows.filter (·.fileId ≠ fileId)
    inodesNodup := t.inodesNodup.sublist (List.filter_sublist.map _)
    fileIdsNodup := t.fileIdsNodup.sublist (List.filter_sublist.map _) })

/-- `SELECT … WHERE file_id = fileId` -/
def rowOf (t : InodesTable) (fileId : Str) : Option InodeRow := t.rows.find? (·.fileId = fileId)

/-- `SELECT … WHERE inode = inode` -/
def rowAt (t : InodesTable) (inode : Int64) : Option InodeRow := t.rows.find? (·.inode = inode)

/-- `SELECT MAX(inode)` -/
def max (t : InodesTable) : Option Int64 := (t.rows.map InodeRow.inode).max?

theorem rowOf_eq_some {t : InodesTable} {fileId : Str} {r : InodeRow} :
    t.rowOf fileId = some r ↔ r ∈ t.rows ∧ r.fileId = fileId := UniqueKey.find_eq_some t.fileIdsNodup

theorem rowOf_eq_none {t : InodesTable} {fileId : Str} :
    t.rowOf fileId = none ↔ fileId ∉ t.rows.map InodeRow.fileId := UniqueKey.find_eq_none

theorem rowAt_eq_some {t : InodesTable} {inode : Int64} {r : InodeRow} :
    t.rowAt inode = some r ↔ r ∈ t.rows ∧ r.inode = inode := UniqueKey.find_eq_some t.inodesNodup

theorem mem_delete {t : InodesTable} {fileId : Str} {r : InodeRow} :
    r ∈ (t.delete fileId).2.rows ↔ r ∈ t.rows ∧ r.fileId ≠ fileId := by
  unfold delete
  simp only [List.mem_filter, decide_eq_true_eq]

/-- The greatest stored number, by its sign. -/
theorem max_eq_some {t : InodesTable} {v : Int64} :
    t.max = some v ↔ (∃ r ∈ t.rows, r.inode = v) ∧ ∀ r ∈ t.rows, r.inode.toInt ≤ v.toInt := by
  unfold max
  rw [List.max?_eq_some_iff, List.mem_map]
  refine and_congr_right fun _ => ?_
  simp only [List.mem_map, forall_exists_index, and_imp, forall_apply_eq_imp_iff₂, Int64.le_iff_toInt_le]

theorem max_eq_none {t : InodesTable} : t.max = none ↔ t.rows = [] := by
  unfold max
  rw [List.max?_eq_none_iff, List.map_eq_nil_iff]

end InodesTable

/-! ## Statements -/

/-- A failure of SQLite that is no constraint violation (I/O, a full disk, a lock). -/
abbrev Fault := Option Str

def failed (message : Str) : DbError := .sqlite (.failure message)

def insertInode (fault : Fault) (inode : UInt64) (fileId : Str) (t : InodesTable) : Except DbError InodesTable :=
  match fault with
  | some message => .error (failed message)
  | none => match t.insert ⟨inode.toInt64, fileId⟩ with
    | .ok t => .ok t
    | .error _ => .error (.conflict ("Inode mapping already exists for inode ".toList ++ inode.toNat.repr.toList ++
        " or file_id ".toList ++ fileId))

def getInodeByFileId (fault : Fault) (fileId : Str) (t : InodesTable) : Except DbError (Option UInt64) :=
  match fault with
  | some message => .error (failed message)
  | none => .ok ((t.rowOf fileId).map fun r => r.inode.toUInt64)

def getFileIdByInode (fault : Fault) (inode : UInt64) (t : InodesTable) : Except DbError (Option Str) :=
  match fault with
  | some message => .error (failed message)
  | none => .ok ((t.rowAt inode.toInt64).map InodeRow.fileId)

/-- `get_or_insert_inode`, with the state its closure works on. -/
def getOrInsertInode {σ : Type} (select insert : Fault) (fileId : Str) (nextInode : σ → UInt64 × σ)
    (t : InodesTable) (s : σ) : Except DbError UInt64 × InodesTable × σ :=
  match getInodeByFileId select fileId t with
  | .error e => (.error e, t, s)
  | .ok (some inode) => (.ok inode, t, s)
  | .ok none =>
    let (inode, s) := nextInode s
    match insertInode insert inode fileId t with
    | .error e => (.error e, t, s)
    | .ok t => (.ok inode, t, s)

def getMaxInode (fault : Fault) (t : InodesTable) : Except DbError UInt64 :=
  match fault with
  | some message => .error (failed message)
  | none => .ok ((t.max.map Int64.toUInt64).getD 0)

def removeInode (fault : Fault) (fileId : Str) (t : InodesTable) : Except DbError Bool × InodesTable :=
  match fault with
  | some message => (.error (failed message), t)
  | none => (.ok (decide ((t.delete fileId).1 > 0)), (t.delete fileId).2)

/-- What `get_or_insert_inode` can do: fail before the closure runs, find the row, fail to insert the
closure's number (`taken` if a row has it), or insert it. -/
inductive GotOrInserted {σ : Type} (fileId : Str) (nextInode : σ → UInt64 × σ) (t : InodesTable) (s : σ) :
    Except DbError UInt64 × InodesTable × σ → Prop
  | unread (message : Str) : GotOrInserted fileId nextInode t s (.error (failed message), t, s)
  | found (r : InodeRow) (hr : r ∈ t.rows) (hid : r.fileId = fileId) :
      GotOrInserted fileId nextInode t s (.ok r.inode.toUInt64, t, s)
  | unwritten (message : Str) : GotOrInserted fileId nextInode t s (.error (failed message), t, (nextInode s).2)
  | taken (e : DbError) (hr : ∃ r ∈ t.rows, r.inode = (nextInode s).1.toInt64) :
      GotOrInserted fileId nextInode t s (.error e, t, (nextInode s).2)
  | inserted (t' : InodesTable) (hno : ∀ r ∈ t.rows, r.fileId ≠ fileId)
      (hrows : t'.rows = t.rows ++ [⟨(nextInode s).1.toInt64, fileId⟩]) :
      GotOrInserted fileId nextInode t s (.ok (nextInode s).1, t', (nextInode s).2)

theorem getOrInsertInode_cases {σ : Type} (select insert : Fault) (fileId : Str) (nextInode : σ → UInt64 × σ)
    (t : InodesTable) (s : σ) :
    GotOrInserted fileId nextInode t s (getOrInsertInode select insert fileId nextInode t s) := by
  unfold getOrInsertInode getInodeByFileId
  cases select with
  | some message => exact .unread message
  | none =>
    cases hrow : t.rowOf fileId with
    | some r =>
      obtain ⟨hr, hid⟩ := InodesTable.rowOf_eq_some.1 hrow
      exact .found r hr hid
    | none =>
      have hno := InodesTable.rowOf_eq_none.1 hrow
      simp only [Option.map_none, insertInode]
      cases insert with
      | some message => exact .unwritten message
      | none =>
        simp only [InodesTable.insert]
        by_cases htaken : (nextInode s).1.toInt64 ∈ t.rows.map InodeRow.inode
        · rw [dif_pos (.inl htaken)]
          exact .taken _ (List.mem_map.1 htaken)
        · rw [dif_neg (fun h => h.elim htaken hno)]
          exact .inserted _ (fun r hr hid => hno (List.mem_map.2 ⟨r, hr, hid⟩)) rfl

section

variable {σ : Type} {fileId : Str} {nextInode : σ → UInt64 × σ} {t : InodesTable} {s : σ}

/-- A call fails with a conflict exactly when the file has no row and the closure's number has one. -/
theorem getOrInsertInode_conflict {select insert : Fault} :
    (∃ message, (getOrInsertInode select insert fileId nextInode t s).1 = .error (.conflict message)) ↔
      select = none ∧ insert = none ∧ (∀ r ∈ t.rows, r.fileId ≠ fileId) ∧
        ∃ r ∈ t.rows, r.inode = (nextInode s).1.toInt64 := by
  unfold getOrInsertInode getInodeByFileId
  cases select with
  | some message =>
    refine iff_of_false ?_ fun h => by cases h.1
    rintro ⟨_, h⟩
    cases h
  | none =>
    cases hrow : t.rowOf fileId with
    | some r =>
      obtain ⟨hr, hid⟩ := InodesTable.rowOf_eq_some.1 hrow
      refine iff_of_false ?_ fun h => h.2.2.1 r hr hid
      rintro ⟨_, h⟩
      cases h
    | none =>
      have hno := InodesTable.rowOf_eq_none.1 hrow
      have hrows : ∀ r ∈ t.rows, r.fileId ≠ fileId := fun r hr hid => hno (List.mem_map.2 ⟨r, hr, hid⟩)
      simp only [Option.map_none, insertInode]
      cases insert with
      | some message =>
        refine iff_of_false ?_ fun h => by cases h.2.1
        rintro ⟨_, h⟩
        cases h
      | none =>
        simp only [InodesTable.insert]
        by_cases htaken : (nextInode s).1.toInt64 ∈ t.rows.map InodeRow.inode
        · rw [dif_pos (.inl htaken)]
          exact iff_of_true ⟨_, rfl⟩ ⟨trivial, trivial, hrows, List.mem_map.1 htaken⟩
        · rw [dif_neg (fun h => h.elim htaken hno)]
          refine iff_of_false ?_ fun h => htaken (List.mem_map.2 h.2.2.2)
          rintro ⟨_, h⟩
          cases h

theorem GotOrInserted.rows_subset {r : Except DbError UInt64 × InodesTable × σ}
    (h : GotOrInserted fileId nextInode t s r) : t.rows ⊆ r.2.1.rows := by
  cases h with
  | unread | found | unwritten | taken => exact fun r hr => hr
  | inserted t' hno hrows => exact hrows ▸ List.subset_append_left _ _

end

end CloudSync
