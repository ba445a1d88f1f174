/-
The `files` table: the `File` record, its columns, and the SQL statements over the table. A row
keeps the columns as SQLite stores them; `File.toRow` and `File.fromRow` are the codec between
records and rows. A `FilesTable` carries what the schema and its only writers guarantee: unique
ids below the AUTOINCREMENT counter, unique (account, provider file id) pairs, and rows that are
the columns of some record, as `create_file` and `update_file` write them.
-/
import CloudSync.Lib.UniqueKey
import CloudSync.Core.Types

namespace CloudSync

/-! ## Errors -/

/-- The constraints of the schema. SQLite reports each of them as `ConstraintViolation`. -/
inductive Constraint
  | unique
  | check
  | foreignKey
deriving DecidableEq

/-- The `rusqlite` errors: `failure` is any other failure of SQLite (I/O, a full disk, a lock). -/
inductive SqliteError
  | constraintViolation (c : Constraint)
  | invalidQuery
  | failure (message : Str)
deriving DecidableEq

inductive DbError
  | notFound (message : Str)
  | conflict (message : Str)
  | query (message : Str)
  | sqlite (e : SqliteError)
  | migration (message : Str)
deriving DecidableEq

/-- How a database call ends without a value: an error value, or a panic. -/
inductive Abort
  | err (e : DbError)
  | panic
deriving DecidableEq

/-- `Option::unwrap` -/
def unwrap {α : Type} : Option α → Except Abort α
  | some a => .ok a
  | none => .error .panic

/-! ## Records and rows -/

/-- A cloud-synced file stored in the database. -/
structure File where
  id : Int
  accountId : AccountId
  providerFileId : FileId
  path : CloudPath
  name : Str
  size : Option UInt64
  contentHash : Option Str
  isFolder : Bool
  state : FileState
  modifiedAt : DateTime
  syncedAt : Option DateTime
  createdAt : DateTime
  updatedAt : DateTime
deriving DecidableEq

/-- A row of the `files` table. -/
structure FileRow where
  id : Int
  accountId : Str
  providerFileId : Str
  path : Str
  name : Str
  size : Option Int64
  contentHash : Option Str
  isFolder : Int
  state : Str
  modifiedAt : Int
  syncedAt : Option Int
  createdAt : Int
  updatedAt : Int
deriving DecidableEq

/-- The columns of `UNIQUE(account_id, provider_file_id)`. -/
def FileRow.key (r : FileRow) : Str × Str := (r.accountId, r.providerFileId)

/-- The state texts of `create_file`, `update_file` and `list_files`. -/
def stateText : FileState → Str
  | .synced => "synced".toList
  | .cloudOnly => "cloud_only".toList
  | .syncing => "syncing".toList
  | .pending => "pending".toList
  | .error => "error".toList
  | .excluded => "excluded".toList
  | .offlineModified => "offline_modified".toList
  | .conflict => "conflict".toList

/-- The state texts `File::from_row` reads. -/
def stateOfText (s : Str) : Option FileState :=
  if s = "synced".toList then some .synced
  else if s = "cloud_only".toList then some .cloudOnly
  else if s = "syncing".toList then some .syncing
  else if s = "pending".toList then some .pending
  else if s = "error".toList then some .error
  else if s = "excluded".toList then some .excluded
  else if s = "offline_modified".toList then some .offlineModified
  else if s = "conflict".toList then some .conflict
  else none

/-- The state texts of the CHECK constraint. -/
def checkedStates : List Str :=
  ["synced".toList, "cloud_only".toList, "syncing".toList, "pending".toList,
   "error".toList, "excluded".toList, "offline_modified".toList, "conflict".toList]

/-- The four tables of state texts agree. -/
@[simp] theorem stateOfText_stateText (s : FileState) : stateOfText (stateText s) = some s := by
  cases s <;> decide

theorem stateText_inj {a b : FileState} (h : stateText a = stateText b) : a = b := by
  have := congrArg stateOfText h
  rwa [stateOfText_stateText, stateOfText_stateText, Option.some.injEq] at this

theorem stateText_checked (s : FileState) : stateText s ∈ checkedStates := by
  cases s <;> decide

namespace File

/-- `File::new`: no id yet, both record timestamps are now. -/
def new (now : DateTime) (accountId : AccountId) (providerFileId : FileId) (path : CloudPath) (name : Str)
    (size : Option UInt64) (contentHash : Option Str) (isFolder : Bool) (modifiedAt : DateTime) : File where
  id := 0
  accountId := accountId
  providerFileId := providerFileId
  path := path
  name := name
  size := size
  contentHash := contentHash
  isFolder := isFolder
  state := .pending
  modifiedAt := modifiedAt
  syncedAt := none
  createdAt := now
  updatedAt := now

/-- The columns `create_file` and `update_file` bind. -/
def toRow (f : File) : FileRow where
  id := f.id
  accountId := f.accountId.val
  providerFileId := f.providerFileId.val
  path := f.path.asStr
  name := f.name
  size := f.size.map UInt64.toInt64
  contentHash := f.contentHash
  isFolder := if f.isFolder then 1 else 0
  state := stateText f.state
  modifiedAt := f.modifiedAt.timestamp
  syncedAt := f.syncedAt.map DateTime.timestamp
  createdAt := f.createdAt.timestamp
  updatedAt := f.updatedAt.timestamp

def fromRow (row : FileRow) : Except Abort File := do
  let state ← match stateOfText row.state with
    | some state => pure state
    | none => throw (.err (.sqlite .invalidQuery))
  -- a timestamp out of chrono's range panics, except `synced_at`, which is then read as absent
  let modifiedAt ← unwrap (DateTime.fromTimestamp row.modifiedAt)
  let createdAt ← unwrap (DateTime.fromTimestamp row.createdAt)
  let updatedAt ← unwrap (DateTime.fromTimestamp row.updatedAt)
  pure {
    id := row.id
    accountId := ⟨row.accountId⟩
    providerFileId := ⟨row.providerFileId⟩
    path := CloudPath.new row.path
    name := row.name
    size := row.size.map Int64.toUInt64
    contentHash := row.contentHash
    isFolder := row.isFolder != 0
    state := state
    modifiedAt := modifiedAt
    syncedAt := row.syncedAt.bind DateTime.fromTimestamp
    createdAt := createdAt
    updatedAt := updatedAt }

/-- The record a stored file reads back as: its path through `CloudPath::new`, its timestamps
rounded down to seconds. -/
def stored (f : File) : File :=
  { f with
    path := CloudPath.new f.path.asStr
    modifiedAt := f.modifiedAt.floor
    syncedAt := f.syncedAt.map DateTime.floor
    createdAt := f.createdAt.floor
    updatedAt := f.updatedAt.floor }

/-! A size, a flag and an optional time through their columns. -/

theorem size_column (size : Option UInt64) : (size.map UInt64.toInt64).map Int64.toUInt64 = size := by
  cases size <;> simp

theorem folder_column (isFolder : Bool) : ((if isFolder then 1 else 0 : Int) != 0) = isFolder := by
  cases isFolder <;> rfl

theorem synced_column (syncedAt : Option DateTime) :
    (syncedAt.map DateTime.floor).map DateTime.timestamp = syncedAt.map DateTime.timestamp := by
  cases syncedAt <;> simp

/-- Decoding the columns of a record never fails and never panics. -/
theorem fromRow_toRow (f : File) : fromRow f.toRow = .ok f.stored := by
  have hsync : (f.syncedAt.map DateTime.timestamp).bind DateTime.fromTimestamp = f.syncedAt.map DateTime.floor := by
    cases f.syncedAt <;> simp
  simp only [fromRow, toRow, stateOfText_stateText, DateTime.fromTimestamp_timestamp, unwrap, size_column, hsync,
    folder_column]
  rfl

/-- Encoding what was decoded gives the same columns, with the path through `CloudPath::new`. -/
theorem stored_toRow (f : File) : f.stored.toRow = { f.toRow with path := (CloudPath.new f.path.asStr).text } := by
  unfold stored toRow
  simp only [DateTime.timestamp_floor, synced_column]
  rfl

end File

/-! ## The table -/

structure FilesTable where
  rows : List FileRow
  seq : Int
  idsBelow : ∀ r ∈ rows, r.id ≤ seq
  idsNodup : (rows.map FileRow.id).Nodup
  keysNodup : (rows.map FileRow.key).Nodup
  written : ∀ r ∈ rows, ∃ f : File, r = f.toRow

namespace FilesTable

def empty : FilesTable where
  rows := []
  seq := 0
  idsBelow := by simp
  idsNodup := by simp
  keysNodup := by simp
  written := by simp

/-- The effect of `UPDATE files SET … WHERE id = f.id` on one row: every column but `id` and
`created_at`. -/
def assign (f : File) (r : FileRow) : FileRow :=
  if r.id = f.id then { f.toRow with createdAt := r.createdAt } else r

/-- `INSERT INTO files`: the id of the new row and the table. -/
def insert (t : FilesTable) (f : File) : Except Constraint (Int × FilesTable) :=
  if stateText f.state ∉ checkedStates then .error .check
  else if hkey : f.toRow.key ∈ t.rows.map FileRow.key then .error .unique
  -- AUTOINCREMENT: the id of a deleted row is not given again
  else .ok (t.seq + 1, {
    rows := t.rows ++ [{ f with id := t.seq + 1 }.toRow]
    seq := t.seq + 1
    idsBelow := by
      intro r hr
      rcases List.mem_append.1 hr with hr | hr
      · have := t.idsBelow r hr; omega
      · rw [List.mem_singleton.1 hr]; exact le_refl _
    idsNodup := by
      rw [List.map_append, List.nodup_append]
      refine ⟨t.idsNodup, List.nodup_singleton _, fun a ha b hb hab => ?_⟩
      obtain ⟨r, hr, rfl⟩ := List.mem_map.1 ha
      have hle := t.idsBelow r hr
      have hb : b = t.seq + 1 := List.mem_singleton.1 hb
      omega
    keysNodup := by
      rw [List.map_append, List.nodup_append]
      refine ⟨t.keysNodup, List.nodup_singleton _, fun a ha b hb hab => hkey ?_⟩
      have hb : b = f.toRow.key := List.mem_singleton.1 hb
      rw [← hb, ← hab]; exact ha
    written := by
      intro r hr
      rcases List.mem_append.1 hr with hr | hr
      · exact t.written r hr
      · exact ⟨_, List.mem_singleton.1 hr⟩ })

/-- `UPDATE files SET … WHERE id = f.id`: the number of changed rows and the table. -/
def update (t : FilesTable) (f : File) : Except Constraint (Nat × FilesTable) :=
  if f.id ∉ t.rows.map FileRow.id then .ok (0, t)
  else if stateText f.state ∉ checkedStates then .error .check
  else if hkey : ∃ r ∈ t.rows, r.id ≠ f.id ∧ r.key = f.toRow.key then .error .unique
  else .ok (1, {
    rows := t.rows.map (assign f)
    seq := t.seq
    idsBelow := by
      intro r hr
      obtain ⟨r₀, hr₀, rfl⟩ := List.mem_map.1 hr
      have hle := t.idsBelow r₀ hr₀
      unfold assign; split
      · rename_i hid; rw [hid] at hle; exact hle
      · exact hle
    idsNodup := by
      have hid : FileRow.id ∘ assign f = FileRow.id := by
        funext r
        show (assign f r).id = r.id
        unfold assign; split
        · rename_i hid; exact hid.symm
        · rfl
      rw [List.map_map, hid]; exact t.idsNodup
    keysNodup := by
      -- of two rows at most one has the updated id, and no other row has its new key
      have hids := List.pairwise_map.1 t.idsNodup
      have hkeys := List.pairwise_map.1 t.keysNodup
      rw [List.map_map]
      refine List.pairwise_map.2 ((hids.and hkeys).imp_of_mem fun {a b} ha hb hab => ?_)
      show (assign f a).key ≠ (assign f b).key
      unfold assign
      split <;> split
      · rename_i ha' hb'; exact absurd (ha'.trans hb'.symm) hab.1
      · rename_i hb'; exact fun h => hkey ⟨b, hb, hb', h.symm⟩
      · rename_i ha' _; exact fun h => hkey ⟨a, ha, ha', h⟩
      · exact hab.2
    written := by
      intro r hr
      obtain ⟨r₀, hr₀, rfl⟩ := List.mem_map.1 hr
      obtain ⟨g, rfl⟩ := t.written r₀ hr₀
      unfold assign; split
      · exact ⟨{ f with createdAt := g.createdAt }, rfl⟩
      · exact ⟨g, rfl⟩ })

/-- `DELETE FROM files WHERE id = id`: the number of deleted rows and the table. -/
def delete (t : FilesTable) (id : Int) : Nat × FilesTable :=
  (t.rows.countP (·.id = id), {
    rows := t.rows.filter (·.id ≠ id)
    seq := t.seq
    idsBelow := fun r hr => t.idsBelow r (List.mem_filter.1 hr).1
    idsNodup := t.idsNodup.sublist (List.filter_sublist.map _)
    keysNodup := t.keysNodup.sublist (List.filter_sublist.map _)
    written := fun r hr => t.written r (List.mem_filter.1 hr).1 })

/-- `SELECT … WHERE account_id = … AND provider_file_id = …`, the first row. -/
def rowAt (t : FilesTable) (key : Str × Str) : Option FileRow := t.rows.find? (·.key = key)

/-! ## Lookup -/

theorem rowAt_eq_some {t : FilesTable} {key : Str × Str} {r : FileRow} :
    t.rowAt key = some r ↔ r ∈ t.rows ∧ r.key = key := UniqueKey.find_eq_some t.keysNodup

theorem rowAt_eq_none {t : FilesTable} {key : Str × Str} :
    t.rowAt key = none ↔ key ∉ t.rows.map FileRow.key := UniqueKey.find_eq_none

/-- A row is the one its id names. -/
theorem eq_of_id {t : FilesTable} {r r' : FileRow} (hr : r ∈ t.rows) (hr' : r' ∈ t.rows) (h : r.id = r'.id) :
    r = r' := List.inj_on_of_nodup_map t.idsNodup hr hr' h

/-- Two tables with the same rows at every key hold the same rows. -/
theorem mem_iff_rowAt {t : FilesTable} {r : FileRow} : r ∈ t.rows ↔ t.rowAt r.key = some r := by
  rw [rowAt_eq_some]; exact ⟨fun h => ⟨h, rfl⟩, And.left⟩

/-! ## What each statement does to the rows -/

/-- An insert of a new key adds its row and changes no other. -/
theorem insert_spec {t : FilesTable} {f : File} (hnew : t.rowAt f.toRow.key = none) :
    ∃ t', t.insert f = .ok (t.seq + 1, t') ∧ t'.seq = t.seq + 1 ∧
      t'.rows = t.rows ++ [{ f with id := t.seq + 1 }.toRow] ∧
      t'.rowAt = Function.update t.rowAt f.toRow.key (some { f with id := t.seq + 1 }.toRow) := by
  have hkey := rowAt_eq_none.1 hnew
  unfold insert
  rw [if_neg (not_not.2 (stateText_checked _)), dif_neg hkey]
  refine ⟨_, rfl, rfl, rfl, ?_⟩
  funext k
  by_cases hk : k = f.toRow.key
  · subst hk
    rw [Function.update_self, rowAt_eq_some]
    exact ⟨List.mem_append_right _ (List.mem_singleton_self _), rfl⟩
  · have hne : ¬ ({ f with id := t.seq + 1 }.toRow).key = k := fun h => hk (h ▸ rfl)
    rw [Function.update_of_ne hk]
    simp [rowAt, List.find?_append, hne]

/-- An insert of a key that is there is refused. -/
theorem insert_duplicate {t : FilesTable} {f : File} {r : FileRow} (h : t.rowAt f.toRow.key = some r) :
    t.insert f = .error .unique := by
  obtain ⟨hr, hk⟩ := rowAt_eq_some.1 h
  unfold insert
  rw [if_neg (not_not.2 (stateText_checked _)), dif_pos (hk ▸ List.mem_map_of_mem hr)]

/-- An update of a row that keeps its key replaces that row and changes no other. -/
theorem update_spec {t : FilesTable} {f : File} {r : FileRow} (hr : t.rowAt f.toRow.key = some r) (hid : r.id = f.id) :
    ∃ t', t.update f = .ok (1, t') ∧ t'.seq = t.seq ∧ t'.rows = t.rows.map (assign f) ∧
      t'.rowAt = Function.update t.rowAt f.toRow.key (some { f.toRow with createdAt := r.createdAt }) := by
  obtain ⟨hmem, hkey⟩ := rowAt_eq_some.1 hr
  have hin : f.id ∈ t.rows.map FileRow.id := hid ▸ List.mem_map_of_mem hmem
  have hno : ¬ ∃ x ∈ t.rows, x.id ≠ f.id ∧ x.key = f.toRow.key := by
    rintro ⟨x, hx, hne, hxk⟩
    have := List.inj_on_of_nodup_map t.keysNodup hx hmem (hxk.trans hkey.symm)
    exact hne (this ▸ hid)
  unfold update
  rw [if_neg (not_not.2 hin), if_neg (not_not.2 (stateText_checked _)), dif_neg hno]
  refine ⟨_, rfl, rfl, rfl, ?_⟩
  have hself : assign f r = { f.toRow with createdAt := r.createdAt } := by rw [assign, if_pos hid]
  funext k
  by_cases hk : k = f.toRow.key
  · subst hk
    rw [Function.update_self, rowAt_eq_some, ← hself]
    exact ⟨List.mem_map_of_mem hmem, by rw [hself]; rfl⟩
  · rw [Function.update_of_ne hk]
    have hother : ∀ x ∈ t.rows, x.key = k → assign f x = x := by
      intro x hx hxk
      rw [assign, if_neg]
      intro hxid
      exact hk (by rw [← hxk, eq_of_id hx hmem (hxid.trans hid.symm), hkey])
    apply Option.ext
    intro y
    simp only [rowAt_eq_some]
    constructor
    · rintro ⟨hy, hyk⟩
      obtain ⟨x, hx, rfl⟩ := List.mem_map.1 hy
      by_cases hxid : x.id = f.id
      · rw [assign, if_pos hxid] at hyk
        exact absurd hyk.symm hk
      · rw [assign, if_neg hxid] at hyk ⊢
        exact ⟨hx, hyk⟩
    · rintro ⟨hy, hyk⟩
      exact ⟨List.mem_map.2 ⟨y, hy, hother y hy hyk⟩, hyk⟩

/-- A delete of a row removes it and no other. -/
theorem delete_spec {t : FilesTable} {key : Str × Str} {r : FileRow} (hr : t.rowAt key = some r) :
    (t.delete r.id).2.seq = t.seq ∧ (t.delete r.id).2.rows = t.rows.filter (·.id ≠ r.id) ∧
      (t.delete r.id).2.rowAt = Function.update t.rowAt key none := by
  obtain ⟨hmem, hkey⟩ := rowAt_eq_some.1 hr
  refine ⟨rfl, rfl, ?_⟩
  funext k
  apply Option.ext
  intro y
  by_cases hk : k = key
  · subst hk
    rw [Function.update_self, rowAt_eq_some]
    constructor
    · rintro ⟨hy, hyk⟩
      obtain ⟨hy, hne⟩ := List.mem_filter.1 hy
      have := List.inj_on_of_nodup_map t.keysNodup hy hmem (hyk.trans hkey.symm)
      exact absurd (congrArg FileRow.id this) (by simpa using hne)
    · rintro ⟨⟩
  · rw [Function.update_of_ne hk, rowAt_eq_some, rowAt_eq_some]
    constructor
    · rintro ⟨hy, hyk⟩
      exact ⟨(List.mem_filter.1 hy).1, hyk⟩
    · rintro ⟨hy, hyk⟩
      refine ⟨List.mem_filter.2 ⟨hy, ?_⟩, hyk⟩
      have hne : y.id ≠ r.id := fun h => hk (by rw [← hyk, eq_of_id hy hmem h, hkey])
      simpa using hne

end FilesTable

end CloudSync
