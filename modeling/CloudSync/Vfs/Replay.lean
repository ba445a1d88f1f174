/-
What metadata sync does to the rows of its account, as the replay of a keyed log: an upserted item
sets its id, a deleted file erases its id. `Replayed` relates a database to the one a log leaves;
each section of the syncer replays its own entry, and logs compose.
-/
import CloudSync.Vfs.MetadataSync

namespace CloudSync

open KeyedLog (Entry Cell)
open Prog (Triple)

/-! ## The view of a row -/

/-- The columns metadata sync writes. -/
structure Metadata where
  name : Str
  path : Str
  size : Option UInt64
  contentHash : Option Str
  isFolder : Bool
  modifiedAt : Int
deriving DecidableEq

/-- The metadata of an item as it is stored: its modification time in seconds. -/
def CloudItem.metadata (item : CloudItem) : Metadata where
  name := item.name
  path := item.path.asStr
  size := item.size
  contentHash := item.contentHash
  isFolder := item.isFolder
  modifiedAt := item.modified.timestamp

def FileRow.metadata (r : FileRow) : Metadata where
  name := r.name
  path := r.path
  size := r.size.map Int64.toUInt64
  contentHash := r.contentHash
  isFolder := r.isFolder != 0
  modifiedAt := r.modifiedAt

/-- A row without its id and its record timestamps. -/
structure RowState where
  metadata : Metadata
  state : Str
  syncedAt : Option Int
deriving DecidableEq

def FileRow.rowState (r : FileRow) : RowState := ⟨r.metadata, r.state, r.syncedAt⟩

/-- An upsert stores an unknown item as cloud-only and never synced, and keeps state and sync time
of a known one. -/
def rowCell : Cell Metadata RowState where
  fresh m := ⟨m, stateText .cloudOnly, none⟩
  revise m s := { s with metadata := m }
  revise_fresh _ _ := rfl
  revise_revise _ _ _ := rfl

/-- The entry of an upserted item. -/
def CloudItem.entry (item : CloudItem) : Entry FileId Metadata := .set item.id item.metadata

/-- The entry of a change: a deleted file is erased, an item is set, and a change with neither does
nothing. -/
def Change.entry (change : Change) : Entry FileId Metadata :=
  if change.deleted then .erase change.fileId
  else match change.item with
    | some item => item.entry
    | none => .skip

/-- The rows of an account by provider file id. -/
def Database.rowStates (db : Database) (account : AccountId) : FileId → Option RowState :=
  fun id => (db.rowOf account id).map FileRow.rowState

def Database.metadataOf (db : Database) (account : AccountId) : FileId → Option Metadata :=
  fun id => (db.rowOf account id).map FileRow.metadata

theorem File.rowState_toRow (f : File) : f.toRow.rowState =
    ⟨⟨f.name, f.path.asStr, f.size, f.contentHash, f.isFolder, f.modifiedAt.timestamp⟩,
      stateText f.state, f.syncedAt.map DateTime.timestamp⟩ := by
  show RowState.mk ⟨f.name, f.path.asStr, (f.size.map UInt64.toInt64).map Int64.toUInt64, f.contentHash,
    (if f.isFolder then 1 else 0 : Int) != 0, f.modifiedAt.timestamp⟩ _ _ = _
  rw [File.size_column, File.folder_column]; rfl

/-! ## Logs between databases -/

/-- `db'` is `db` after the log of an account. -/
structure Replayed (account : AccountId) (log : List (Entry FileId Metadata)) (db db' : Database) : Prop where
  rows : db'.rowStates account = rowCell.replay (db.rowStates account) log
  kept : ∀ id r, db.rowOf account id = some r → (∀ e ∈ log, e ≠ .erase id) →
    ∃ r', db'.rowOf account id = some r' ∧ r'.id = r.id ∧ r'.createdAt = r.createdAt
  others : ∀ key : Str × Str, key.1 ≠ account.val → db'.files.rowAt key = db.files.rowAt key
  accounts : db'.accounts = db.accounts

namespace Replayed

variable {account : AccountId} {log log₁ log₂ : List (Entry FileId Metadata)} {db db₁ db₂ : Database}

theorem refl (account : AccountId) (db : Database) : Replayed account [] db db :=
  ⟨rfl, fun _ r hr _ => ⟨r, hr, rfl, rfl⟩, fun _ _ => rfl, rfl⟩

theorem trans (h₁ : Replayed account log₁ db db₁) (h₂ : Replayed account log₂ db₁ db₂) :
    Replayed account (log₁ ++ log₂) db db₂ := by
  refine ⟨by rw [h₂.rows, h₁.rows, Cell.replay_append], fun id r hr hno => ?_,
    fun key hkey => (h₂.others key hkey).trans (h₁.others key hkey), h₂.accounts.trans h₁.accounts⟩
  obtain ⟨r₁, hr₁, hid₁, hc₁⟩ := h₁.kept id r hr fun e he => hno e (List.mem_append_left _ he)
  obtain ⟨r₂, hr₂, hid₂, hc₂⟩ := h₂.kept id r₁ hr₁ fun e he => hno e (List.mem_append_right _ he)
  exact ⟨r₂, hr₂, hid₂.trans hid₁, hc₂.trans hc₁⟩

/-- A call that leaves the files and the accounts alone replays nothing. -/
theorem of_files (hf : db₁.files = db.files) (ha : db₁.accounts = db.accounts) : Replayed account [] db db₁ := by
  refine ⟨?_, fun id r hr _ => ⟨r, ?_, rfl, rfl⟩, fun key _ => by rw [hf], ha⟩
  · funext id; unfold Database.rowStates Database.rowOf; rw [hf]; rfl
  · unfold Database.rowOf at hr ⊢; rw [hf]; exact hr

/-- The metadata of the rows is the plain replay of the log: every id holds what was set last. -/
theorem metadata (h : Replayed account log db db₁) :
    db₁.metadataOf account = (Cell.plain Metadata).replay (db.metadataOf account) log := by
  have hmap : ∀ d : Database, d.metadataOf account = fun id => (d.rowStates account id).map RowState.metadata := by
    intro d; funext id
    unfold Database.metadataOf Database.rowStates
    cases d.rowOf account id <;> rfl
  rw [hmap, hmap]
  funext id
  rw [h.rows, Cell.replay_eq, Cell.replay_eq]
  cases KeyedLog.summary id log <;> cases db.rowStates account id <;> rfl

/-- A single statement on the row of a file replays the entry that says the same. -/
theorem of_sets {id : FileId} {row : Option FileRow} {e : Entry FileId Metadata}
    (h : db.Sets (account.val, id.val) row db₁)
    (hself : row.map FileRow.rowState = rowCell.actAt id (db.rowStates account id) e)
    (hother : ∀ k, k ≠ id → ∀ x, rowCell.actAt k x e = x)
    (hkept : ∀ r, db.rowOf account id = some r → e ≠ .erase id →
      ∃ r', row = some r' ∧ r'.id = r.id ∧ r'.createdAt = r.createdAt) :
    Replayed account [e] db db₁ := by
  have hrow : ∀ k, db₁.rowOf account k = if k = id then row else db.rowOf account k := by
    intro k
    unfold Database.rowOf
    rw [h.rows]
    by_cases hk : k = id
    · subst hk; simp
    -- rows of other files have other keys
    · have hne : (account.val, k.val) ≠ (account.val, id.val) := by
        intro heq
        cases k; cases id
        exact hk (congrArg FileId.mk (Prod.mk.inj heq).2)
      rw [Function.update_of_ne hne, if_neg hk]
  refine ⟨?_, ?_, ?_, h.accounts⟩
  · funext k
    show (db₁.rowOf account k).map FileRow.rowState = rowCell.actAt k (db.rowStates account k) e
    rw [hrow]
    by_cases hk : k = id
    · subst hk; rw [if_pos rfl]; exact hself
    · rw [if_neg hk, hother k hk]; rfl
  · intro k r hr hno
    rw [hrow]
    by_cases hk : k = id
    · subst hk; rw [if_pos rfl]; exact hkept r hr (hno e (List.mem_singleton_self e))
    · rw [if_neg hk]; exact ⟨r, hr, rfl, rfl⟩
  · intro key hkey
    rw [h.rows, Function.update_of_ne]
    rintro rfl; exact hkey rfl

end Replayed

/-! ## The sections -/

/-- An upsert of a known account always succeeds and replays its item. -/
theorem upsertSection_spec {db : Database} {account : AccountId} (item : CloudItem) (now : DateTime)
    (hacc : account ∈ db.accounts) :
    ∃ db', upsertSection account item now db = (.ok (), db') ∧ db'.cursors = db.cursors ∧
      Replayed account [item.entry] db db' := by
  have hother : ∀ k, k ≠ item.id → ∀ x, rowCell.actAt k x item.entry = x := by
    intro k hk x
    show (if item.id = k then _ else x) = x
    rw [if_neg (Ne.symm hk)]
  unfold upsertSection
  cases hrow : db.rowOf account item.id with
  | none =>
    rw [DbM.bind_ok (getFileByProviderId_none now hrow)]
    obtain ⟨db', hdb', hsets⟩ := createFile_spec (cloudItemToDbFile now account item) now hrow hacc
    have hsets : db.Sets (account.val, item.id.val) _ db' := hsets
    refine ⟨db', DbM.bind_ok (a := db.files.seq + 1) hdb', hsets.cursors, Replayed.of_sets hsets ?_ hother
      fun r hr => ?_⟩
    · show some _ = (if item.id = item.id then rowCell.write item.metadata (db.rowStates account item.id) else _)
      rw [if_pos rfl, File.rowState_toRow]
      unfold Database.rowStates
      rw [hrow]; rfl
    · exact absurd (hr.symm.trans hrow) (Option.some_ne_none r)
  | some r =>
    obtain ⟨g, rfl, rfl, hgid, -⟩ := Database.rowOf_written hrow
    rw [DbM.bind_ok (getFileByProviderId_some now hrow)]
    obtain ⟨db', hdb', hsets⟩ := updateFile_spec (g := g) (f := { g.stored with
      name := item.name, path := item.path, size := item.size, contentHash := item.contentHash,
      isFolder := item.isFolder, modifiedAt := item.modified }) now (hgid ▸ hrow) rfl rfl rfl
    have hkey : g.toRow.key = (g.accountId.val, item.id.val) := by rw [← hgid]; rfl
    rw [hkey] at hsets
    refine ⟨db', DbM.bind_ok (a := true) hdb', hsets.cursors, Replayed.of_sets hsets ?_ hother fun r hr _ => ?_⟩
    · show some _ = (if item.id = item.id then rowCell.write item.metadata (db.rowStates g.accountId item.id) else _)
      rw [if_pos rfl, File.rowState_toRow]
      unfold Database.rowStates
      rw [hrow, Option.map_some, File.rowState_toRow]
      have hsync : (g.syncedAt.map DateTime.floor).map DateTime.timestamp = g.syncedAt.map DateTime.timestamp := by
        cases g.syncedAt <;> rfl
      show some (RowState.mk _ _ ((g.syncedAt.map DateTime.floor).map DateTime.timestamp)) = _
      rw [hsync]; rfl
    · rw [hrow] at hr; cases hr
      exact ⟨_, rfl, rfl, rfl⟩

/-- A delete always succeeds and erases its file id. -/
theorem deleteSection_spec {db : Database} {account : AccountId} (id : FileId) (now : DateTime) :
    ∃ db', deleteSection account id now db = (.ok (), db') ∧ db'.cursors = db.cursors ∧
      Replayed account [.erase id] db db' := by
  have hother : ∀ k, k ≠ id → ∀ x, rowCell.actAt k x (.erase id) = x := by
    intro k hk x
    show (if id = k then none else x) = x
    rw [if_neg (Ne.symm hk)]
  have hself : rowCell.actAt id (db.rowStates account id) (.erase id) = none := by
    show (if id = id then none else _) = none
    rw [if_pos rfl]
  unfold deleteSection
  cases hrow : db.rowOf account id with
  | none =>
    rw [DbM.bind_ok (getFileByProviderId_none now hrow)]
    have hsets : db.Sets (account.val, id.val) none db :=
      ⟨(Function.update_eq_self_iff.2 hrow.symm).symm, rfl, rfl⟩
    refine ⟨db, rfl, rfl, Replayed.of_sets hsets hself.symm hother fun r hr => ?_⟩
    · rw [hrow] at hr; cases hr
  | some r =>
    obtain ⟨g, rfl, -, -, -⟩ := Database.rowOf_written hrow
    rw [DbM.bind_ok (getFileByProviderId_some now hrow)]
    obtain ⟨db', hdb', hsets⟩ := deleteFile_spec now hrow
    exact ⟨db', DbM.bind_ok (a := true) hdb', hsets.cursors,
      Replayed.of_sets hsets hself.symm hother fun r _ hno => absurd rfl hno⟩

end CloudSync
