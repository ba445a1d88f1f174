/-
Metadata sync and downloads on one row. An upsert writes the metadata columns, the cache the state or the sync time;
each section reads the row, and writes back every column under the same lock. So of two sequences of sections, run
in any interleaving, each leaves its own columns.
-/
import CloudSync.Lib.LastWrite
import CloudSync.Vfs.CacheContent

namespace CloudSync

open LastWrite (last last_concat last_map foldl_field Interleaves)
open ContentCache (editSection fileStateSection syncedAtSection editSection_spec)

/-- A section of the content cache. -/
inductive StatusWrite
  | state (state : FileState)
  | syncedAt
deriving DecidableEq

/-- A section on the row of a file, at its instant: an upsert of metadata sync, or one of the cache. -/
abbrev RowWrite := (DateTime × CloudItem) ⊕ (DateTime × StatusWrite)

namespace RowWrite

/-! ## Sections -/

def run (accountId : AccountId) (fileId : FileId) (db : Database) : RowWrite → Except Abort Unit × Database
  | .inl (now, item) => upsertSection accountId item now db
  | .inr (now, .state state) => fileStateSection accountId fileId state now db
  | .inr (now, .syncedAt) => syncedAtSection accountId fileId now db

/-- Sections one after another; nothing when one of them fails. -/
def runAll (accountId : AccountId) (fileId : FileId) (db : Database) (ws : List RowWrite) : Option Database :=
  ws.foldlM (fun db w => match w.run accountId fileId db with
    | (.ok _, db') => some db'
    | (.error _, _) => none) db

/-- What a section does to the row. -/
def onRow (r : FileRow) : RowWrite → FileRow
  | .inl (now, item) => { r with
      name := item.name
      path := item.path.asStr
      size := item.size.map UInt64.toInt64
      contentHash := item.contentHash
      isFolder := if item.isFolder then 1 else 0
      modifiedAt := item.modified.timestamp
      updatedAt := now.timestamp }
  | .inr (now, .state state) => { r with
      path := (CloudPath.new r.path).text
      state := stateText state
      updatedAt := now.timestamp }
  | .inr (now, .syncedAt) => { r with
      path := (CloudPath.new r.path).text
      syncedAt := some now.timestamp
      updatedAt := now.timestamp }

/-- An upsert is of the file, with a path made by `CloudPath::new`. -/
def ItemOf (fileId : FileId) (item : CloudItem) : Prop := item.id = fileId ∧ ∃ text, item.path = CloudPath.new text

variable {db : Database} {account : AccountId} {id : FileId} {r : FileRow}

/-! ## One section -/

theorem toRow_upsert (g : File) (now : DateTime) (item : CloudItem) :
    ({ g.stored with
      name := item.name
      path := item.path
      size := item.size
      contentHash := item.contentHash
      isFolder := item.isFolder
      modifiedAt := item.modified
      updatedAt := now
      createdAt := g.createdAt } : File).toRow = onRow g.toRow (.inl (now, item)) := by
  unfold File.toRow onRow File.stored
  simp only [File.synced_column]

theorem toRow_state (g : File) (now : DateTime) (state : FileState) :
    ({ g.stored with state := state, updatedAt := now, createdAt := g.createdAt } : File).toRow =
      onRow g.toRow (.inr (now, .state state)) := by
  unfold File.toRow onRow File.stored
  simp only [File.synced_column, DateTime.timestamp_floor]
  rfl

theorem toRow_syncedAt (g : File) (now : DateTime) :
    ({ g.stored with syncedAt := some now, updatedAt := now, createdAt := g.createdAt } : File).toRow =
      onRow g.toRow (.inr (now, .syncedAt)) := by
  unfold File.toRow onRow File.stored
  simp only [DateTime.timestamp_floor]
  rfl

/-- An edit of the cache finds the row. -/
theorem editSection_row (hr : db.rowOf account id = some r) (edit : DateTime → File → File)
    (hid : ∀ now f, (edit now f).id = f.id) (hacc : ∀ now f, (edit now f).accountId = f.accountId)
    (hfid : ∀ now f, (edit now f).providerFileId = f.providerFileId) {now : DateTime} {w : RowWrite}
    (hrow : ∀ g : File,
      ({ edit now g.stored with updatedAt := now, createdAt := g.createdAt } : File).toRow = onRow g.toRow w) :
    ∃ db', editSection account id edit now db = (.ok (), db') ∧
      db.Sets (account.val, id.val) (some (onRow r w)) db' := by
  obtain ⟨db', hdb', h⟩ := editSection_spec edit hid hacc hfid account id now db
  refine ⟨db', hdb', ?_⟩
  rcases h with ⟨hnone, -⟩ | ⟨g, hg, hsets⟩
  · rw [hr] at hnone
    cases hnone
  · rw [hr] at hg
    cases hg
    exact hrow g ▸ hsets

/-- A section of the file succeeds, and does to the row what `onRow` says. -/
theorem run_row (hr : db.rowOf account id = some r) (w : RowWrite)
    (hitem : ∀ now item, w = .inl (now, item) → ItemOf id item) :
    ∃ db', w.run account id db = (.ok (), db') ∧ db.Sets (account.val, id.val) (some (onRow r w)) db' := by
  rcases w with ⟨now, item⟩ | ⟨now, state | _⟩
  · obtain ⟨hid, -⟩ := hitem now item rfl
    obtain ⟨g, rfl, rfl, rfl, -⟩ := Database.rowOf_written hr
    obtain ⟨db', hdb', hsets⟩ := updateFile_spec (f := { g.stored with
      name := item.name
      path := item.path
      size := item.size
      contentHash := item.contentHash
      isFolder := item.isFolder
      modifiedAt := item.modified }) now hr rfl rfl rfl
    refine ⟨db', ?_, toRow_upsert g now item ▸ hsets⟩
    show upsertSection g.accountId item now db = _
    unfold upsertSection
    rw [hid, DbM.bind_ok (getFileByProviderId_some now hr)]
    simp only
    rw [DbM.bind_ok hdb']
    rfl
  · exact editSection_row hr (fun _ dbFile => { dbFile with state := state }) (fun _ _ => rfl) (fun _ _ => rfl)
      (fun _ _ => rfl) fun g => toRow_state g now state
  · exact editSection_row hr (fun now dbFile => { dbFile with syncedAt := some now }) (fun _ _ => rfl)
      (fun _ _ => rfl) (fun _ _ => rfl) fun g => toRow_syncedAt g now

/-! ## A run of sections -/

theorem runAll_concat (ws : List RowWrite) (w : RowWrite) :
    runAll account id db (ws ++ [w]) = (runAll account id db ws).bind fun db => match w.run account id db with
      | (.ok _, db') => some db'
      | (.error _, _) => none := by
  unfold runAll
  rw [List.foldlM_append]
  simp

theorem runAll_row (hr : db.rowOf account id = some r) {ws : List RowWrite}
    (hitems : ∀ now item, .inl (now, item) ∈ ws → ItemOf id item) :
    ∃ db', runAll account id db ws = some db' ∧ db'.rowOf account id = some (ws.foldl onRow r) := by
  induction ws using List.reverseRecOn with
  | nil => exact ⟨db, rfl, hr⟩
  | append_singleton ws w ih =>
    obtain ⟨db₁, hrun, hr₁⟩ := ih fun now item hmem => hitems now item (List.mem_append_left _ hmem)
    obtain ⟨db', hdb', hsets⟩ := run_row hr₁ w fun now item hw => hitems now item (by rw [hw]; simp)
    refine ⟨db', by rw [runAll_concat, hrun, Option.bind_some, hdb'], ?_⟩
    rw [List.foldl_append]
    show db'.files.rowAt (account.val, id.val) = _
    rw [hsets.rows, Function.update_self]
    rfl

/-! ## The columns of each sequence -/

/-- The state that a section of the cache sets. -/
def stateSet : DateTime × StatusWrite → Option FileState
  | (_, .state state) => some state
  | (_, .syncedAt) => none

/-- The sync time that a section of the cache sets: its own instant. -/
def syncedAtSet : DateTime × StatusWrite → Option DateTime
  | (_, .state _) => none
  | (now, .syncedAt) => some now

theorem foldl_kept (ws : List RowWrite) (r : FileRow) :
    (ws.foldl onRow r).id = r.id ∧ (ws.foldl onRow r).createdAt = r.createdAt := by
  induction ws generalizing r with
  | nil => exact ⟨rfl, rfl⟩
  | cons w ws ih =>
    obtain ⟨hid, hcreated⟩ := ih (onRow r w)
    rcases w with w | ⟨now, state | _⟩ <;> exact ⟨hid, hcreated⟩

/-- Every section leaves a path that `CloudPath::new` does not change. -/
theorem foldl_path {ws : List RowWrite} (hws : ws ≠ []) (hitems : ∀ now item, .inl (now, item) ∈ ws → ItemOf id item)
    (r : FileRow) : (CloudPath.new (ws.foldl onRow r).path).text = (ws.foldl onRow r).path := by
  induction ws using List.reverseRecOn with
  | nil => exact absurd rfl hws
  | append_singleton ws w ih =>
    rw [List.foldl_append]
    rcases w with ⟨now, item⟩ | ⟨now, state | _⟩
    · obtain ⟨-, text, htext⟩ := hitems now item (by simp)
      show (CloudPath.new item.path.text).text = item.path.text
      rw [htext, CloudPath.new_new]
    · exact congrArg CloudPath.text (CloudPath.new_new _)
    · exact congrArg CloudPath.text (CloudPath.new_new _)

/-- The metadata of a row as a read gives it, its path through `CloudPath::new`. -/
def readMetadata (r : FileRow) : Metadata := { r.metadata with path := (CloudPath.new r.path).text }

theorem readMetadata_upsert {now : DateTime} {item : CloudItem} (hitem : ItemOf id item) (r : FileRow) :
    readMetadata (onRow r (.inl (now, item))) = item.metadata := by
  obtain ⟨-, text, htext⟩ := hitem
  have hpath : (CloudPath.new item.path.asStr).text = item.path.asStr := by
    rw [htext]
    exact congrArg CloudPath.text (CloudPath.new_new text)
  unfold readMetadata FileRow.metadata onRow CloudItem.metadata
  simp only [File.size_column, File.folder_column, hpath]

theorem readMetadata_status (r : FileRow) (w : DateTime × StatusWrite) :
    readMetadata (onRow r (.inr w)) = readMetadata r := by
  rcases w with ⟨now, state | _⟩
  · show { r.metadata with path := (CloudPath.new (CloudPath.new r.path).text).text } = readMetadata r
    rw [CloudPath.new_new]
    rfl
  · show { r.metadata with path := (CloudPath.new (CloudPath.new r.path).text).text } = readMetadata r
    rw [CloudPath.new_new]
    rfl

section

variable {upserts : List (DateTime × CloudItem)} {updates : List (DateTime × StatusWrite)} {ws : List RowWrite}

theorem foldl_metadata (hws : Interleaves upserts updates ws) (hitems : ∀ u ∈ upserts, ItemOf id u.2) (r : FileRow) :
    readMetadata (ws.foldl onRow r) =
      (last (fun u : DateTime × CloudItem => some u.2.metadata) upserts).getD (readMetadata r) := by
  rw [← hws.last_left]
  refine foldl_field (fun w hw r => ?_) r
  rcases w with ⟨now, item⟩ | w
  · exact readMetadata_upsert (hitems _ (hws.mem_left hw)) r
  · exact readMetadata_status r w

theorem foldl_state (hws : Interleaves upserts updates ws) (r : FileRow) :
    (ws.foldl onRow r).state = ((last stateSet updates).map stateText).getD r.state := by
  rw [← last_map, ← hws.last_right]
  refine foldl_field (fun w _ r => ?_) r
  rcases w with w | ⟨now, state | _⟩ <;> rfl

theorem foldl_syncedAt (hws : Interleaves upserts updates ws) (r : FileRow) :
    (ws.foldl onRow r).syncedAt = ((last syncedAtSet updates).map fun now => some now.timestamp).getD r.syncedAt := by
  rw [← last_map, ← hws.last_right]
  refine foldl_field (fun w _ r => ?_) r
  rcases w with w | ⟨now, state | _⟩ <;> rfl

end

/-- For every row, and every interleaving of upserts of its file with state and sync time updates: the row keeps its
id and its creation time throughout, and in the end has the metadata of the last upsert, the state of the last state
update and the instant of the last sync time update, where there is one. -/
theorem interleaved_writes (db : Database) (account : AccountId) (id : FileId) (r : FileRow)
    (hr : db.rowOf account id = some r) (before : List (DateTime × CloudItem)) (upsert : DateTime × CloudItem)
    (updates : List (DateTime × StatusWrite)) (hitems : ∀ u ∈ before ++ [upsert], ItemOf id u.2)
    (ws : List RowWrite) (hws : Interleaves (before ++ [upsert]) updates ws) :
    (∀ front, front <+: ws → ∃ db' r', runAll account id db front = some db' ∧ db'.rowOf account id = some r' ∧
      r'.id = r.id ∧ r'.createdAt = r.createdAt) ∧
    ∃ db' r', runAll account id db ws = some db' ∧ db'.rowOf account id = some r' ∧
      r'.metadata = upsert.2.metadata ∧
      r'.state = ((last stateSet updates).map stateText).getD r.state ∧
      r'.syncedAt = ((last syncedAtSet updates).map fun now => some now.timestamp).getD r.syncedAt := by
  have hof : ∀ now item, .inl (now, item) ∈ ws → ItemOf id item := fun now item hmem => hitems _ (hws.mem_left hmem)
  constructor
  · rintro front ⟨rest, rfl⟩
    obtain ⟨db', hrun, hr'⟩ := runAll_row hr fun now item hmem => hof now item (List.mem_append_left _ hmem)
    exact ⟨db', _, hrun, hr', foldl_kept front r⟩
  · obtain ⟨db', hrun, hr'⟩ := runAll_row hr hof
    have hne : ws ≠ [] := by
      rintro rfl
      exact List.append_ne_nil_of_right_ne_nil before (List.cons_ne_nil upsert []) hws.1.symm
    have hmetadata := foldl_metadata hws hitems r
    rw [last_concat] at hmetadata
    unfold readMetadata at hmetadata
    rw [foldl_path hne hof r] at hmetadata
    exact ⟨db', _, hrun, hr', hmetadata, foldl_state hws r, foldl_syncedAt hws r⟩

/-- A database with a file. -/
def oneRow : Database :=
  (upsertSection sampleAccount (sampleItem ['f'] ['n']) DateTime.epoch (Database.empty [sampleAccount])).2

/-- An upsert in the middle of a download. -/
theorem interleaved_writes_sample : ∃ db' r',
    runAll sampleAccount ⟨['f']⟩ oneRow
        [.inr (DateTime.epoch, .state .syncing), .inl (DateTime.epoch, sampleItem ['f'] ['m']),
          .inr (DateTime.epoch, .state .synced), .inr (DateTime.epoch, .syncedAt)] = some db' ∧
      db'.rowOf sampleAccount ⟨['f']⟩ = some r' ∧ r'.metadata = (sampleItem ['f'] ['m']).metadata ∧
      r'.state = stateText .synced ∧ r'.syncedAt = some 0 := by
  obtain ⟨r, hr⟩ : ∃ r, oneRow.rowOf sampleAccount ⟨['f']⟩ = some r := ⟨_, rfl⟩
  exact (interleaved_writes oneRow sampleAccount ⟨['f']⟩ r hr [] (DateTime.epoch, sampleItem ['f'] ['m'])
    [(DateTime.epoch, .state .syncing), (DateTime.epoch, .state .synced), (DateTime.epoch, .syncedAt)]
    (fun u hu => by rw [List.mem_singleton.1 hu]; exact ⟨rfl, ['m'], rfl⟩) _ ⟨rfl, rfl⟩).2

end RowWrite

end CloudSync
