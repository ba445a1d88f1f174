/-
The two guarantees of incremental sync. It refines a fold of the change log: what is read back of
an account's files afterwards is the left fold of all changes, however the log was cut into pages.
And it can be interrupted anywhere: in every state of every run, whatever fails, the changes before
the stored cursor are applied and a later sync over the rest of the log ends where one uninterrupted
sync over the whole log does.
-/
import CloudSync.Vfs.Incremental

namespace CloudSync

open KeyedLog (Entry Cell)
open Prog (exec Always)

/-! ## Reading files back -/

def File.metadata (f : File) : Metadata where
  name := f.name
  path := f.path.asStr
  size := f.size
  contentHash := f.contentHash
  isFolder := f.isFolder
  modifiedAt := f.modifiedAt.timestamp

/-- The files of an account as `get_file_by_provider_id` reads them. -/
def Database.readMap (db : Database) (account : AccountId) : FileId → Option Metadata := fun id =>
  match getFileByProviderId account id DateTime.epoch db with
  | (.ok (some f), _) => some f.metadata
  | _ => none

/-- The effect of one change on a map of files: a deleted file is removed, an item is set, and a
change with neither does nothing. -/
def Change.applyTo (m : FileId → Option Metadata) (change : Change) : FileId → Option Metadata :=
  if change.deleted then Function.update m change.fileId none
  else match change.item with
    | some item => Function.update m item.id (some item.metadata)
    | none => m

/-- A stored path is read through `CloudPath::new`. -/
def Metadata.normal (m : Metadata) : Metadata := { m with path := (CloudPath.new m.path).text }

theorem Database.readMap_eq (db : Database) (account : AccountId) :
    db.readMap account = fun id => (db.metadataOf account id).map Metadata.normal := by
  funext id
  unfold readMap metadataOf
  cases hrow : db.rowOf account id with
  | none => rw [getFileByProviderId_none _ hrow]; rfl
  | some r =>
    obtain ⟨f, rfl, -⟩ := rowOf_written hrow
    rw [getFileByProviderId_some _ hrow]
    have hmeta : f.toRow.metadata = f.metadata := congrArg RowState.metadata f.rowState_toRow
    simp only [Option.map_some, hmeta]; rfl

theorem Change.applyTo_eq (m : FileId → Option Metadata) (change : Change) :
    change.applyTo m = (Cell.plain Metadata).apply m change.entry := by
  unfold Change.applyTo Change.entry
  split
  · exact (KeyedLog.plain_apply_erase m change.fileId).symm
  · cases change.item with
    | none => rfl
    | some item => exact (KeyedLog.plain_apply_set m item.id item.metadata).symm

theorem foldl_applyTo (m : FileId → Option Metadata) (log : List Change) :
    log.foldl Change.applyTo m = (Cell.plain Metadata).replay m (entries log) := by
  induction log generalizing m with
  | nil => rfl
  | cons change log ih =>
    show log.foldl Change.applyTo (change.applyTo m) = _
    rw [ih, Change.applyTo_eq]; rfl

/-- The log has only items whose path was made by `CloudPath::new`. -/
def NormalPaths (log : List Change) : Prop :=
  ∀ change ∈ log, ∀ item, change.item = some item → ∃ s, item.path = CloudPath.new s

theorem entries_normal {log : List Change} (h : NormalPaths log) :
    (entries log).map (Entry.map Metadata.normal) = entries log := by
  unfold entries
  rw [List.map_map]
  refine List.map_congr_left fun change hc => ?_
  unfold Function.comp Change.entry
  split
  · rfl
  · cases hitem : change.item with
    | none => rfl
    | some item =>
      obtain ⟨s, hs⟩ := h change hc item hitem
      show Entry.set item.id item.metadata.normal = _
      have hpath : (CloudPath.new item.metadata.path).text = item.metadata.path := by
        show (CloudPath.new item.path.text).text = item.path.text
        rw [hs, CloudPath.new_new]
      unfold Metadata.normal; rw [hpath]; rfl

/-- What is read back after a replayed log is the fold of the log. -/
theorem Replayed.readMap {account : AccountId} {log : List Change} {db db' : Database}
    (h : Replayed account (entries log) db db') (hpaths : NormalPaths log) :
    db'.readMap account = log.foldl Change.applyTo (db.readMap account) := by
  rw [Database.readMap_eq, Database.readMap_eq, h.metadata, KeyedLog.replay_plain_map, entries_normal hpaths,
    foldl_applyTo]

theorem mem_entries_erase {log : List Change} {id : FileId} :
    Entry.erase id ∈ entries log ↔ ∃ change ∈ log, change.deleted = true ∧ change.fileId = id := by
  unfold entries
  rw [List.mem_map]
  refine exists_congr fun change => and_congr_right fun _ => ?_
  unfold Change.entry
  split
  · rename_i hdel; simp [hdel]
  · rename_i hdel
    cases change.item <;> simp [hdel, CloudItem.entry]

/-- A row no change deletes keeps its id, state, sync time and creation time. -/
theorem Replayed.kept_row {account : AccountId} {log : List Change} {db db' : Database}
    (h : Replayed account (entries log) db db') {id : FileId} {r : FileRow} (hr : db.rowOf account id = some r)
    (hno : ∀ change ∈ log, ¬ (change.deleted = true ∧ change.fileId = id)) :
    ∃ r', db'.rowOf account id = some r' ∧ r'.id = r.id ∧ r'.state = r.state ∧ r'.syncedAt = r.syncedAt ∧
      r'.createdAt = r.createdAt := by
  have hno' : ∀ e ∈ entries log, e ≠ .erase id := by
    rintro e he rfl
    obtain ⟨change, hc, hdel⟩ := mem_entries_erase.1 he
    exact hno change hc hdel
  obtain ⟨r', hr', hid, hcreated⟩ := h.kept id r hr hno'
  have hrow := congrFun h.rows id
  rw [Cell.replay_eq] at hrow
  unfold Database.rowStates at hrow
  rw [hr, hr', Option.map_some, Option.map_some] at hrow
  refine ⟨r', hr', hid, ?_, ?_, hcreated⟩
  all_goals
    rcases KeyedLog.summary_of_not_erased hno' with hs | ⟨m, hs⟩ <;> rw [hs] at hrow
    · injection hrow with hrow; injection hrow
    · injection hrow with hrow; injection hrow

/-- A row that was not there before, or was deleted along the way, is cloud-only and never synced. -/
theorem Replayed.fresh_row {account : AccountId} {log : List Change} {db db' : Database}
    (h : Replayed account (entries log) db db') {id : FileId} {r' : FileRow}
    (hr' : db'.rowOf account id = some r')
    (hnew : db.rowOf account id = none ∨ ∃ change ∈ log, change.deleted = true ∧ change.fileId = id) :
    r'.state = stateText .cloudOnly ∧ r'.syncedAt = none := by
  have hrow := congrFun h.rows id
  rw [Cell.replay_eq] at hrow
  unfold Database.rowStates at hrow
  rw [hr', Option.map_some] at hrow
  have hfresh : ∀ m : Metadata, some r'.rowState = some (rowCell.fresh m) →
      r'.state = stateText .cloudOnly ∧ r'.syncedAt = none := by
    intro m hm
    injection hm with hm
    exact ⟨congrArg RowState.state hm, congrArg RowState.syncedAt hm⟩
  -- if the log never erases the id, the row was not there before
  by_cases hdel : Entry.erase id ∈ entries log
  · rcases KeyedLog.summary_of_erased hdel with hs | ⟨m, hs⟩ <;> rw [hs] at hrow
    · cases hrow
    · exact hfresh m hrow
  · rcases hnew with hnone | hlog
    · have hno : ∀ e ∈ entries log, e ≠ .erase id := by rintro e he rfl; exact hdel he
      rw [hnone, Option.map_none] at hrow
      rcases KeyedLog.summary_of_not_erased hno with hs | ⟨m, hs⟩ <;> rw [hs] at hrow
      · cases hrow
      · exact hfresh m hrow
    · exact absurd (mem_entries_erase.2 hlog) hdel

/-- Rows of other accounts stay in the table, and none is added. -/
theorem Replayed.other_rows {account : AccountId} {log : List (Entry FileId Metadata)} {db db' : Database}
    (h : Replayed account log db db') {r : FileRow} (hr : r.accountId ≠ account.val) :
    r ∈ db'.files.rows ↔ r ∈ db.files.rows := by
  rw [FilesTable.mem_iff_rowAt, FilesTable.mem_iff_rowAt, h.others r.key hr]

/-! ## The fold of the log -/

section

variable {π : Type} {env : Env π} {account : AccountId}

/-- Incremental sync from a stored cursor refines the fold of the change log, for every cut of the
log into pages: with all calls succeeding it returns the number of changes; what is read back of the
account is the left fold of the changes; rows never deleted keep id, state, sync time and creation
time, new ones are cloud-only and never synced; rows of other accounts are as before; the stored
cursor is the last page's; and another cut of the same log gives the same rows. -/
theorem incrementalSync_folds_log (env : Env π) (account : AccountId) (fuel : Nat) {c : Cursor}
    {pages : List ChangeList} (w : World π) (hq : env.Quiet) (hpages : Serves env.remote c pages)
    (hcur : w.db.cursorOf account = some c) (hpaths : NormalPaths (logOf pages)) (hfuel : pages.length ≤ fuel) :
    ∃ w', exec (handler env) (incrementalSync fuel account) w = (.ok (logOf pages).length, w') ∧
      w'.db.readMap account = (logOf pages).foldl Change.applyTo (w.db.readMap account) ∧
      (∀ id r, w.db.rowOf account id = some r →
        (∀ change ∈ logOf pages, ¬ (change.deleted = true ∧ change.fileId = id)) →
        ∃ r', w'.db.rowOf account id = some r' ∧ r'.id = r.id ∧ r'.state = r.state ∧ r'.syncedAt = r.syncedAt ∧
          r'.createdAt = r.createdAt) ∧
      (∀ id r', w'.db.rowOf account id = some r' →
        (w.db.rowOf account id = none ∨ ∃ change ∈ logOf pages, change.deleted = true ∧ change.fileId = id) →
        r'.state = stateText .cloudOnly ∧ r'.syncedAt = none) ∧
      (∀ r : FileRow, r.accountId ≠ account.val → (r ∈ w'.db.files.rows ↔ r ∈ w.db.files.rows)) ∧
      w'.db.cursorOf account = some (cursorAfter c pages) ∧
      (∀ (env₂ : Env π) (fuel₂ : Nat) (pages₂ : List ChangeList) (w₂ : World π), env₂.Quiet →
        Serves env₂.remote c pages₂ → logOf pages₂ = logOf pages → pages₂.length ≤ fuel₂ → w₂.db = w.db →
        ∃ w₂', exec (handler env₂) (incrementalSync fuel₂ account) w₂ = (.ok (logOf pages).length, w₂') ∧
          w₂'.db.rowStates account = w'.db.rowStates account) := by
  obtain ⟨w', hrun, hcur', hrep⟩ := incrementalSync_quiet hq w hpages hcur hfuel
  refine ⟨w', hrun, hrep.readMap hpaths, fun id r hr => hrep.kept_row hr, fun id r' hr' => hrep.fresh_row hr',
    fun r hr => hrep.other_rows hr, hcur', ?_⟩
  intro env₂ fuel₂ pages₂ w₂ hq₂ hpages₂ hlog hfuel₂ hdb
  obtain ⟨w₂', hrun₂, -, hrep₂⟩ := incrementalSync_quiet hq₂ w₂ hpages₂ (hdb ▸ hcur) hfuel₂
  rw [hlog] at hrun₂ hrep₂
  exact ⟨w₂', hrun₂, by rw [hrep₂.rows, hrep.rows, hdb]⟩

end

/-- The environment in which nothing fails and the clock stands still. -/
def Env.calm {π : Type} (remote : Remote π) : Env π where
  remote := remote
  clock _ := DateTime.epoch
  netFault _ := none
  dbFault _ := none

theorem Env.calm_quiet {π : Type} (remote : Remote π) : (Env.calm remote).Quiet := ⟨fun _ => rfl, fun _ => rfl⟩

def sampleAccount : AccountId := ⟨['a']⟩

def sampleItem (id name : Str) : CloudItem where
  id := ⟨id⟩
  name := name
  path := CloudPath.new name
  isFolder := false
  size := some 5
  contentHash := none
  modified := DateTime.epoch
  created := none
  mimeType := none

def sampleChange (id name : Str) : Change := ⟨some (sampleItem id name), ⟨id⟩, false, DateTime.epoch⟩

/-- A log of three changes in two pages: a file is created, deleted and created again. -/
def samplePages : List ChangeList :=
  [⟨[sampleChange ['f'] ['n']], ['1'], true⟩,
   ⟨[⟨none, ⟨['f']⟩, true, DateTime.epoch⟩, sampleChange ['f'] ['m']], ['3'], false⟩]

/-- The pages of the log, and nothing after them. -/
def sampleRemote : Remote Unit where
  advance _ := id
  listFolder _ _ := .ok []
  getChanges
    | none, _ => .ok ⟨[], ['3'], false⟩
    | some c, _ => .ok (if c = ['0'] then samplePages[0] else if c = ['1'] then samplePages[1] else ⟨[], ['3'], false⟩)

/-- One account, its cursor at the start of the log, and no file. -/
def sampleDb : Database := { Database.empty [sampleAccount] with
  cursors := [⟨['a'], ['0'], 0⟩]
  cursorsFk := by simp [Database.empty, sampleAccount] }

theorem sampleRemote_serves : Serves sampleRemote ['0'] samplePages :=
  .more (fun _ => rfl) rfl (.last (fun _ => rfl) rfl)

theorem samplePages_paths : NormalPaths (logOf samplePages) := by
  have hlog : logOf samplePages =
      [sampleChange ['f'] ['n'], ⟨none, ⟨['f']⟩, true, DateTime.epoch⟩, sampleChange ['f'] ['m']] := rfl
  rw [hlog]
  intro change hc item hitem
  simp only [List.mem_cons, List.not_mem_nil, or_false] at hc
  rcases hc with rfl | rfl | rfl
  · injection hitem with hitem; exact ⟨['n'], by rw [← hitem]; rfl⟩
  · cases hitem
  · injection hitem with hitem; exact ⟨['m'], by rw [← hitem]; rfl⟩

theorem incrementalSync_folds_log_sample :
    ∃ w', exec (handler (Env.calm sampleRemote)) (incrementalSync 2 sampleAccount) ⟨sampleDb, (), 0⟩ = (.ok 3, w') ∧
      (w'.db.readMap sampleAccount ⟨['f']⟩).map Metadata.name = some ['m'] ∧
      w'.db.cursorOf sampleAccount = some ['3'] := by
  obtain ⟨w', hrun, hmap, -, -, -, hcur, -⟩ := incrementalSync_folds_log (Env.calm sampleRemote) sampleAccount 2
    ⟨sampleDb, (), 0⟩ (Env.calm_quiet _) sampleRemote_serves rfl samplePages_paths (by decide)
  exact ⟨w', hrun, by rw [hmap]; rfl, hcur⟩

/-! ## Interruption -/

section

variable {π : Type} {env : Env π} {account : AccountId}

/-- Replaying the rest of the log over a position in it gives what the whole log gives. -/
theorem Midway.resume {c : Cursor} {pages : List ChangeList} {db₀ db : Database}
    (h : Midway account c pages [] db₀ db) :
    ∃ stored rest, stored ++ rest = pages ∧ db.cursorOf account = some (cursorAfter c stored) ∧
      (∃ p, p <+: logOf rest ∧ Replayed account (entries (logOf stored ++ p)) db₀ db) ∧
      ∀ db₁, Replayed account (entries (logOf rest)) db db₁ →
        db₁.rowStates account = rowCell.replay (db₀.rowStates account) (entries (logOf pages)) := by
  obtain ⟨stored, rest, p, rfl, hc, hp, hr⟩ := h
  rw [List.nil_append] at hr
  refine ⟨stored, rest, rfl, hc, ⟨p, hp, hr⟩, fun db₁ h₁ => ?_⟩
  have hpre : entries p <+: entries (logOf rest) := hp.map _
  rw [h₁.rows, hr.rows, entries_append, Cell.replay_append, Cell.replay_after_prefix _ _ hpre, ← Cell.replay_append,
    logOf_append, entries_append]

/-- Incremental sync may be interrupted anywhere. In every state of every run, whatever faults the
network and the database have, and so in the state a failure leaves: the changes before the stored
cursor are applied, and some of those after it; and a later incremental sync without faults over the
rest of the log, however that is cut into pages, leaves for every file the presence, metadata, state
and sync time that one uninterrupted sync over the whole log leaves, which are those of its replay, and
stores the cursor of its last page. -/
theorem interruptedSync_converges (env : Env π) (account : AccountId) (fuel : Nat) {c : Cursor}
    {pages : List ChangeList} (w : World π)
    (hpages : Serves env.remote c pages) (hcur : w.db.cursorOf account = some c) :
    Always (handler env) (fun w₁ => ∃ stored rest, stored ++ rest = pages ∧
        w₁.db.cursorOf account = some (cursorAfter c stored) ∧
        (∃ p, p <+: logOf rest ∧ Replayed account (entries (logOf stored ++ p)) w.db w₁.db) ∧
        ∀ (env₂ env₃ : Env π) (fuel₂ fuel₃ : Nat) (pages₂ pages₃ : List ChangeList) (w₂ w₃ : World π),
          env₂.Quiet → Serves env₂.remote (cursorAfter c stored) pages₂ → logOf pages₂ = logOf rest →
          pages₂.length ≤ fuel₂ → w₂.db = w₁.db →
          env₃.Quiet → Serves env₃.remote c pages₃ → logOf pages₃ = logOf pages →
          pages₃.length ≤ fuel₃ → w₃.db = w.db →
          ∃ n₂ n₃ w₂' w₃', exec (handler env₂) (incrementalSync fuel₂ account) w₂ = (.ok n₂, w₂') ∧
            exec (handler env₃) (incrementalSync fuel₃ account) w₃ = (.ok n₃, w₃') ∧
            w₂'.db.rowStates account = w₃'.db.rowStates account ∧
            w₂'.db.rowStates account = rowCell.replay (w.db.rowStates account) (entries (logOf pages)) ∧
            w₂'.db.cursorOf account = some (cursorAfter (cursorAfter c stored) pages₂))
      (incrementalSync fuel account).run w := by
  have hacc := Database.account_of_cursor hcur
  refine (incrementalSync_triple fuel w hpages hcur hacc).always.mono fun w₁ hmid => ?_
  obtain ⟨stored, rest, hsplit, hc, happlied, hresume⟩ := hmid.resume
  refine ⟨stored, rest, hsplit, hc, happlied, ?_⟩
  intro env₂ env₃ fuel₂ fuel₃ pages₂ pages₃ w₂ w₃ hq₂ hp₂ hlog₂ hfuel₂ hdb₂ hq₃ hp₃ hlog₃ hfuel₃ hdb₃
  obtain ⟨w₂', hrun₂, hcur₂, hrep₂⟩ := incrementalSync_quiet hq₂ w₂ hp₂ (hdb₂ ▸ hc) hfuel₂
  obtain ⟨w₃', hrun₃, -, hrep₃⟩ := incrementalSync_quiet hq₃ w₃ hp₃ (hdb₃ ▸ hcur) hfuel₃
  rw [hlog₂, hdb₂] at hrep₂
  have hreplay := hresume w₂'.db hrep₂
  refine ⟨_, _, w₂', w₃', hrun₂, hrun₃, ?_, hreplay, hcur₂⟩
  rw [hreplay, hrep₃.rows, hlog₃, hdb₃]

end

/-- In every state of a run whose third step fails, a second run ends where an uninterrupted one does. -/
theorem interruptedSync_converges_sample :
    Always (handler { Env.calm sampleRemote with dbFault := fun n => if n = 2 then some (.query []) else none })
      (fun w₁ => ∃ n₂ n₃ w₂ w₃,
        exec (handler (Env.calm sampleRemote)) (incrementalSync 2 sampleAccount) ⟨w₁.db, (), 0⟩ = (.ok n₂, w₂) ∧
        exec (handler (Env.calm sampleRemote)) (incrementalSync 2 sampleAccount) ⟨sampleDb, (), 0⟩ = (.ok n₃, w₃) ∧
        w₂.db.rowStates sampleAccount = w₃.db.rowStates sampleAccount)
      (incrementalSync 2 sampleAccount).run ⟨sampleDb, (), 0⟩ := by
  refine (interruptedSync_converges _ sampleAccount 2 ⟨sampleDb, (), 0⟩ sampleRemote_serves rfl).mono
    fun w₁ ⟨stored, rest, hsplit, _, _, hresume⟩ => ?_
  have hrest : ∃ pages₂, Serves sampleRemote (cursorAfter ['0'] stored) pages₂ ∧ pages₂.length ≤ 2 ∧
      logOf pages₂ = logOf rest := by
    match stored, hsplit with
    | [], hsplit => exact ⟨samplePages, sampleRemote_serves, by decide, by rw [← hsplit]; rfl⟩
    | [_], hsplit => cases hsplit; exact ⟨_, .last (fun _ => rfl) rfl, by decide, rfl⟩
    | [_, _], hsplit => cases hsplit; exact ⟨_, .last (fun _ => rfl) rfl, by decide, rfl⟩
  obtain ⟨pages₂, hpages₂, hlen₂, hlog₂⟩ := hrest
  obtain ⟨n₂, n₃, w₂, w₃, hrun₂, hrun₃, hsame, -, -⟩ := hresume (Env.calm sampleRemote) (Env.calm sampleRemote) 2 2
    pages₂ samplePages ⟨w₁.db, (), 0⟩ ⟨sampleDb, (), 0⟩ (Env.calm_quiet _) hpages₂ hlog₂ hlen₂ rfl (Env.calm_quiet _)
    sampleRemote_serves rfl (by decide) rfl
  exact ⟨n₂, n₃, w₂, w₃, hrun₂, hrun₃, hsame⟩

end CloudSync
