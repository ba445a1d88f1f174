/-
The handover from initial to incremental sync, at a provider driven by an append-only event log:
listing the root gives the live set of the moment, a cursor is a position in the log. Initial sync
lists first and takes its cursor after the upserts, so the events between the two calls are in
neither; the rows end at the live set exactly when a later event makes up for each of them.
-/
import CloudSync.Vfs.Baseline

namespace CloudSync

open KeyedLog (Entry Cell)
open Prog (exec)

/-! ## A provider with an event log -/

/-- An event at the provider: an item is created or modified, or a file is deleted. -/
inductive Event
  | put (item : CloudItem)
  | delete (id : FileId)
deriving DecidableEq

def Event.entry : Event → Entry FileId CloudItem
  | .put item => .set item.id item
  | .delete id => .erase id

/-- The file an event is about. -/
def Event.fileId : Event → FileId
  | .put item => item.id
  | .delete id => id

/-- The live items after a log. -/
def live (log : List Event) : FileId → Option CloudItem :=
  (Cell.plain CloudItem).replay (fun _ => none) (log.map Event.entry)

/-- What metadata sync can see of the live items. -/
def liveMetadata (log : List Event) : FileId → Option Metadata := fun id => (live log id).map CloudItem.metadata

/-- The metadata entries of a log. -/
def Event.entries (log : List Event) : List (Entry FileId Metadata) :=
  (log.map Event.entry).map (Entry.map CloudItem.metadata)

theorem Event.entries_append (l₁ l₂ : List Event) :
    Event.entries (l₁ ++ l₂) = Event.entries l₁ ++ Event.entries l₂ := by
  unfold Event.entries; rw [List.map_append, List.map_append]

theorem liveMetadata_eq (log : List Event) :
    liveMetadata log = (Cell.plain Metadata).replay (fun _ => none) (Event.entries log) :=
  KeyedLog.replay_plain_map CloudItem.metadata (log.map Event.entry) fun _ => none

theorem liveMetadata_append (l₁ l₂ : List Event) :
    liveMetadata (l₁ ++ l₂) = (Cell.plain Metadata).replay (liveMetadata l₁) (Event.entries l₂) := by
  rw [liveMetadata_eq, liveMetadata_eq, Event.entries_append, Cell.replay_append]

theorem exists_touches {log : List Event} {id : FileId} :
    (∃ e ∈ Event.entries log, e.touches id) ↔ ∃ event ∈ log, event.fileId = id := by
  unfold Event.entries
  rw [List.map_map]
  constructor
  · rintro ⟨e, he, htouch⟩
    obtain ⟨event, hmem, rfl⟩ := List.mem_map.1 he
    refine ⟨event, hmem, ?_⟩
    cases event <;> exact htouch
  · rintro ⟨event, hmem, rfl⟩
    refine ⟨_, List.mem_map_of_mem hmem, ?_⟩
    cases event <;> rfl

/-- A provider driven by an append-only log. Its state is the log; `token` writes a position as a
cursor. The log after a position comes in pages, each of at least one event while there are any. -/
structure Remote.Logged (remote : Remote (List Event)) (token : Nat → Cursor) : Prop where
  appends : ∀ n log, log <+: remote.advance n log
  lists : ∀ log, ∃ items, remote.listFolder CloudPath.root log = .ok items ∧
    ∀ item, item ∈ items ↔ live log item.id = some item
  head : ∀ log, ∃ cl, remote.getChanges none log = .ok cl ∧ cl.cursor = token log.length
  after : ∀ log k, k ≤ log.length → ∃ page m, remote.getChanges (some (token k)) log = .ok page ∧
    k + m ≤ log.length ∧ (k < log.length → 0 < m) ∧ entries page.changes = Event.entries ((log.drop k).take m) ∧
    page.cursor = token (k + m) ∧ page.hasMore = decide (k + m < log.length)

theorem World.remoteAfter_mono {env : Env (List Event)} {token : Nat → Cursor} (hlog : env.remote.Logged token)
    (w : World (List Event)) (m : Nat) : ∀ k, w.remoteAfter env m <+: w.remoteAfter env (m + k)
  | 0 => List.prefix_refl _
  | k + 1 => (World.remoteAfter_mono hlog w m k).trans (hlog.appends _ _)

/-! ## Sync to the head of the log -/

/-- The environment with the provider stopped in one state. -/
def Env.frozen {π : Type} (env : Env π) (s : π) : Env π where
  remote :=
    { advance := fun _ _ => s
      listFolder := fun path _ => env.remote.listFolder path s
      getChanges := fun cursor _ => env.remote.getChanges cursor s }
  clock := env.clock
  netFault := env.netFault
  dbFault := env.dbFault

theorem handler_frozen {π : Type} {env : Env π} {s : π} (hstill : ∀ n, env.remote.advance n s = s) (β : Type)
    (o : SyncOp β) (w : World π) (hw : w.remote = s) :
    handler (env.frozen s) β o w = handler env β o w ∧ (handler env β o w).2.remote = s := by
  have htick : ∀ db, w.tick (env.frozen s) db = w.tick env db := by
    intro db
    show World.mk db s (w.step + 1) = World.mk db (env.remote.advance w.step w.remote) (w.step + 1)
    rw [hw, hstill]
  have hremote : ∀ db, (w.tick env db).remote = s := by
    intro db
    show env.remote.advance w.step w.remote = s
    rw [hw, hstill]
  cases o with
  | listFolder path =>
    refine ⟨?_, hremote _⟩
    show (answer _ (env.remote.listFolder path s), _) = (answer _ (env.remote.listFolder path _), _)
    rw [htick, hw, hstill]; rfl
  | getChanges cursor =>
    refine ⟨?_, hremote _⟩
    show (answer _ (env.remote.getChanges cursor s), _) = (answer _ (env.remote.getChanges cursor _), _)
    rw [htick, hw, hstill]; rfl
  | withConn f =>
    cases hf : env.dbFault w.step with
    | some e =>
      have hf' : (env.frozen s).dbFault w.step = some e := hf
      rw [handler_withConn_fault f hf, handler_withConn_fault f hf', htick]
      exact ⟨rfl, hremote _⟩
    | none =>
      have hf' : (env.frozen s).dbFault w.step = none := hf
      rw [handler_withConn_run f hf, handler_withConn_run f hf', htick]
      exact ⟨rfl, hremote _⟩

/-- A log that does not grow is served from a position in it to its end. -/
theorem serves_rest {env : Env (List Event)} {token : Nat → Cursor} (hlog : env.remote.Logged token)
    (log : List Event) : ∀ (r k : Nat), k + r = log.length →
      ∃ pages, Serves (env.frozen log).remote (token k) pages ∧ pages.length ≤ r + 1 ∧
        entries (logOf pages) = Event.entries (log.drop k) := by
  intro r
  induction r using Nat.strong_induction_on with
  | _ r ih =>
    intro k hk
    obtain ⟨page, m, hpage, hm, hpos, hentries, hcur, hmore⟩ := hlog.after log k (by omega)
    -- the page after `k` is the last one, or the rest of the log is shorter
    by_cases hlast : k + m < log.length
    · have hm0 := hpos (by omega)
      obtain ⟨pages, hserves, hlen, hrest⟩ := ih (r - m) (by omega) (k + m) (by omega)
      refine ⟨page :: pages, .more (fun _ => hpage) (by rw [hmore]; exact decide_eq_true hlast)
        (hcur ▸ hserves), ?_, ?_⟩
      · rw [List.length_cons]; omega
      · rw [logOf_cons, CloudSync.entries_append, hentries, hrest, ← Event.entries_append, ← List.drop_drop,
          List.take_append_drop]
    · refine ⟨[page], .last (fun _ => hpage) (by rw [hmore]; exact decide_eq_false hlast), by simp, ?_⟩
      have hall : (log.drop k).take m = log.drop k := List.take_of_length_le (by rw [List.length_drop]; omega)
      rw [logOf_cons, logOf_nil, List.append_nil, hentries, hall]

section

variable {account : AccountId} {token : Nat → Cursor}

/-- Incremental sync from a position in a log that does not grow applies the rest of the log. -/
theorem incrementalSync_to_head {env : Env (List Event)} (hq : env.Quiet) (hlog : env.remote.Logged token)
    (hstill : ∀ n log, env.remote.advance n log = log) {w : World (List Event)} {k fuel : Nat}
    (hcur : w.db.cursorOf account = some (token k)) (hk : k ≤ w.remote.length) (hfuel : w.remote.length < fuel) :
    ∃ n w', exec (handler env) (incrementalSync fuel account) w = (.ok n, w') ∧ w'.remote = w.remote ∧
      Replayed account (Event.entries (w.remote.drop k)) w.db w'.db := by
  obtain ⟨pages, hserves, hlen, hentries⟩ := serves_rest hlog w.remote (w.remote.length - k) k (by omega)
  have hq' : (env.frozen w.remote).Quiet := ⟨hq.net, hq.db⟩
  obtain ⟨w', hrun, -, hrep⟩ := incrementalSync_quiet hq' w hserves hcur (show pages.length ≤ fuel by omega)
  have hS : ∀ (β : Type) (o : SyncOp β) (w' : World (List Event)), w'.remote = w.remote →
      handler (env.frozen w.remote) β o w' = handler env β o w' ∧ (handler env β o w').2.remote = w.remote :=
    handler_frozen fun n => hstill n w.remote
  have hsame : exec (handler (env.frozen w.remote)) (incrementalSync fuel account) w =
      exec (handler env) (incrementalSync fuel account) w := Prog.run_congr hS _ w rfl
  have hremote : w'.remote = w.remote := by
    have h := Prog.run_inv (S := fun w' => w'.remote = w.remote) (fun β o w' hw' => (hS β o w' hw').2)
      (incrementalSync fuel account).run w rfl
    rw [show Prog.run (handler env) (incrementalSync fuel account).run w = _ from hsame.symm.trans hrun] at h
    exact h
  rw [hentries] at hrep
  exact ⟨_, w', hsame.symm.trans hrun, hremote, hrep⟩

/-- A live item is live under its own id. -/
theorem live_id {log : List Event} {id : FileId} {item : CloudItem} (h : live log id = some item) : item.id = id := by
  have hmem : Entry.set id item ∈ log.map Event.entry := by
    unfold live at h
    rw [Cell.replay_eq] at h
    apply KeyedLog.summary_mem
    cases hs : KeyedLog.summary id (log.map Event.entry) <;> rw [hs] at h
    · cases h
    · cases h
    · cases h; exact .inr rfl
    · cases h; exact .inl rfl
  obtain ⟨event, -, hevent⟩ := List.mem_map.1 hmem
  cases event with
  | put item' => cases hevent; rfl
  | delete id' => cases hevent

/-- From an empty files table, initial sync leaves the metadata of the live set it listed. -/
theorem initialSync_live {env : Env (List Event)} (hlog : env.remote.Logged token) {w w' : World (List Event)}
    {items : List CloudItem} (hempty : w.db.files.rows = [])
    (hlist : env.remote.listFolder CloudPath.root (w.remoteAfter env 1) = .ok items)
    (hrep : Replayed account (items.map CloudItem.entry) w.db w'.db) :
    w'.db.metadataOf account = liveMetadata (w.remoteAfter env 1) := by
  have hmem : ∀ item, item ∈ items ↔ live (w.remoteAfter env 1) item.id = some item := by
    obtain ⟨items', hlist', hmem⟩ := hlog.lists (w.remoteAfter env 1)
    rw [hlist] at hlist'; cases hlist'
    exact hmem
  funext id
  ext m
  rw [hrep.metadataOf_items hempty]
  · unfold liveMetadata
    rw [Option.map_eq_some_iff]
    constructor
    · rintro ⟨item, hitem, rfl, rfl⟩
      exact ⟨item, (hmem item).1 hitem, rfl⟩
    · rintro ⟨item, hitem, rfl⟩
      have hid := live_id hitem
      exact ⟨item, (hmem item).2 (hid.symm ▸ hitem), hid, rfl⟩
  · intro item₁ hmem₁ item₂ hmem₂ hid
    have heq := ((hmem item₁).1 hmem₁).symm.trans (hid ▸ (hmem item₂).1 hmem₂)
    rw [Option.some.inj heq]

/-- From an empty files table: when initial sync has returned, in any schedule of events and faults,
incremental sync runs to the head of the log, and then the rows are the live set if and only if
every file whose metadata differs between the listing and the cursor is touched by an event after
the cursor. -/
theorem listing_then_cursor_iff (env env₂ : Env (List Event)) (account : AccountId) (fuel : Nat)
    (hlog : env.remote.Logged token) (w : World (List Event)) {w' : World (List Event)} (w₂ : World (List Event))
    {items : List CloudItem} {n : Nat} (hempty : w.db.files.rows = [])
    (hlist : env.remote.listFolder CloudPath.root (w.remoteAfter env 1) = .ok items)
    (hrun : exec (handler env) (initialSync account) w = (.ok n, w')) (hq : env₂.Quiet)
    (hlog₂ : env₂.remote.Logged token) (hstill : ∀ n log, env₂.remote.advance n log = log) (hdb : w₂.db = w'.db)
    (hlater : w'.remote <+: w₂.remote) (hfuel : w₂.remote.length < fuel) :
    ∃ n₂ w₃, exec (handler env₂) (incrementalSync fuel account) w₂ = (.ok n₂, w₃) ∧ w₃.remote = w₂.remote ∧
      (w₃.db.metadataOf account = liveMetadata w₃.remote ↔
        ∀ id, liveMetadata (w.remoteAfter env 1) id ≠ liveMetadata (w.remoteAfter env (items.length + 2)) id →
          ∃ event ∈ w₂.remote.drop (w.remoteAfter env (items.length + 2)).length, event.fileId = id) := by
  obtain ⟨-, hrep, hafter, cl, hcl, hcur⟩ := initialSync_ok hlist hrun
  have htoken : cl.cursor = token (w.remoteAfter env (items.length + 2)).length := by
    obtain ⟨cl', hcl', htoken⟩ := hlog.head (w.remoteAfter env (items.length + 2))
    rw [hcl] at hcl'; cases hcl'
    exact htoken
  obtain ⟨rest, hrest⟩ : w.remoteAfter env (items.length + 2) <+: w₂.remote := by
    have h := World.remoteAfter_mono hlog w (items.length + 2) 1
    rw [show w.remoteAfter env (items.length + 2 + 1) = w'.remote from hafter.remote.symm] at h
    exact h.trans hlater
  have hcur₂ : w₂.db.cursorOf account = some (token (w.remoteAfter env (items.length + 2)).length) := by
    rw [hdb, hcur, htoken]
  have hlen := congrArg List.length hrest
  rw [List.length_append] at hlen
  obtain ⟨n₂, w₃, hrun₂, hremote, hrep₂⟩ := incrementalSync_to_head hq hlog₂ hstill hcur₂ (by omega) hfuel
  refine ⟨n₂, w₃, hrun₂, hremote, ?_⟩
  have hdrop : w₂.remote.drop (w.remoteAfter env (items.length + 2)).length = rest := by
    rw [← hrest, List.drop_left]
  have hlive : liveMetadata w₂.remote = (Cell.plain Metadata).replay
      (liveMetadata (w.remoteAfter env (items.length + 2))) (Event.entries rest) := by
    rw [← hrest, liveMetadata_append]
  -- both sides replay the events after the cursor, from the listing and from the state at the cursor
  rw [hremote, hrep₂.metadata, hdb, initialSync_live hlog hempty hlist hrep, hdrop, hlive, funext_iff]
  refine forall_congr' fun id => ?_
  rw [KeyedLog.replay_plain_eq_iff, exists_touches]

end

/-! ## A reference provider -/

def liveItems (log : List Event) : List CloudItem :=
  log.foldl (fun items event => match event with
    | .put item => items.filter (·.id ≠ item.id) ++ [item]
    | .delete id => items.filter (·.id ≠ id)) []

theorem mem_liveItems (log : List Event) (item : CloudItem) : item ∈ liveItems log ↔ live log item.id = some item := by
  induction log using List.reverseRecOn with
  | nil => simp [liveItems, live]
  | append_singleton log event ih =>
    have hlive : live (log ++ [event]) item.id =
        (Cell.plain CloudItem).actAt item.id (live log item.id) event.entry := by
      unfold live
      rw [List.map_append, Cell.replay_append]; rfl
    rw [hlive]
    unfold liveItems at ih ⊢
    rw [List.foldl_append, List.foldl_cons, List.foldl_nil]
    cases event with
    | put item' =>
      have hput : (Cell.plain CloudItem).actAt item.id (live log item.id) (Event.put item').entry =
          if item'.id = item.id then some item' else live log item.id := by
        show (if item'.id = item.id then _ else _) = _
        cases live log item.id <;> rfl
      simp only [List.mem_append, List.mem_filter, List.mem_singleton, ih, hput]
      by_cases hid : item'.id = item.id
      · simp [hid, eq_comm]
      · simp only [if_neg hid, decide_eq_true_eq]
        refine ⟨?_, fun h => .inl ⟨h, Ne.symm hid⟩⟩
        rintro (⟨h, -⟩ | rfl)
        · exact h
        · exact absurd rfl hid
    | delete id =>
      have hdel : (Cell.plain CloudItem).actAt item.id (live log item.id) (Event.delete id).entry =
          if id = item.id then none else live log item.id := rfl
      simp only [List.mem_filter, ih, hdel]
      by_cases hid : id = item.id
      · simp [hid]
      · simp [hid, Ne.symm hid]

/-- The cursor of a position: as long as the log before it. -/
def position (k : Nat) : Cursor := List.replicate k '.'

def Event.change : Event → Change
  | .put item => ⟨some item, item.id, false, item.modified⟩
  | .delete id => ⟨none, id, true, DateTime.epoch⟩

/-- The provider of a log that grows by `sched n` before step `n` and is served in one page. -/
def Remote.ofLog (sched : Nat → List Event) : Remote (List Event) where
  advance n log := log ++ sched n
  listFolder _ log := .ok (liveItems log)
  getChanges
    | none, log => .ok ⟨[], position log.length, false⟩
    | some cursor, log => .ok ⟨(log.drop cursor.length).map Event.change, position log.length, false⟩

theorem Remote.ofLog_logged (sched : Nat → List Event) : (Remote.ofLog sched).Logged position where
  appends _ _ := List.prefix_append _ _
  lists log := ⟨_, rfl, mem_liveItems log⟩
  head _ := ⟨_, rfl, rfl⟩
  after log k hk := by
    have hchange : ∀ l : List Event, entries (l.map Event.change) = Event.entries l := by
      intro l
      unfold entries Event.entries
      rw [List.map_map, List.map_map]
      refine List.map_congr_left fun event _ => ?_
      cases event <;> rfl
    have hlen : k + (log.length - k) = log.length := by omega
    refine ⟨_, log.length - k, rfl, by omega, fun _ => by omega, ?_, by rw [hlen], by rw [hlen]; simp⟩
    show entries ((log.drop (position k).length).map Event.change) = _
    rw [hchange, position, List.length_replicate, List.take_of_length_le (by rw [List.length_drop])]

/-- A file created after the cursor, while nothing happened between the two calls. -/
theorem listing_then_cursor_sample :
    ∃ w' n₂ w₃, exec (handler (Env.calm (Remote.ofLog fun _ => []))) (initialSync sampleAccount)
        ⟨Database.empty [sampleAccount], [], 0⟩ = (.ok 0, w') ∧
      exec (handler (Env.calm (Remote.ofLog fun _ => []))) (incrementalSync 2 sampleAccount)
        ⟨w'.db, [.put (sampleItem ['f'] ['n'])], 0⟩ = (.ok n₂, w₃) ∧
      w₃.db.metadataOf sampleAccount = liveMetadata w₃.remote := by
  obtain ⟨n₂, w₃, hrun, -, hiff⟩ := listing_then_cursor_iff (Env.calm (Remote.ofLog fun _ => []))
    (Env.calm (Remote.ofLog fun _ => [])) sampleAccount 2 (Remote.ofLog_logged _)
    ⟨Database.empty [sampleAccount], [], 0⟩ ⟨_, [.put (sampleItem ['f'] ['n'])], 0⟩ rfl rfl rfl (Env.calm_quiet _)
    (Remote.ofLog_logged _) (fun _ log => List.append_nil log) rfl List.nil_prefix (by decide)
  exact ⟨_, n₂, w₃, rfl, hrun, hiff.2 fun id h => absurd rfl h⟩

/-- A file created between the listing and the cursor is in neither: no row ever appears for it. -/
theorem listing_then_cursor_loses_event :
    ∃ w' w₃, exec (handler (Env.calm (Remote.ofLog fun n => if n = 1 then [.put (sampleItem ['f'] ['n'])] else [])))
        (initialSync sampleAccount) ⟨Database.empty [sampleAccount], [], 0⟩ = (.ok 0, w') ∧
      exec (handler (Env.calm (Remote.ofLog fun _ => []))) (incrementalSync 2 sampleAccount) w' = (.ok 0, w₃) ∧
      w₃.db.metadataOf sampleAccount ≠ liveMetadata w₃.remote := by
  refine ⟨_, _, rfl, rfl, fun h => ?_⟩
  have hf := congrFun h ⟨['f']⟩
  cases hf

end CloudSync
