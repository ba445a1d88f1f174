/-
The periodic refresh: `refresh_sync` follows the change feed from a cursor and queues a download for every
changed file, and the main loop of the daemon runs it at every tick. The main loop gives it no cursor, and
Drive answers a missing cursor with its present position: a tick queues nothing.
-/
import CloudSync.Sync.Engine
import CloudSync.Providers.GDriveFeed

namespace CloudSync

namespace SyncEngine

/-! ## `refresh_sync` -/

def refreshOperation (stamp : Stamp) (accountId : AccountId) (n : Nat) (item : CloudItem) : SyncOperation :=
  .downloadNormalPriority (stamp n).1 (stamp n).2 accountId item.id item.path item.size

section

variable (H : OperationHeap) (provider : Provider) (stamp : Stamp) (accountId : AccountId)

/-- The body of the loop over the changes. -/
def refreshChange : Nat × H.Heap → Change → Nat × H.Heap
  | (totalQueued, queue), change =>
    if change.deleted then (totalQueued, queue)
    else match change.item with
      | none => (totalQueued, queue)
      | some item =>
        if item.isFolder then (totalQueued, queue)
        else (totalQueued + 1, SyncQueue.push H queue (refreshOperation stamp accountId totalQueued item))

/-- The loop over the pages; it has not returned when the rounds run out. -/
def refreshLoop : Nat → Option Cursor → Nat × H.Heap → Option (Except EngineError (Nat × Cursor)) × H.Heap
  | 0, _, (_, queue) => (none, queue)
  | rounds + 1, currentCursor, (totalQueued, queue) => match provider.getChanges currentCursor with
    | .error e => (some (.error (.sync ("Failed to get changes: ".toList ++ e.toString))), queue)
    | .ok changeList =>
      let (totalQueued, queue) := changeList.changes.foldl (refreshChange H stamp accountId) (totalQueued, queue)
      if !changeList.hasMore then (some (.ok (totalQueued, changeList.cursor)), queue)
      else refreshLoop rounds (some changeList.cursor) (totalQueued, queue)

def refreshSync (rounds : Nat) (cursor : Option Cursor) (queue : H.Heap) :
    Option (Except EngineError (Nat × Cursor)) × H.Heap :=
  refreshLoop H provider stamp accountId rounds cursor (0, queue)

end

/-! ## What a refresh queues -/

/-- The file of a change that has to be downloaded. -/
def changedFile (change : Change) : Option CloudItem :=
  if change.deleted then none else change.item.filter fun item => !item.isFolder

/-- The operations of a refresh for some files, `n` having been created before. -/
def refreshOperations (stamp : Stamp) (accountId : AccountId) : Nat → List CloudItem → List SyncOperation
  | _, [] => []
  | n, item :: items => refreshOperation stamp accountId n item :: refreshOperations stamp accountId (n + 1) items

/-- From a cursor on, or without one, the provider gives these pages. -/
inductive Feeds (provider : Provider) : Option Cursor → List ChangeList → Prop
  | last {cursor : Option Cursor} {page : ChangeList} (h : provider.getChanges cursor = .ok page)
      (hmore : page.hasMore = false) : Feeds provider cursor [page]
  | more {cursor : Option Cursor} {page : ChangeList} {pages : List ChangeList}
      (h : provider.getChanges cursor = .ok page) (hmore : page.hasMore = true)
      (rest : Feeds provider (some page.cursor) pages) : Feeds provider cursor (page :: pages)

section

variable {H : OperationHeap} {provider : Provider} {stamp : Stamp} {accountId : AccountId}

theorem refreshOperations_append : ∀ (n : Nat) (items₁ items₂ : List CloudItem),
    refreshOperations stamp accountId n (items₁ ++ items₂) =
      refreshOperations stamp accountId n items₁ ++ refreshOperations stamp accountId (n + items₁.length) items₂
  | _, [], _ => rfl
  | n, item :: items₁, items₂ => by
    rw [List.cons_append, refreshOperations, refreshOperations, refreshOperations_append, List.cons_append,
      List.length_cons, Nat.add_right_comm, Nat.add_assoc]

/-- The operations are downloads of the files. -/
theorem exists_refreshOperation {item : CloudItem} : ∀ {n : Nat} {items : List CloudItem}, item ∈ items →
    ∃ operation ∈ refreshOperations stamp accountId n items,
      operation.operationType = .download ∧ operation.fileId = item.id
  | n, item' :: items, h => by
    rcases List.mem_cons.1 h with rfl | h
    · exact ⟨_, List.mem_cons_self, rfl, rfl⟩
    · obtain ⟨operation, hmem, hop⟩ := exists_refreshOperation (n := n + 1) h
      exact ⟨operation, List.mem_cons_of_mem _ hmem, hop⟩

theorem refreshChange_eq (acc : Nat × H.Heap) (change : Change) :
    refreshChange H stamp accountId acc change = match changedFile change with
      | none => acc
      | some item => (acc.1 + 1, SyncQueue.push H acc.2 (refreshOperation stamp accountId acc.1 item)) := by
  obtain ⟨totalQueued, queue⟩ := acc
  simp only [refreshChange, changedFile]
  cases change.deleted with
  | true => rfl
  | false =>
    cases change.item with
    | none => rfl
    | some item => cases hfolder : item.isFolder <;> simp [hfolder, Option.filter]

/-- The loop over a page queues the operations of its changed files. -/
theorem foldl_refreshChange (changes : List Change) (n : Nat) (queue : H.Heap) :
    changes.foldl (refreshChange H stamp accountId) (n, queue) =
      (n + (changes.filterMap changedFile).length,
        (refreshOperations stamp accountId n (changes.filterMap changedFile)).foldl (SyncQueue.push H) queue) := by
  induction changes generalizing n queue with
  | nil => rfl
  | cons change changes ih =>
    rw [List.foldl_cons, refreshChange_eq, List.filterMap_cons]
    cases changedFile change with
    | none => exact ih n queue
    | some item =>
      rw [List.length_cons, Nat.add_comm (List.length _), ← Nat.add_assoc]
      exact ih (n + 1) (SyncQueue.push H queue (refreshOperation stamp accountId n item))

variable (stamp accountId) in
/-- With rounds for the pages, the loop queues the operations of all changed files. -/
theorem refreshLoop_pages {cursor : Option Cursor} {pages : List ChangeList} (h : Feeds provider cursor pages) :
    ∃ page, page ∈ pages.getLast? ∧ ∀ {rounds : Nat} (n : Nat) (queue : H.Heap), pages.length ≤ rounds →
      refreshLoop H provider stamp accountId rounds cursor (n, queue) =
        (some (.ok (n + ((pages.flatMap ChangeList.changes).filterMap changedFile).length, page.cursor)),
          (refreshOperations stamp accountId n ((pages.flatMap ChangeList.changes).filterMap changedFile)).foldl
            (SyncQueue.push H) queue) := by
  induction h with
  | @last cursor page h hmore =>
    refine ⟨page, rfl, fun {rounds} n queue hrounds => ?_⟩
    obtain ⟨rounds, rfl⟩ : ∃ k, rounds = k + 1 := Nat.exists_eq_add_of_le' hrounds
    rw [List.flatMap_singleton]
    unfold refreshLoop
    simp only [h, foldl_refreshChange, hmore, Bool.not_false, if_true]
  | @more cursor page pages h hmore rest ih =>
    obtain ⟨lastPage, hlast, hrest⟩ := ih
    refine ⟨lastPage, ?_, fun {rounds} n queue hrounds => ?_⟩
    · rw [List.getLast?_cons, hlast]
      rfl
    · obtain ⟨rounds, rfl⟩ : ∃ k, rounds = k + 1 :=
        Nat.exists_eq_add_of_le' (Nat.le_trans (Nat.le_add_left 1 _) hrounds)
      rw [List.flatMap_cons, List.filterMap_append, List.length_append, refreshOperations_append, List.foldl_append,
        ← Nat.add_assoc]
      unfold refreshLoop
      simp only [h, foldl_refreshChange, hmore, Bool.not_true]
      exact hrest _ _ (Nat.le_of_succ_le_succ hrounds)

end

/-- From a cursor, `refresh_sync` queues every file that changed since, and returns the cursor of the last
page. -/
theorem refreshSync_queues (H : OperationHeap) (provider : Provider) (stamp : Stamp) (accountId : AccountId)
    (rounds : Nat) {cursor : Option Cursor} {pages : List ChangeList} (queue : H.Heap) (h : Feeds provider cursor pages)
    (hrounds : pages.length ≤ rounds) :
    ∃ queued page queue', page ∈ pages.getLast? ∧
      refreshSync H provider stamp accountId rounds cursor queue = (some (.ok (queued, page.cursor)), queue') ∧
      ∀ change ∈ pages.flatMap ChangeList.changes, ∀ item ∈ changedFile change,
        ∃ operation ∈ SyncQueue.contents H queue' - SyncQueue.contents H queue,
          operation.operationType = .download ∧ operation.fileId = item.id := by
  obtain ⟨page, hpage, hrun⟩ := refreshLoop_pages stamp accountId h
  refine ⟨_, page, _, hpage, hrun 0 queue hrounds, fun change hchange item hitem => ?_⟩
  rw [SyncQueue.contents_foldl_push, add_tsub_cancel_right]
  exact exists_refreshOperation (List.mem_filterMap.2 ⟨change, hchange, hitem⟩)

/-! ## The main loop -/

/-- The provider over the answers of the Drive API. -/
def driveProvider (api : GDrive.DriveApi) (now : DateTime) : Provider where
  listFolder path := GDrive.listFolder path api.filesList
  getChanges cursor := GDrive.getChanges api now cursor

/-- A tick of the refresh timer: what changed at the Drive since the previous one, what the Drive API answers
during it, the time, and the operations it creates. -/
structure Tick where
  changes : List GDrive.DriveChange
  api : GDrive.DriveApi
  now : DateTime
  stamp : Stamp

/-- The state of the daemon between two steps of its main loop. -/
structure Daemon (H : OperationHeap) (σ : Type) where
  queue : H.Heap
  disk : σ

section

variable {σ : Type} (ops : LocalOps σ) (localRoot : UnixPath.Text) (H : OperationHeap) (accountId : AccountId)
  (rounds : Nat)

/-- The start of the daemon: `initial_sync`, and the execution of what it queued. -/
def startUp (t : Tick) (disk : σ) : Daemon H σ :=
  let queue := (initialSync H (driveProvider t.api t.now) t.stamp accountId CloudPath.root (SyncQueue.new H)).2
  let (_, queue, disk) := executeOperations ops localRoot H none queue disk
  ⟨queue, disk⟩

variable {H} in
/-- The queue after the `refresh_sync` of a tick. -/
def refreshed (queue : H.Heap) (t : Tick) : H.Heap :=
  let cursor := none
  (refreshSync H (driveProvider t.api t.now) t.stamp accountId rounds cursor queue).2

variable {H} in
def tick (s : Daemon H σ) (t : Tick) : Daemon H σ :=
  let (_, queue, disk) := executeOperations ops localRoot H none (refreshed accountId rounds s.queue t) s.disk
  ⟨queue, disk⟩

/-- The daemon after some ticks. -/
def running (first : Tick) (disk : σ) (ticks : List Tick) : Daemon H σ :=
  ticks.foldl (tick ops localRoot accountId rounds) (startUp ops localRoot H accountId first disk)

/-- The changed file of a change of the feed. -/
def Tick.changedFile (t : Tick) (change : GDrive.DriveChange) : Option CloudItem :=
  (GDrive.toChange t.now change).bind SyncEngine.changedFile

variable {H} in
/-- Every file that changed since the previous tick is queued for download in this one. -/
def Tick.Queues (t : Tick) (queue : H.Heap) : Prop :=
  ∀ change ∈ t.changes, ∀ item ∈ t.changedFile change,
    ∃ operation ∈ SyncQueue.contents H (refreshed accountId rounds queue t) - SyncQueue.contents H queue,
      operation.operationType = .download ∧ operation.fileId = item.id

/-- Without a cursor the provider gives no changes. -/
theorem feeds_none {api : GDrive.DriveApi} (now : DateTime) {token : Str} (h : api.startPageToken = .ok (some token)) :
    Feeds (driveProvider api now) none [⟨[], token, false⟩] := by
  refine .last ?_ rfl
  show GDrive.getChanges api now none = _
  unfold GDrive.getChanges
  simp only [h]

/-- A tick queues nothing. -/
theorem contents_refreshed (queue : H.Heap) (t : Tick) :
    SyncQueue.contents H (refreshed accountId rounds queue t) = SyncQueue.contents H queue := by
  unfold refreshed
  cases rounds with
  | zero => rfl
  | succ rounds =>
    rcases htoken : t.api.startPageToken with e | _ | token
    · unfold refreshSync refreshLoop driveProvider GDrive.getChanges
      simp only [htoken]
    · unfold refreshSync refreshLoop driveProvider GDrive.getChanges
      simp only [htoken]
    · obtain ⟨_, -, hrun⟩ := refreshLoop_pages (H := H) t.stamp accountId (feeds_none t.now htoken)
      show SyncQueue.contents H (refreshLoop H _ t.stamp accountId (rounds + 1) none (0, queue)).2 = _
      rw [hrun 0 queue (Nat.le_add_left 1 rounds)]
      rfl

/-- In a run of the daemon, every tick queues the files that changed since the previous tick if and only if
none changed between two ticks. -/
theorem ticks_queue_iff (first : Tick) (disk : σ) (ticks : List Tick) :
    (∀ past t future, ticks = past ++ t :: future →
        t.Queues accountId rounds (running ops localRoot H accountId rounds first disk past).queue) ↔
      ∀ t ∈ ticks, ∀ change ∈ t.changes, t.changedFile change = none := by
  have hqueues : ∀ (t : Tick) (queue : H.Heap),
      t.Queues accountId rounds queue ↔ ∀ change ∈ t.changes, t.changedFile change = none := by
    intro t queue
    unfold Tick.Queues
    rw [contents_refreshed, tsub_self]
    refine forall₂_congr fun change _ => ?_
    cases t.changedFile change with
    | none => simp
    | some item => simp
  constructor
  · intro h t ht
    obtain ⟨past, future, rfl⟩ := List.append_of_mem ht
    exact (hqueues t _).1 (h past t future rfl)
  · rintro h past t future rfl
    exact (hqueues t _).2 (h t (List.mem_append_right _ List.mem_cons_self))

end

/-- A file of the root changes after the start; the feed has the change from the first cursor on. -/
def sampleTick : Tick where
  changes := [⟨some ['f'], some false, none, some ⟨sampleFile ['f'] ['n'], some false⟩⟩]
  api :=
    { filesList := .ok (some [sampleFile ['f'] ['n']])
      startPageToken := .ok (some ['2'])
      changesList := fun token =>
        if token = ['1'] then
          .ok ⟨some [⟨some ['f'], some false, none, some ⟨sampleFile ['f'] ['n'], some false⟩⟩], none, some ['2']⟩
        else .ok ⟨none, none, some ['2']⟩
      refusesParam := GDrive.setterRefusal }
  now := DateTime.epoch
  stamp := sampleStamp

/-- The start at the first cursor, while the root is empty. -/
def sampleFirst : Tick where
  changes := []
  api := ⟨.ok (some []), .ok (some ['1']), fun _ => .ok ⟨none, none, some ['1']⟩, GDrive.setterRefusal⟩
  now := DateTime.epoch
  stamp := sampleStamp

/-- The changed file is not queued by the tick. -/
theorem tick_misses_change :
    ¬ sampleTick.Queues ⟨['a']⟩ 1
      (running (saving [] sampleContent) ['/', 'r'] (PriorityHeap.sorted _) ⟨['a']⟩ 1 sampleFirst
        (fun _ => none) []).queue := by
  intro h
  obtain ⟨operation, hmem, -⟩ := h _ List.mem_cons_self _ rfl
  cases hmem

end SyncEngine

end CloudSync
