/-
Refreshes that follow one another along a change log. A call queues the changed files after its cursor, in the order
of the log, and returns the cursor of the end; so calls that hand over their cursors, while the log grows between them,
queue every changed file after the first cursor once, wherever the pages are cut.
-/
import CloudSync.Sync.Refresh

namespace CloudSync.SyncEngine

/-- A queued refresh of a file: a download of normal priority. -/
def DownloadOf (accountId : AccountId) (operation : SyncOperation) (item : CloudItem) : Prop :=
  ∃ id now, operation = .downloadNormalPriority id now accountId item.id item.path item.size

theorem refreshOperations_downloads (stamp : Stamp) (accountId : AccountId) : ∀ (n : Nat) (items : List CloudItem),
    List.Forall₂ (DownloadOf accountId) (refreshOperations stamp accountId n items) items
  | _, [] => .nil
  | n, _ :: items => .cons ⟨_, _, rfl⟩ (refreshOperations_downloads stamp accountId (n + 1) items)

/-! ## Chains of calls -/

/-- A call of `refresh_sync`: the log at its time, the provider that serves it, and the operations it creates. -/
structure RefreshCall where
  log : List Change
  provider : Provider
  stamp : Stamp

/-- From the cursor of any position the provider gives the log after it, in some pages, the last one with the cursor
of the end. -/
def RefreshCall.Serves (call : RefreshCall) (token : Nat → Cursor) : Prop :=
  ∀ k ≤ call.log.length, ∃ pages page, Feeds call.provider (some (token k)) pages ∧ page ∈ pages.getLast? ∧
    pages.flatMap ChangeList.changes = call.log.drop k ∧ page.cursor = token call.log.length

section

variable (H : OperationHeap) (accountId : AccountId) (rounds : Nat)

/-- Calls one after another, each from the cursor that the one before it has returned; nothing when one of them does
not return a cursor. -/
def refreshAll : List RefreshCall → Cursor → H.Heap → Option (Nat × Cursor × H.Heap)
  | [], cursor, queue => some (0, cursor, queue)
  | call :: calls, cursor, queue =>
    match refreshSync H call.provider call.stamp accountId rounds (some cursor) queue with
    | (some (.ok (queued, cursor)), queue) =>
      (refreshAll calls cursor queue).map fun (total, cursor, queue) => (queued + total, cursor, queue)
    | _ => none

end

variable {H : OperationHeap} {accountId : AccountId}

/-- One call queues the changed files of its pages. -/
theorem refreshSync_pages (accountId : AccountId) {provider : Provider} (stamp : Stamp) {cursor : Cursor}
    {pages : List ChangeList} (h : Feeds provider (some cursor) pages) :
    ∃ page operations, page ∈ pages.getLast? ∧
      List.Forall₂ (DownloadOf accountId) operations ((pages.flatMap ChangeList.changes).filterMap changedFile) ∧
      ∀ (queue : H.Heap) (rounds : Nat), pages.length ≤ rounds →
        refreshSync H provider stamp accountId rounds (some cursor) queue =
          (some (.ok (operations.length, page.cursor)), operations.foldl (SyncQueue.push H) queue) := by
  obtain ⟨page, hpage, hrun⟩ := refreshLoop_pages (H := H) stamp accountId h
  have hdownloads := refreshOperations_downloads stamp accountId 0
    ((pages.flatMap ChangeList.changes).filterMap changedFile)
  refine ⟨page, _, hpage, hdownloads, fun queue rounds hrounds => ?_⟩
  rw [hdownloads.length_eq]
  unfold refreshSync
  rw [hrun 0 queue hrounds, Nat.zero_add]

/-- What is after a position of a log that has grown is what was after it, and the growth. -/
theorem drop_grown {log log' : List Change} (h : log <+: log') {k : Nat} (hk : k ≤ log.length) :
    log'.drop k = log.drop k ++ log'.drop log.length := by
  obtain ⟨rest, rfl⟩ := h
  rw [List.drop_append_of_le_length hk, List.drop_left]

theorem refreshAll_log {token : Nat → Cursor} (last : RefreshCall) (calls : List RefreshCall) :
    ∀ (start : Nat) (queue : H.Heap), (∀ call ∈ calls ++ [last], call.Serves token ∧ start ≤ call.log.length) →
      (calls ++ [last]).Pairwise (fun call later => call.log <+: later.log) →
      ∃ operations, List.Forall₂ (DownloadOf accountId) operations ((last.log.drop start).filterMap changedFile) ∧
        ∃ bound, ∀ rounds, bound ≤ rounds →
          refreshAll H accountId rounds (calls ++ [last]) (token start) queue =
            some (operations.length, token last.log.length, operations.foldl (SyncQueue.push H) queue) := by
  induction calls with
  | nil =>
    intro start queue hserves _
    obtain ⟨hlast, hstart⟩ := hserves last (List.mem_singleton_self last)
    obtain ⟨pages, page, hfeeds, hpage, hchanges, hcursor⟩ := hlast start hstart
    obtain ⟨page', operations, hpage', hdownloads, hrun⟩ :=
      refreshSync_pages (H := H) accountId last.stamp hfeeds
    cases Option.mem_unique hpage hpage'
    refine ⟨operations, hchanges ▸ hdownloads, pages.length, fun rounds hrounds => ?_⟩
    show refreshAll H accountId rounds [last] (token start) queue = _
    unfold refreshAll
    rw [hrun queue rounds hrounds, hcursor]
    rfl
  | cons call calls ih =>
    intro start queue hserves hgrow
    rw [List.cons_append] at hserves hgrow
    obtain ⟨hbefore, hgrow⟩ := List.pairwise_cons.1 hgrow
    obtain ⟨hcall, hstart⟩ := hserves call List.mem_cons_self
    obtain ⟨pages, page, hfeeds, hpage, hchanges, hcursor⟩ := hcall start hstart
    obtain ⟨page', operations, hpage', hdownloads, hrun⟩ :=
      refreshSync_pages (H := H) accountId call.stamp hfeeds
    cases Option.mem_unique hpage hpage'
    -- the other calls go on where this one has ended
    obtain ⟨operations', hdownloads', bound, hrest⟩ := ih call.log.length
      (operations.foldl (SyncQueue.push H) queue)
      (fun later hlater => ⟨(hserves later (List.mem_cons_of_mem _ hlater)).1, (hbefore later hlater).length_le⟩) hgrow
    refine ⟨operations ++ operations', ?_, max pages.length bound, fun rounds hrounds => ?_⟩
    · have hlast : call.log <+: last.log := hbefore last (List.mem_append_right _ (List.mem_singleton_self last))
      rw [drop_grown hlast hstart, List.filterMap_append]
      exact List.rel_append (hchanges ▸ hdownloads) hdownloads'
    · rw [List.cons_append]
      unfold refreshAll
      rw [hrun queue rounds (le_trans (le_max_left _ _) hrounds), hcursor]
      simp only
      rw [hrest rounds (le_trans (le_max_right _ _) hrounds), List.length_append, List.foldl_append]
      rfl

/-- For every log and every cut into pages: a refresh adds one download for each changed file after its cursor, in the
order of the log, to what is queued, and returns their number and the cursor of the last page. And calls that each go
on from the cursor of the one before, while the log grows between them, add one for each changed file after the first
cursor. -/
theorem refresh_queues_once (H : OperationHeap) (accountId : AccountId) :
    (∀ (provider : Provider) (stamp : Stamp) (cursor : Cursor) (pages : List ChangeList),
      Feeds provider (some cursor) pages →
      ∃ page operations, page ∈ pages.getLast? ∧
        List.Forall₂ (DownloadOf accountId) operations ((pages.flatMap ChangeList.changes).filterMap changedFile) ∧
        ∀ (queue : H.Heap) (rounds : Nat), pages.length ≤ rounds → ∃ queue',
          refreshSync H provider stamp accountId rounds (some cursor) queue =
            (some (.ok (operations.length, page.cursor)), queue') ∧
          queue' = operations.foldl (SyncQueue.push H) queue ∧
          SyncQueue.contents H queue' = operations + SyncQueue.contents H queue) ∧
    (∀ (token : Nat → Cursor) (calls : List RefreshCall) (last : RefreshCall) (start : Nat) (queue : H.Heap),
      (∀ call ∈ calls ++ [last], call.Serves token ∧ start ≤ call.log.length) →
      (calls ++ [last]).Pairwise (fun call later => call.log <+: later.log) →
      ∃ operations queue', List.Forall₂ (DownloadOf accountId) operations
          ((last.log.drop start).filterMap changedFile) ∧
        queue' = operations.foldl (SyncQueue.push H) queue ∧
        SyncQueue.contents H queue' = operations + SyncQueue.contents H queue ∧
        ∃ bound, ∀ rounds, bound ≤ rounds →
          refreshAll H accountId rounds (calls ++ [last]) (token start) queue =
            some (operations.length, token last.log.length, queue')) := by
  constructor
  · intro provider stamp cursor pages hfeeds
    obtain ⟨page, operations, hpage, hdownloads, hrun⟩ := refreshSync_pages (H := H) accountId stamp hfeeds
    exact ⟨page, operations, hpage, hdownloads, fun queue rounds hrounds =>
      ⟨_, hrun queue rounds hrounds, rfl, SyncQueue.contents_foldl_push operations queue⟩⟩
  · intro token calls last start queue hserves hgrow
    obtain ⟨operations, hdownloads, bound, hrun⟩ := refreshAll_log last calls start queue hserves hgrow
    exact ⟨operations, _, hdownloads, rfl, SyncQueue.contents_foldl_push operations queue, bound, hrun⟩

/-! ## A provider that cuts its log -/

/-- The cursor of a position. -/
def unary (k : Nat) : Cursor := List.replicate k '1'

/-- A provider of a log, the page after a position having so many changes and one more. -/
def paging (log : List Change) (more : Nat → Nat) : Provider where
  listFolder _ := .ok []
  getChanges
    | none => .ok ⟨[], unary log.length, false⟩
    | some cursor =>
      let size := more cursor.length + 1
      .ok ⟨(log.drop cursor.length).take size, unary (min (cursor.length + size) log.length),
        decide (cursor.length + size < log.length)⟩

theorem paging_feeds (log : List Change) (more : Nat → Nat) (r : Nat) : ∀ k, k + r = log.length →
    ∃ pages page, Feeds (paging log more) (some (unary k)) pages ∧ page ∈ pages.getLast? ∧
      pages.flatMap ChangeList.changes = log.drop k ∧ page.cursor = unary log.length := by
  induction r using Nat.strong_induction_on with
  | _ r ih =>
    intro k hk
    have hlen : (unary k).length = k := List.length_replicate
    by_cases hmore : k + (more k + 1) < log.length
    · obtain ⟨pages, page, hfeeds, hpage, hchanges, hcursor⟩ :=
        ih (r - (more k + 1)) (by omega) (k + (more k + 1)) (by omega)
      have hanswer : (paging log more).getChanges (some (unary k)) =
          .ok ⟨(log.drop k).take (more k + 1), unary (k + (more k + 1)), true⟩ := by
        unfold paging
        simp only [hlen, hmore, decide_true, Nat.min_eq_left (Nat.le_of_lt hmore)]
      refine ⟨_ :: pages, page, .more hanswer rfl hfeeds, ?_, ?_, hcursor⟩
      · rw [List.getLast?_cons, hpage]
        rfl
      · rw [List.flatMap_cons, hchanges, ← List.drop_drop]
        exact List.take_append_drop _ _
    · have hanswer : (paging log more).getChanges (some (unary k)) =
          .ok ⟨(log.drop k).take (more k + 1), unary log.length, false⟩ := by
        unfold paging
        simp only [hlen, hmore, decide_false, Nat.min_eq_right (Nat.le_of_not_lt hmore)]
      refine ⟨[_], _, .last hanswer rfl, rfl, ?_, rfl⟩
      rw [List.flatMap_singleton]
      exact List.take_of_length_le (by rw [List.length_drop]; omega)

/-- However a log is cut, its provider serves it. -/
theorem paging_serves (log : List Change) (more : Nat → Nat) (stamp : Stamp) :
    RefreshCall.Serves ⟨log, paging log more, stamp⟩ unary :=
  fun k hk => paging_feeds log more (log.length - k) k (Nat.add_sub_cancel' hk)

/-- A change of a file, and a deletion. -/
def sampleLog : List Change :=
  [⟨some ⟨⟨['f']⟩, ['n'], CloudPath.new ['n'], false, none, none, DateTime.epoch, none, none⟩, ⟨['f']⟩, false,
      DateTime.epoch⟩,
    ⟨none, ⟨['g']⟩, true, DateTime.epoch⟩]

/-- A call while the log is this one, cut into pages of so many changes. -/
def callAt (log : List Change) (size : Nat) : RefreshCall := ⟨log, paging log fun _ => size - 1, sampleStamp⟩

/-- Two calls, the second one after the log has grown by another change of the file. -/
theorem refresh_queues_sample : ∃ operations, operations.length = 2 ∧
    List.Forall₂ (DownloadOf ⟨['a']⟩) operations ((sampleLog ++ sampleLog).filterMap changedFile) ∧
    ∃ bound, ∀ rounds, bound ≤ rounds →
      (refreshAll (PriorityHeap.sorted _) ⟨['a']⟩ rounds [callAt sampleLog 1, callAt (sampleLog ++ sampleLog) 3]
        (unary 0) (SyncQueue.new _)).map (fun r => (r.1, r.2.1)) = some (2, unary 4) := by
  obtain ⟨operations, queue', hdownloads, -, -, bound, hrun⟩ :=
    (refresh_queues_once (PriorityHeap.sorted _) ⟨['a']⟩).2 unary [callAt sampleLog 1]
      (callAt (sampleLog ++ sampleLog) 3) 0 (SyncQueue.new _)
      (List.forall_mem_cons.2 ⟨⟨paging_serves _ _ _, Nat.zero_le _⟩,
        List.forall_mem_singleton.2 ⟨paging_serves _ _ _, Nat.zero_le _⟩⟩)
      (List.pairwise_pair.2 (List.prefix_append sampleLog sampleLog))
  have hlen : operations.length = 2 := hdownloads.length_eq
  refine ⟨operations, hlen, hdownloads, bound, fun rounds hrounds => ?_⟩
  refine (congrArg (Option.map fun r => (r.1, r.2.1)) (hrun rounds hrounds)).trans ?_
  rw [hlen]
  rfl

end CloudSync.SyncEngine
