/-
Sync operations and `SyncQueue`, the priority queue over a binary heap. Each operation of the queue
has one theorem over the multiset of queued operations. `remove` drains the heap before it looks for
the id and returns early when it finds none: what it keeps is the queue without the removed
operation when the id is there, and nothing when it is not.
-/
import CloudSync.Lib.PriorityHeap
import CloudSync.Core.Types

namespace CloudSync

/-! ## Operations -/

structure OperationId where
  val : Str
deriving DecidableEq

inductive SyncOperationType
  | upload
  | download
  | delete
deriving DecidableEq

/-- The priorities, from the lowest to the highest. -/
inductive SyncPriority
  | low
  | normal
  | high
deriving DecidableEq

/-- The discriminant, by which priorities are ordered. -/
def SyncPriority.rank : SyncPriority → Nat
  | .low => 0
  | .normal => 1
  | .high => 2

structure SyncOperation where
  id : OperationId
  accountId : AccountId
  fileId : FileId
  path : CloudPath
  operationType : SyncOperationType
  priority : SyncPriority
  createdAt : DateTime
  size : Option UInt64
deriving DecidableEq

namespace SyncOperation

/-- `SyncOperation::new`, with the id it generates and the time it reads. -/
def new (id : OperationId) (now : DateTime) (accountId : AccountId) (fileId : FileId) (path : CloudPath)
    (operationType : SyncOperationType) (priority : SyncPriority) (size : Option UInt64) : SyncOperation where
  id := id
  accountId := accountId
  fileId := fileId
  path := path
  operationType := operationType
  priority := priority
  createdAt := now
  size := size

def uploadHighPriority (id : OperationId) (now : DateTime) (accountId : AccountId) (fileId : FileId)
    (path : CloudPath) (size : Option UInt64) : SyncOperation :=
  new id now accountId fileId path .upload .high size

def downloadNormalPriority (id : OperationId) (now : DateTime) (accountId : AccountId) (fileId : FileId)
    (path : CloudPath) (size : Option UInt64) : SyncOperation :=
  new id now accountId fileId path .download .normal size

def downloadHighPriority (id : OperationId) (now : DateTime) (accountId : AccountId) (fileId : FileId)
    (path : CloudPath) (size : Option UInt64) : SyncOperation :=
  new id now accountId fileId path .download .high size

def delete (id : OperationId) (now : DateTime) (accountId : AccountId) (fileId : FileId) (path : CloudPath)
    (priority : SyncPriority) : SyncOperation :=
  new id now accountId fileId path .delete priority none

end SyncOperation

/-- The errors of the sync engine. -/
inductive EngineError
  | queueEmpty
  | operationNotFound (id : Str)
  | sync (message : Str)
  | other (message : Str)
deriving DecidableEq

def EngineError.toString : EngineError → Str
  | .queueEmpty => "Sync queue is empty".toList
  | .operationNotFound id => "Operation with ID ".toList ++ id ++ " not found in queue".toList
  | .sync message => "Sync error: ".toList ++ message
  | .other message => message

/-! ## The order of the queue -/

/-- `Ord` of `DateTime<Utc>`: by second, then by nanosecond. -/
def DateTime.cmp (a b : DateTime) : Ordering := (compare a.secs b.secs).then (compare a.nanos b.nanos)

instance : Std.TransCmp DateTime.cmp := by
  rw [show DateTime.cmp = compareLex (compareOn DateTime.secs) (compareOn DateTime.nanos) from rfl]
  infer_instance

structure QueuedOperation where
  operation : SyncOperation

/-- `PartialEq`: by id. -/
def QueuedOperation.eq (self other : QueuedOperation) : Bool := self.operation.id = other.operation.id

/-- `Ord`: by priority, and the older operation is the greater one within a priority. -/
def QueuedOperation.cmp (self other : QueuedOperation) : Ordering :=
  match compare self.operation.priority.rank other.operation.priority.rank with
  | .eq => DateTime.cmp other.operation.createdAt self.operation.createdAt
  | ordering => ordering

/-- The comparison as a lexicographic one. -/
theorem QueuedOperation.cmp_eq (a b : QueuedOperation) : cmp a b =
    compareLex (compareOn fun q => q.operation.priority.rank)
      (fun a b => compareLex (compareOn fun q : QueuedOperation => q.operation.createdAt.secs)
        (compareOn fun q => q.operation.createdAt.nanos) b a) a b := by
  unfold cmp compareLex compareOn DateTime.cmp
  cases compare a.operation.priority.rank b.operation.priority.rank <;> rfl

instance : Std.TransCmp QueuedOperation.cmp := by
  rw [show QueuedOperation.cmp = _ from funext fun a => funext fun b => QueuedOperation.cmp_eq a b]
  infer_instance

/-! ## The queue -/

/-- A queue is a heap of operations, of any implementation. -/
abbrev OperationHeap := PriorityHeap QueuedOperation QueuedOperation.cmp

namespace SyncQueue

variable (H : OperationHeap)

def new : H.Heap := H.empty

def push (queue : H.Heap) (operation : SyncOperation) : H.Heap := H.push ⟨operation⟩ queue

def pop (queue : H.Heap) : Except EngineError SyncOperation × H.Heap :=
  match H.pop queue with
  | some (queued, queue) => (.ok queued.operation, queue)
  | none => (.error .queueEmpty, queue)

def peek (queue : H.Heap) : Except EngineError SyncOperation :=
  match H.peek queue with
  | some queued => .ok queued.operation
  | none => .error .queueEmpty

def remove (queue : H.Heap) (operationId : OperationId) : Except EngineError SyncOperation × H.Heap :=
  let (operations, queue) := H.drain queue
  -- `position` and `remove` take the first operation with the id out of the vector
  match operations.find? (·.operation.id = operationId) with
  -- the `?` returns here, with the heap drained
  | none => (.error (.operationNotFound operationId.val), queue)
  | some removed => (.ok removed.operation, H.collect (operations.eraseP (·.operation.id = operationId)))

def len (queue : H.Heap) : Nat := (H.iter queue).length

def isEmpty (queue : H.Heap) : Bool := (H.iter queue).isEmpty

/-- The comparison `list` sorts by. -/
def listCmp (a b : SyncOperation) : Ordering :=
  match compare b.priority.rank a.priority.rank with
  | .eq => DateTime.cmp a.createdAt b.createdAt
  | ordering => ordering

def list (queue : H.Heap) : List SyncOperation :=
  ((H.iter queue).map QueuedOperation.operation).mergeSort fun a b => listCmp a b != .gt

def listByPriority (queue : H.Heap) (priority : SyncPriority) : List SyncOperation :=
  ((H.iter queue).filter (·.operation.priority = priority)).map QueuedOperation.operation

def clear (queue : H.Heap) : H.Heap := (H.drain queue).2

/-- The queued operations. -/
def contents (queue : H.Heap) : Multiset SyncOperation := (H.elements queue).map QueuedOperation.operation

variable {H}

theorem card_contents (queue : H.Heap) : (contents H queue).card = len H queue := by
  unfold contents PriorityHeap.elements
  rw [Multiset.card_map, Multiset.coe_card]; rfl

theorem contents_push (queue : H.Heap) (operation : SyncOperation) :
    contents H (push H queue operation) = operation ::ₘ contents H queue := by
  unfold contents push PriorityHeap.elements
  rw [Multiset.coe_eq_coe.2 (H.iter_push ⟨operation⟩ queue), ← Multiset.cons_coe, Multiset.map_cons]

/-- `pop` takes out a greatest operation, and fails exactly when there is none. -/
theorem pop_spec (queue : H.Heap) :
    (∃ operation queue', pop H queue = (.ok operation, queue') ∧ contents H queue = operation ::ₘ contents H queue' ∧
      ∀ other ∈ contents H queue', QueuedOperation.cmp ⟨operation⟩ ⟨other⟩ ≠ .lt) ∨
    (pop H queue = (.error .queueEmpty, queue) ∧ contents H queue = 0) := by
  unfold pop
  cases hp : H.pop queue with
  | none =>
    refine .inr ⟨rfl, ?_⟩
    unfold contents PriorityHeap.elements
    rw [(H.pop_none queue).1 hp]; rfl
  | some p =>
    obtain ⟨queued, queue'⟩ := p
    obtain ⟨hperm, hmax⟩ := H.pop_some queue queued queue' hp
    refine .inl ⟨queued.operation, queue', rfl, ?_, fun other hother => ?_⟩
    · unfold contents PriorityHeap.elements
      rw [Multiset.coe_eq_coe.2 hperm, ← Multiset.cons_coe, Multiset.map_cons]
    · obtain ⟨q, hq, rfl⟩ := Multiset.mem_map.1 hother
      exact hmax q (Multiset.mem_coe.1 hq)

theorem contents_clear (queue : H.Heap) : contents H (clear H queue) = 0 := by
  unfold contents clear PriorityHeap.elements
  rw [H.drain_empty]; rfl

theorem mem_drain {queue : H.Heap} {q : QueuedOperation} : q ∈ (H.drain queue).1 ↔ q ∈ H.iter queue :=
  (H.iter_drain queue).mem_iff

/-- `remove` of an id in the queue takes one operation with the id out of it. -/
theorem remove_found {queue : H.Heap} {id : OperationId} (h : ∃ operation ∈ contents H queue, operation.id = id) :
    ∃ operation queue', remove H queue id = (.ok operation, queue') ∧ operation.id = id ∧
      contents H queue = operation ::ₘ contents H queue' := by
  obtain ⟨operation, hmem, hid⟩ := h
  obtain ⟨q, hq, rfl⟩ := Multiset.mem_map.1 hmem
  have hq : q ∈ (H.drain queue).1 := mem_drain.2 (Multiset.mem_coe.1 hq)
  unfold remove
  simp only
  cases hfind : (H.drain queue).1.find? (·.operation.id = id) with
  | none => exact absurd (decide_eq_true hid) (List.find?_eq_none.1 hfind q hq)
  | some removed =>
    have hremoved : removed.operation.id = id := by simpa using List.find?_some hfind
    refine ⟨removed.operation, _, rfl, hremoved, ?_⟩
    have hperm := (H.iter_drain queue).symm.trans (PriorityHeap.perm_cons_eraseP hfind)
    unfold contents PriorityHeap.elements
    rw [Multiset.coe_eq_coe.2 hperm, ← Multiset.cons_coe, Multiset.map_cons,
      Multiset.coe_eq_coe.2 (H.iter_collect _)]

/-- `remove` of an id not in the queue is refused, and empties the queue. -/
theorem remove_absent {queue : H.Heap} {id : OperationId} (h : ∀ operation ∈ contents H queue, operation.id ≠ id) :
    remove H queue id = (.error (.operationNotFound id.val), (H.drain queue).2) ∧
      contents H (remove H queue id).2 = 0 := by
  have hnone : (H.drain queue).1.find? (·.operation.id = id) = none := by
    refine List.find?_eq_none.2 fun q hq => ?_
    have hid := h q.operation (Multiset.mem_map_of_mem _ (Multiset.mem_coe.2 (mem_drain.1 hq)))
    simpa using hid
  have hremove : remove H queue id = (.error (.operationNotFound id.val), (H.drain queue).2) := by
    unfold remove
    simp only [hnone]
  refine ⟨hremove, ?_⟩
  rw [hremove]
  exact contents_clear queue

/-! ## Failed removals -/

/-- The calls that change a queue. -/
inductive Call
  | push (operation : SyncOperation)
  | pop
  | remove (id : OperationId)
  | clear
deriving DecidableEq

def Call.apply (H : OperationHeap) (queue : H.Heap) : Call → H.Heap
  | .push operation => SyncQueue.push H queue operation
  | .pop => (SyncQueue.pop H queue).2
  | .remove id => (SyncQueue.remove H queue id).2
  | .clear => SyncQueue.clear H queue

/-- The queue after some calls. -/
def run (H : OperationHeap) (calls : List Call) : H.Heap := calls.foldl (Call.apply H) (new H)

/-- The answers of the next `n` pops. -/
def pops (H : OperationHeap) : Nat → H.Heap → List (Except EngineError SyncOperation)
  | 0, _ => []
  | n + 1, queue => (pop H queue).1 :: pops H n (pop H queue).2

theorem pops_empty : ∀ (n : Nat) {queue : H.Heap}, contents H queue = 0 →
    pops H n queue = List.replicate n (.error .queueEmpty)
  | 0, _, _ => rfl
  | n + 1, queue, h => by
    rcases pop_spec queue with ⟨operation, queue', -, hcons, -⟩ | ⟨hpop, -⟩
    · rw [h] at hcons
      exact absurd hcons.symm (Multiset.cons_ne_zero)
    · rw [pops, hpop, pops_empty n h, List.replicate_succ]

/-- Two queues no caller can tell apart: the same operations, length, listing and pops. -/
structure Same (H : OperationHeap) (queue queue' : H.Heap) : Prop where
  contents : contents H queue' = contents H queue
  len : len H queue' = len H queue
  list : list H queue' = list H queue
  pops : ∀ n, pops H n queue' = pops H n queue

theorem iter_nil_iff {queue : H.Heap} : H.iter queue = [] ↔ contents H queue = 0 := by
  unfold contents PriorityHeap.elements
  rw [Multiset.map_eq_zero, Multiset.coe_eq_zero]

theorem same_of_empty {queue queue' : H.Heap} (h : contents H queue = 0) (h' : contents H queue' = 0) :
    Same H queue queue' := by
  have hq := iter_nil_iff.2 h
  have hq' := iter_nil_iff.2 h'
  refine ⟨h'.trans h.symm, ?_, ?_, fun n => (pops_empty n h').trans (pops_empty n h).symm⟩
  · unfold SyncQueue.len; rw [hq, hq']
  · unfold SyncQueue.list; rw [hq, hq']

/-- After any calls, over any heap: removing an id no queued operation has is refused, and it leaves
the queue as it was if and only if the queue was empty. -/
theorem remove_absent_iff (H : OperationHeap) (calls : List Call) (id : OperationId)
    (habsent : ∀ operation ∈ contents H (run H calls), operation.id ≠ id) :
    ((remove H (run H calls) id).1 = .error (.operationNotFound id.val) ∧
        Same H (run H calls) (remove H (run H calls) id).2) ↔ contents H (run H calls) = 0 := by
  obtain ⟨hremove, hempty⟩ := remove_absent habsent
  constructor
  · rintro ⟨-, hsame⟩
    rw [← hsame.contents, hempty]
  · intro h
    refine ⟨?_, same_of_empty h hempty⟩
    rw [hremove]

/-- A high-priority download. -/
def sampleOperation (id : Str) : SyncOperation :=
  .downloadHighPriority ⟨id⟩ DateTime.epoch ⟨['a']⟩ ⟨['f']⟩ (CloudPath.new ['n']) none

theorem remove_absent_cleared :
    (remove (PriorityHeap.sorted _) (run _ [.push (sampleOperation ['1']), .clear]) ⟨['2']⟩).1 =
        .error (.operationNotFound ['2']) ∧
      Same (PriorityHeap.sorted _) (run _ [.push (sampleOperation ['1']), .clear])
        (remove _ (run _ [.push (sampleOperation ['1']), .clear]) ⟨['2']⟩).2 :=
  (remove_absent_iff (PriorityHeap.sorted _) [.push (sampleOperation ['1']), .clear] ⟨['2']⟩
    fun _ h => absurd h (Multiset.notMem_zero _)).2 rfl

/-- A queue with one operation is empty after the removal of another id. -/
theorem remove_absent_empties :
    (∀ operation ∈ contents (PriorityHeap.sorted _) (run _ [.push (sampleOperation ['1'])]), operation.id ≠ ⟨['2']⟩) ∧
      ¬ Same (PriorityHeap.sorted _) (run _ [.push (sampleOperation ['1'])])
        (remove _ (run _ [.push (sampleOperation ['1'])]) ⟨['2']⟩).2 := by
  refine ⟨fun operation h => ?_, fun h => absurd h.len (by decide)⟩
  rw [Multiset.mem_singleton.1 h]
  decide

end SyncQueue

end CloudSync
