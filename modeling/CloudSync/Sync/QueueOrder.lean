/-
The order in which `SyncQueue` serves its operations, over every heap. In every run the queue holds
what was pushed and not taken out, and a pop takes an operation that none of the others precedes.
Operations that tie in priority and creation time may come out in any order, so the queue is first in,
first out within a priority exactly when no two different operations tie.
-/
import CloudSync.Sync.Queue

namespace CloudSync.SyncQueue

open PriorityHeap (NotLess)

/-! ## The order of operations -/

/-- `a` is to be served before `b`: it has a higher priority, or the same and is older. -/
def Precedes (a b : SyncOperation) : Prop :=
  b.priority.rank < a.priority.rank ∨
    a.priority.rank = b.priority.rank ∧ DateTime.cmp a.createdAt b.createdAt = .lt

/-- The greater operation of the heap is the one that precedes. -/
theorem cmp_lt_iff (a b : SyncOperation) : QueuedOperation.cmp ⟨a⟩ ⟨b⟩ = .lt ↔ Precedes b a := by
  unfold QueuedOperation.cmp Precedes
  cases h : compare a.priority.rank b.priority.rank with
  | lt => exact iff_of_true rfl (.inl (Nat.compare_eq_lt.1 h))
  | eq =>
    have heq := Nat.compare_eq_eq.1 h
    exact ⟨fun hlt => .inr ⟨heq.symm, hlt⟩, fun hprec => hprec.elim (fun hlt => by omega) And.right⟩
  | gt =>
    have hgt := Nat.compare_eq_gt.1 h
    refine iff_of_false (by simp) ?_
    rintro (hlt | ⟨heq, -⟩) <;> omega

/-- `list` compares as the heap does. -/
theorem listCmp_gt_iff (a b : SyncOperation) : listCmp a b = .gt ↔ Precedes b a := by
  unfold listCmp Precedes
  cases h : compare b.priority.rank a.priority.rank with
  | lt =>
    have hlt := Nat.compare_eq_lt.1 h
    refine iff_of_false (by simp) ?_
    rintro (hgt | ⟨heq, -⟩) <;> omega
  | eq =>
    have heq := Nat.compare_eq_eq.1 h
    exact ⟨fun hgt => .inr ⟨heq, Std.OrientedCmp.gt_iff_lt.1 hgt⟩,
      fun hprec => hprec.elim (fun hlt => by omega) fun h => Std.OrientedCmp.gt_iff_lt.2 h.2⟩
  | gt => exact iff_of_true rfl (.inl (Nat.compare_eq_gt.1 h))

/-- The answers of pops until the queue is empty. -/
def popAll (H : OperationHeap) : Nat → H.Heap → List SyncOperation
  | 0, _ => []
  | n + 1, queue => match pop H queue with
    | (.ok operation, queue) => operation :: popAll H n queue
    | (.error _, _) => []

def drained (H : OperationHeap) (queue : H.Heap) : List SyncOperation := popAll H (len H queue) queue

theorem popAll_eq (H : OperationHeap) : ∀ (n : Nat) (queue : H.Heap),
    popAll H n queue = (H.popAll n queue).map QueuedOperation.operation
  | 0, _ => rfl
  | n + 1, queue => by
    unfold popAll pop PriorityHeap.popAll
    cases H.pop queue with
    | none => rfl
    | some p => exact congrArg (p.1.operation :: ·) (popAll_eq H n p.2)

/-- The pops take everything out, and nothing comes out before an operation that precedes it. -/
theorem drained_spec (H : OperationHeap) (queue : H.Heap) :
    (drained H queue : Multiset SyncOperation) = contents H queue ∧
      (drained H queue).Pairwise fun a b => ¬ Precedes b a := by
  unfold drained
  rw [popAll_eq]
  constructor
  · rw [← Multiset.map_coe, Multiset.coe_eq_coe.2 (H.popAll_perm (len H queue) queue (Nat.le_refl _))]; rfl
  · refine List.pairwise_map.2 ((H.popAll_pairwise _ queue).imp fun {a b} hab => ?_)
    rw [← cmp_lt_iff]; exact hab

/-! ## The ledger of a run -/

/-- The calls on a queue. -/
inductive Access
  | push (operation : SyncOperation)
  | pop
  | peek
  | remove (id : OperationId)
  | clear
deriving DecidableEq

/-- A queue, with everything that was pushed to it and how it left. -/
structure Audited (H : OperationHeap) where
  queue : H.Heap
  pushed : Multiset SyncOperation
  popped : Multiset SyncOperation
  removed : Multiset SyncOperation
  cleared : Multiset SyncOperation

namespace Audited

variable (H : OperationHeap)

def start : Audited H := ⟨new H, 0, 0, 0, 0⟩

/-- One call; a removal has to succeed. -/
def access (s : Audited H) : Access → Option (Audited H)
  | .push operation => some { s with queue := push H s.queue operation, pushed := operation ::ₘ s.pushed }
  | .pop => match pop H s.queue with
    | (.ok operation, queue) => some { s with queue := queue, popped := operation ::ₘ s.popped }
    | (.error _, queue) => some { s with queue := queue }
  | .peek => some s
  | .remove id => match remove H s.queue id with
    | (.ok operation, queue) => some { s with queue := queue, removed := operation ::ₘ s.removed }
    | (.error _, _) => none
  | .clear => some { s with queue := clear H s.queue, cleared := contents H s.queue + s.cleared }

def run (accesses : List Access) : Option (Audited H) := accesses.foldlM (access H) (start H)

/-- What is queued is what was pushed and has not left. -/
def Balanced (s : Audited H) : Prop := contents H s.queue + s.popped + s.removed + s.cleared = s.pushed

variable {H}

theorem contents_new : contents H (new H) = 0 := by
  unfold contents new PriorityHeap.elements
  rw [H.iter_empty]; rfl

/-- A removal either finds no operation with the id, or takes one with the id out. -/
theorem remove_ok {queue queue' : H.Heap} {id : OperationId} {operation : SyncOperation}
    (h : remove H queue id = (.ok operation, queue')) :
    operation.id = id ∧ contents H queue = operation ::ₘ contents H queue' := by
  by_cases hmem : ∃ operation ∈ contents H queue, operation.id = id
  · obtain ⟨operation', queue'', hremove, hid, hcons⟩ := remove_found hmem
    rw [h] at hremove; cases hremove
    exact ⟨hid, hcons⟩
  · have hnot : ∀ operation ∈ contents H queue, operation.id ≠ id := fun o ho hid => hmem ⟨o, ho, hid⟩
    have habsent := (remove_absent hnot).1
    rw [h] at habsent; cases habsent

theorem Balanced.access {s s' : Audited H} (h : s.Balanced) {a : Access} (hstep : s.access H a = some s') :
    s'.Balanced := by
  unfold Balanced at h ⊢
  cases a with
  | push operation =>
    cases hstep
    rw [contents_push, Multiset.cons_add, Multiset.cons_add, Multiset.cons_add, h]
  | pop =>
    unfold Audited.access at hstep
    rcases pop_spec s.queue with ⟨operation, queue', hpop, hcons, -⟩ | ⟨hpop, -⟩
    · simp only [hpop] at hstep
      cases hstep
      rw [← h, hcons, Multiset.cons_add, Multiset.add_cons]
    · simp only [hpop] at hstep
      cases hstep
      exact h
  | peek => cases hstep; exact h
  | remove id =>
    unfold Audited.access at hstep
    rcases hremove : SyncQueue.remove H s.queue id with ⟨e | operation, queue'⟩
    · simp only [hremove] at hstep; cases hstep
    · simp only [hremove] at hstep
      cases hstep
      obtain ⟨-, hcons⟩ := remove_ok hremove
      rw [← h, hcons, Multiset.cons_add, Multiset.add_cons]; simp
  | clear =>
    cases hstep
    rw [contents_clear, ← h]
    show 0 + s.popped + s.removed + (contents H s.queue + s.cleared) = _
    rw [zero_add, add_left_comm, ← add_assoc, ← add_assoc]

theorem run_balanced {accesses : List Access} {s : Audited H} (hrun : run H accesses = some s) : s.Balanced := by
  have hstart : (start H).Balanced := by
    unfold Balanced start
    rw [contents_new]; rfl
  suffices h : ∀ (accesses : List Access) (s₀ : Audited H), s₀.Balanced → accesses.foldlM (access H) s₀ = some s →
      s.Balanced from h accesses (start H) hstart hrun
  intro accesses
  induction accesses with
  | nil => intro s₀ h₀ hs; cases hs; exact h₀
  | cons a accesses ih =>
    intro s₀ h₀ hs
    obtain ⟨s₁, hstep, hrest⟩ := Option.bind_eq_some_iff.1 hs
    exact ih s₁ (h₀.access hstep) hrest

end Audited

/-- In every run with successful removals, over any heap: the queue holds what was pushed minus what
left it; `pop` fails exactly on the empty queue and otherwise takes out an operation that none left
precedes; `remove` takes out one operation, with the id; and popping until empty gives all of them in
order. -/
theorem queue_conserves (H : OperationHeap) (accesses : List Access) (s : Audited H)
    (hrun : Audited.run H accesses = some s) :
    (contents H s.queue = s.pushed - s.popped - s.removed - s.cleared ∧
        s.popped + s.removed + s.cleared ≤ s.pushed) ∧
      (contents H s.queue = 0 → (pop H s.queue).1 = .error .queueEmpty) ∧
      (contents H s.queue ≠ 0 → ∃ operation queue, pop H s.queue = (.ok operation, queue) ∧
        contents H s.queue = operation ::ₘ contents H queue ∧
        ∀ other ∈ contents H queue, ¬ Precedes other operation) ∧
      (∀ id operation queue, remove H s.queue id = (.ok operation, queue) →
        operation.id = id ∧ contents H s.queue = operation ::ₘ contents H queue) ∧
      (drained H s.queue : Multiset SyncOperation) = contents H s.queue ∧
        (drained H s.queue).Pairwise fun a b => ¬ Precedes b a := by
  have hbalanced : s.pushed = contents H s.queue + (s.popped + s.removed + s.cleared) := by
    rw [← Audited.run_balanced hrun]; simp only [add_assoc]
  refine ⟨⟨?_, ?_⟩, fun hempty => ?_, fun hne => ?_, fun _ _ _ => Audited.remove_ok, drained_spec H s.queue⟩
  · rw [tsub_tsub, tsub_tsub, hbalanced, ← add_assoc s.popped, add_tsub_cancel_right]
  · rw [hbalanced]; exact Multiset.le_add_left _ _
  · rcases pop_spec s.queue with ⟨operation, queue, -, hcons, -⟩ | ⟨hpop, -⟩
    · rw [hempty] at hcons
      exact absurd hcons.symm Multiset.cons_ne_zero
    · rw [hpop]
  · rcases pop_spec s.queue with ⟨operation, queue, hpop, hcons, hmax⟩ | ⟨-, hempty⟩
    · exact ⟨operation, queue, hpop, hcons, fun other hother => by rw [← cmp_lt_iff]; exact hmax other hother⟩
    · exact absurd hempty hne

theorem queue_conserves_sample :
    ∃ s, Audited.run (PriorityHeap.sorted _) [.push (sampleOperation ['1']), .push (sampleOperation ['2']),
        .remove ⟨['1']⟩, .peek, .pop] = some s ∧
      contents _ s.queue = s.pushed - s.popped - s.removed - s.cleared :=
  ⟨_, rfl, (queue_conserves (PriorityHeap.sorted _) [.push (sampleOperation ['1']), .push (sampleOperation ['2']),
    .remove ⟨['1']⟩, .peek, .pop] _ rfl).1.1⟩

/-! ## First in, first out -/

/-- The order `list` and the pops keep. -/
theorem not_precedes_iff (a b : SyncOperation) : ¬ Precedes b a ↔ NotLess QueuedOperation.cmp ⟨a⟩ ⟨b⟩ := by
  rw [← cmp_lt_iff]; rfl

theorem not_precedes_trans {a b c : SyncOperation} (hab : ¬ Precedes b a) (hbc : ¬ Precedes c b) :
    ¬ Precedes c a := by
  rw [not_precedes_iff] at hab hbc ⊢
  exact IsTrans.trans _ _ _ hab hbc

theorem not_precedes_total (a b : SyncOperation) : ¬ Precedes b a ∨ ¬ Precedes a b := by
  rw [not_precedes_iff, not_precedes_iff]
  exact Std.Total.total _ _

/-- Two operations neither of which precedes the other tie. -/
theorem ties {a b : SyncOperation} (hab : ¬ Precedes b a) (hba : ¬ Precedes a b) :
    a.priority = b.priority ∧ a.createdAt = b.createdAt := by
  unfold Precedes at hab hba
  have hrank : a.priority.rank = b.priority.rank := by omega
  have hlt : DateTime.cmp a.createdAt b.createdAt ≠ .lt := fun h => hba (.inr ⟨hrank, h⟩)
  have hgt : DateTime.cmp a.createdAt b.createdAt ≠ .gt := fun h =>
    hab (.inr ⟨hrank.symm, Std.OrientedCmp.gt_iff_lt.1 h⟩)
  have heq : DateTime.cmp a.createdAt b.createdAt = .eq := by
    cases h : DateTime.cmp a.createdAt b.createdAt <;> simp_all
  constructor
  · cases ha : a.priority <;> cases hb : b.priority <;> simp_all [SyncPriority.rank]
  · obtain ⟨hsecs, hnanos⟩ := Ordering.then_eq_eq.1 heq
    cases ha : a.createdAt
    cases hb : b.createdAt
    simp only [ha, hb, Int.compare_eq_eq, Nat.compare_eq_eq] at hsecs hnanos
    simp only [hsecs, hnanos]

/-- The queue after some pushes. -/
def pushAll (H : OperationHeap) (operations : List SyncOperation) : H.Heap := operations.foldl (push H) (new H)

/-- The operations sorted by priority, those of one priority in their order. -/
def fifo (operations : List SyncOperation) : List SyncOperation :=
  operations.mergeSort fun a b => decide (b.priority.rank ≤ a.priority.rank)

/-- No operation is older than one before it. -/
def InOrder (operations : List SyncOperation) : Prop :=
  operations.Pairwise fun a b => DateTime.cmp a.createdAt b.createdAt ≠ .gt

theorem contents_foldl_push (operations : List SyncOperation) (queue : H.Heap) :
    contents H (operations.foldl (push H) queue) = operations + contents H queue := by
  induction operations generalizing queue with
  | nil => rw [Multiset.coe_nil, Multiset.zero_add, List.foldl_nil]
  | cons operation operations ih =>
    rw [List.foldl_cons, ih, contents_push, ← Multiset.cons_coe, Multiset.cons_add, Multiset.add_cons]

theorem contents_pushAll (H : OperationHeap) (operations : List SyncOperation) :
    contents H (pushAll H operations) = (operations : Multiset SyncOperation) := by
  unfold pushAll
  rw [contents_foldl_push, Audited.contents_new, add_zero]

/-- `list` has all operations of the queue in order. -/
theorem list_spec (H : OperationHeap) (queue : H.Heap) :
    (list H queue : Multiset SyncOperation) = contents H queue ∧
      (list H queue).Pairwise fun a b => ¬ Precedes b a := by
  have hle : ∀ a b, (listCmp a b != .gt) = true ↔ ¬ Precedes b a := fun a b => by
    rw [bne_iff_ne, Ne, listCmp_gt_iff]
  unfold list
  constructor
  · rw [Multiset.coe_eq_coe.2 (List.mergeSort_perm _ _)]; rfl
  · refine (List.pairwise_mergeSort (fun a b c hab hbc => ?_) (fun a b => ?_) _).imp fun {a b} h => (hle a b).1 h
    · exact (hle a c).2 (not_precedes_trans ((hle a b).1 hab) ((hle b c).1 hbc))
    · rw [Bool.or_eq_true, hle, hle]; exact not_precedes_total a b

/-- A stable sort keeps the operations of one priority in their order. -/
theorem fifo_sublist {operations : List SyncOperation} {a b : SyncOperation} (h : [a, b].Sublist (fifo operations))
    (hrank : a.priority.rank = b.priority.rank) : [a, b].Sublist operations := by
  let same : SyncOperation → Bool := fun x => decide (x.priority.rank = a.priority.rank)
  have hkeeps : (operations.filter same).Sublist (fifo operations) := by
    refine List.sublist_mergeSort (fun a b c hab hbc => ?_) (fun a b => ?_) ?_ List.filter_sublist
    · simp only [decide_eq_true_eq] at hab hbc ⊢; omega
    · simp only [Bool.or_eq_true, decide_eq_true_eq]; omega
    · refine List.pairwise_of_forall_mem_list fun x hx y hy => ?_
      have hx := (List.mem_filter.1 hx).2
      have hy := (List.mem_filter.1 hy).2
      simp only [same, decide_eq_true_eq] at hx hy ⊢
      omega
  have hfilter : (fifo operations).filter same = operations.filter same := by
    have hsub := hkeeps.filter same
    rw [List.filter_filter] at hsub
    simp only [Bool.and_self] at hsub
    exact (hsub.eq_of_length ((List.mergeSort_perm operations _).filter same).length_eq.symm).symm
  have hpair : [a, b].filter same = [a, b] := by simp [same, hrank]
  have hsub := h.filter same
  rw [hfilter, hpair] at hsub
  exact hsub.trans List.filter_sublist

theorem fifo_pairwise {operations : List SyncOperation} (h : InOrder operations) :
    (fifo operations).Pairwise fun a b => ¬ Precedes b a := by
  rw [List.pairwise_iff_forall_sublist]
  rintro a b hab (hlt | ⟨hrank, hcmp⟩)
  · have hsorted : (fifo operations).Pairwise fun a b => decide (b.priority.rank ≤ a.priority.rank) = true := by
      refine List.pairwise_mergeSort (fun a b c hab hbc => ?_) (fun a b => ?_) operations
      · simp only [decide_eq_true_eq] at hab hbc ⊢; omega
      · simp only [Bool.or_eq_true, decide_eq_true_eq]; omega
    have hle := List.pairwise_iff_forall_sublist.1 hsorted hab
    simp only [decide_eq_true_eq] at hle
    omega
  · have horder := List.pairwise_iff_forall_sublist.1 h (fifo_sublist hab hrank.symm)
    exact horder (Std.OrientedCmp.gt_iff_lt.2 hcmp)

/-- Without ties there is only one order. -/
theorem eq_of_in_order {l₁ l₂ : List SyncOperation} (h₁ : l₁.Pairwise fun a b => ¬ Precedes b a)
    (h₂ : l₂.Pairwise fun a b => ¬ Precedes b a) (hperm : l₁.Perm l₂)
    (hties : ∀ a ∈ l₂, ∀ b ∈ l₂, a.priority = b.priority → a.createdAt = b.createdAt → a = b) : l₁ = l₂ := by
  refine List.Perm.eq_of_pairwise (fun a b ha hb hab hba => ?_) h₁ h₂ hperm
  obtain ⟨hpriority, hcreated⟩ := ties hab hba
  exact hties a (hperm.mem_iff.1 ha) b hb hpriority hcreated

/-! ## A heap that serves one operation before those it ties with -/

/-- The order of the heap, with `first` the greatest among those it ties with. -/
def favouring (first : SyncOperation) : QueuedOperation → QueuedOperation → Ordering :=
  compareLex QueuedOperation.cmp (compareOn fun q => if q.operation = first then 1 else 0)

instance (first : SyncOperation) : Std.TransCmp (favouring first) := by unfold favouring; infer_instance

theorem favouring_refines {first : SyncOperation} {a b : QueuedOperation} (h : NotLess (favouring first) a b) :
    NotLess QueuedOperation.cmp a b := by
  intro hlt
  apply h
  unfold favouring compareLex
  rw [hlt]; rfl

def favouringHeap (first : SyncOperation) : OperationHeap :=
  (PriorityHeap.sorted (favouring first)).coarsen fun _ _ => favouring_refines

/-- Nothing that ties with `first` is served before it. -/
theorem favouring_first {first other : SyncOperation} {queue : (favouringHeap first).Heap}
    (h : [other, first].Sublist (drained _ queue)) (hpriority : other.priority = first.priority)
    (hcreated : other.createdAt = first.createdAt) : other = first := by
  by_contra hne
  have hpairs : (drained (favouringHeap first) queue).Pairwise fun a b => NotLess (favouring first) ⟨a⟩ ⟨b⟩ := by
    unfold drained
    rw [popAll_eq]
    refine List.pairwise_map.2 ?_
    rw [show PriorityHeap.popAll (favouringHeap first) (len _ queue) queue = _ from
      PriorityHeap.coarsen_popAll (PriorityHeap.sorted (favouring first)) (fun _ _ => favouring_refines) _ queue]
    exact (PriorityHeap.sorted (favouring first)).popAll_pairwise _ queue
  refine List.pairwise_iff_forall_sublist.1 hpairs h ?_
  have htie : QueuedOperation.cmp ⟨other⟩ ⟨first⟩ = .eq := by
    unfold QueuedOperation.cmp
    have hself : DateTime.cmp first.createdAt first.createdAt = .eq := Std.ReflCmp.compare_self
    simp only [hpriority, hcreated, Nat.compare_eq_eq.2, hself]
  unfold favouring compareLex
  rw [htie]
  show compare (if other = first then 1 else 0) (if first = first then 1 else 0) = Ordering.lt
  rw [if_neg hne, if_pos rfl]; rfl

/-- Of operations pushed in the order of their creation: over every heap `list` and the pops until
empty are the stable sort by priority if and only if no two different operations have the same
priority and creation time. -/
theorem fifo_iff (operations : List SyncOperation) (horder : InOrder operations) :
    (∀ H : OperationHeap, list H (pushAll H operations) = fifo operations ∧
        drained H (pushAll H operations) = fifo operations) ↔
      ∀ a ∈ operations, ∀ b ∈ operations, a.priority = b.priority → a.createdAt = b.createdAt → a = b := by
  have hfifo : ∀ {a}, a ∈ fifo operations ↔ a ∈ operations := List.mem_mergeSort
  constructor
  · intro h a ha b hb hpriority hcreated
    by_contra hne
    -- each of the two is served first by the heap that favours it
    have hsymm : Std.Symm fun x y => ¬ ((x = a ∧ y = b) ∨ (x = b ∧ y = a)) :=
      ⟨fun x y hxy hyx => hxy (hyx.elim (fun h => .inr h.symm) fun h => .inl h.symm)⟩
    have hneither : (fifo operations).Pairwise fun x y => ¬ ((x = a ∧ y = b) ∨ (x = b ∧ y = a)) := by
      refine List.pairwise_iff_forall_sublist.2 fun {x y} hxy => ?_
      rintro (⟨rfl, rfl⟩ | ⟨rfl, rfl⟩)
      · exact hne (favouring_first ((h (favouringHeap y)).2 ▸ hxy) hpriority hcreated)
      · exact hne (favouring_first ((h (favouringHeap y)).2 ▸ hxy) hpriority.symm hcreated.symm).symm
    exact hneither.forall (hfifo.2 ha) (hfifo.2 hb) hne (.inl ⟨rfl, rfl⟩)
  · intro hties H
    have hperm : ∀ {l : List SyncOperation}, (l : Multiset SyncOperation) = contents H (pushAll H operations) →
        l.Perm (fifo operations) := by
      intro l hl
      rw [contents_pushAll, Multiset.coe_eq_coe] at hl
      exact hl.trans (List.mergeSort_perm operations _).symm
    have hties' : ∀ a ∈ fifo operations, ∀ b ∈ fifo operations, a.priority = b.priority →
        a.createdAt = b.createdAt → a = b := fun a ha b hb => hties a (hfifo.1 ha) b (hfifo.1 hb)
    obtain ⟨hlist, hlistOrder⟩ := list_spec H (pushAll H operations)
    obtain ⟨hdrained, hdrainedOrder⟩ := drained_spec H (pushAll H operations)
    exact ⟨eq_of_in_order hlistOrder (fifo_pairwise horder) (hperm hlist) hties',
      eq_of_in_order hdrainedOrder (fifo_pairwise horder) (hperm hdrained) hties'⟩

/-- A low-priority deletion, created with the sample download. -/
def sampleDeletion : SyncOperation := .delete ⟨['3']⟩ DateTime.epoch ⟨['a']⟩ ⟨['f']⟩ (CloudPath.new ['n']) .low

theorem fifo_sample :
    list (PriorityHeap.sorted _) (pushAll _ [sampleDeletion, sampleOperation ['1']]) =
        fifo [sampleDeletion, sampleOperation ['1']] ∧
      drained (PriorityHeap.sorted _) (pushAll _ [sampleDeletion, sampleOperation ['1']]) =
        fifo [sampleDeletion, sampleOperation ['1']] :=
  (fifo_iff [sampleDeletion, sampleOperation ['1']] (by unfold InOrder; decide)).2 (by decide) (PriorityHeap.sorted _)

/-- Four downloads of one priority, created at one instant. -/
def simultaneous : List SyncOperation :=
  [sampleOperation ['1'], sampleOperation ['2'], sampleOperation ['3'], sampleOperation ['4']]

/-- A heap may serve them in another order than that of the pushes. -/
theorem fifo_tie : InOrder simultaneous ∧
    ¬ ∀ H : OperationHeap, list H (pushAll H simultaneous) = fifo simultaneous ∧
      drained H (pushAll H simultaneous) = fifo simultaneous := by
  refine ⟨by unfold InOrder; decide, fun h => ?_⟩
  have hserved := (h (PriorityHeap.sorted _)).2
  have hfifo : fifo simultaneous = simultaneous := by
    unfold fifo
    exact List.mergeSort_of_pairwise (by decide)
  have hpopped : drained (PriorityHeap.sorted _) (pushAll _ simultaneous) = simultaneous.reverse := by decide
  rw [hfifo, hpopped] at hserved
  revert hserved
  decide

end CloudSync.SyncQueue
