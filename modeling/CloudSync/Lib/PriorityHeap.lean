/-
The contract of a binary max-heap under a comparison: what its operations do to the elements it
holds. Which of several greatest elements comes out first, and the order in which the elements are
listed, are left to the implementation. A sorted list is one implementation, and a heap of a finer
order is another.
-/
import Mathlib.Data.List.Sort
import Mathlib.Data.Multiset.Basic
import Mathlib.Tactic

/-- A binary max-heap of `α` under `cmp`. `iter` lists the elements in the heap's own order. -/
structure PriorityHeap (α : Type) (cmp : α → α → Ordering) where
  Heap : Type
  empty : Heap
  iter : Heap → List α
  push : α → Heap → Heap
  peek : Heap → Option α
  pop : Heap → Option (α × Heap)
  drain : Heap → List α × Heap
  collect : List α → Heap
  iter_empty : iter empty = []
  iter_push : ∀ a h, (iter (push a h)).Perm (a :: iter h)
  peek_none : ∀ h, peek h = none ↔ iter h = []
  peek_some : ∀ h a, peek h = some a → a ∈ iter h ∧ ∀ b ∈ iter h, cmp a b ≠ .lt
  pop_none : ∀ h, pop h = none ↔ iter h = []
  pop_some : ∀ h a h', pop h = some (a, h') → (iter h).Perm (a :: iter h') ∧ ∀ b ∈ iter h', cmp a b ≠ .lt
  iter_drain : ∀ h, (drain h).1.Perm (iter h)
  drain_empty : ∀ h, iter (drain h).2 = []
  iter_collect : ∀ l, (iter (collect l)).Perm l

namespace PriorityHeap

variable {α : Type} {cmp : α → α → Ordering}

/-- The elements a heap holds. -/
def elements (H : PriorityHeap α cmp) (h : H.Heap) : Multiset α := H.iter h

/-- The first element with a property, taken out of a list. -/
theorem perm_cons_eraseP {p : α → Bool} : ∀ {l : List α} {a : α}, l.find? p = some a → l.Perm (a :: l.eraseP p)
  | [], _, h => by cases h
  | b :: l, a, h => by
    cases hb : p b with
    | true =>
      rw [List.find?_cons_of_pos hb] at h
      cases h
      rw [List.eraseP_cons_of_pos hb]
    | false =>
      rw [List.find?_cons_of_neg (by rw [hb]; decide)] at h
      rw [List.eraseP_cons_of_neg (by rw [hb]; decide)]
      exact ((perm_cons_eraseP h).cons b).trans (List.Perm.swap a b _)

/-! ## Sorted lists -/

section

variable (cmp)

/-- `a` may stand before `b` in a list sorted from the greatest element down. -/
def NotLess (a b : α) : Prop := cmp a b ≠ .lt

instance : DecidableRel (NotLess cmp) := fun _ _ => inferInstanceAs (Decidable (_ ≠ _))

instance [Std.OrientedCmp cmp] : Std.Total (NotLess cmp) where
  total a b := by
    unfold NotLess
    by_cases h : cmp a b = .lt
    · have hgt : cmp b a = .gt := Std.OrientedCmp.gt_iff_lt.2 h
      exact .inr (by rw [hgt]; decide)
    · exact .inl h

instance [Std.TransCmp cmp] : IsTrans α (NotLess cmp) where
  trans a b c hab hbc := by
    have hab' : (cmp a b).isGE := by cases h : cmp a b <;> first | rfl | exact absurd h hab
    have hbc' : (cmp b c).isGE := by cases h : cmp b c <;> first | rfl | exact absurd h hbc
    have hac := Std.TransCmp.isGE_trans hab' hbc'
    intro h
    rw [h] at hac; cases hac

/-- The heap that keeps its elements in a sorted list. -/
def sorted [Std.TransCmp cmp] : PriorityHeap α cmp where
  Heap := { l : List α // l.Pairwise (NotLess cmp) }
  empty := ⟨[], List.Pairwise.nil⟩
  iter h := h.1
  push a h := ⟨h.1.orderedInsert (NotLess cmp) a, h.2.orderedInsert a h.1⟩
  peek h := h.1.head?
  pop h := match h with
    | ⟨[], _⟩ => none
    | ⟨a :: l, hl⟩ => some (a, ⟨l, hl.of_cons⟩)
  drain h := (h.1, ⟨[], List.Pairwise.nil⟩)
  collect l := ⟨l.insertionSort (NotLess cmp), List.pairwise_insertionSort _ l⟩
  iter_empty := rfl
  iter_push a h := List.perm_orderedInsert _ a h.1
  peek_none h := List.head?_eq_none_iff
  peek_some := by
    rintro ⟨_ | ⟨b, l⟩, hl⟩ a ha
    · cases ha
    · cases ha
      refine ⟨List.mem_cons_self, fun c hc => ?_⟩
      rcases List.mem_cons.1 hc with rfl | hc
      · have hself : cmp c c = .eq := Std.ReflCmp.compare_self
        rw [hself]; decide
      · exact List.rel_of_pairwise_cons hl hc
  pop_none := by
    rintro ⟨_ | ⟨b, l⟩, hl⟩
    · exact ⟨fun _ => rfl, fun _ => rfl⟩
    · exact iff_of_false (fun h => by cases h) (List.cons_ne_nil b l)
  pop_some := by
    rintro ⟨_ | ⟨b, l⟩, hl⟩ a h' ha
    · cases ha
    · cases ha
      exact ⟨List.Perm.refl _, fun c hc => List.rel_of_pairwise_cons hl hc⟩
  iter_drain _ := List.Perm.refl _
  drain_empty _ := rfl
  iter_collect l := List.perm_insertionSort _ l

end

/-! ## Popping until empty -/

section

variable (H : PriorityHeap α cmp)

/-- The elements that come out of at most `n` pops. -/
def popAll : Nat → H.Heap → List α
  | 0, _ => []
  | n + 1, h => match H.pop h with
    | some (a, h') => a :: popAll n h'
    | none => []

/-- Enough pops take everything out. -/
theorem popAll_perm : ∀ (n : Nat) (h : H.Heap), (H.iter h).length ≤ n → (H.popAll n h).Perm (H.iter h)
  | 0, h, hn => by
    rw [List.eq_nil_of_length_eq_zero (Nat.le_zero.1 hn)]; rfl
  | n + 1, h, hn => by
    unfold popAll
    cases hp : H.pop h with
    | none => rw [(H.pop_none h).1 hp]
    | some p =>
      obtain ⟨hperm, -⟩ := H.pop_some h p.1 p.2 hp
      have hlen := hperm.length_eq
      rw [List.length_cons] at hlen
      exact ((popAll_perm n p.2 (by omega)).cons p.1).trans hperm.symm

theorem popAll_subset : ∀ (n : Nat) (h : H.Heap), ∀ a ∈ H.popAll n h, a ∈ H.iter h
  | 0, _, _, ha => by cases ha
  | n + 1, h, a, ha => by
    unfold popAll at ha
    cases hp : H.pop h with
    | none => rw [hp] at ha; cases ha
    | some p =>
      obtain ⟨hperm, -⟩ := H.pop_some h p.1 p.2 hp
      rw [hp] at ha
      rcases List.mem_cons.1 ha with rfl | ha
      · exact hperm.mem_iff.2 List.mem_cons_self
      · exact hperm.mem_iff.2 (List.mem_cons_of_mem _ (popAll_subset n p.2 a ha))

/-- They come out from the greatest down. -/
theorem popAll_pairwise : ∀ (n : Nat) (h : H.Heap), (H.popAll n h).Pairwise (NotLess cmp)
  | 0, _ => List.Pairwise.nil
  | n + 1, h => by
    unfold popAll
    cases hp : H.pop h with
    | none => exact List.Pairwise.nil
    | some p =>
      obtain ⟨-, hmax⟩ := H.pop_some h p.1 p.2 hp
      exact List.pairwise_cons.2 ⟨fun b hb => hmax b (H.popAll_subset n p.2 b hb), popAll_pairwise n p.2⟩

end

/-! ## Finer orders -/

section

variable {fine : α → α → Ordering}

/-- A heap of an order that refines `cmp` is a heap under `cmp`. -/
def coarsen (H : PriorityHeap α fine) (h : ∀ a b, NotLess fine a b → NotLess cmp a b) : PriorityHeap α cmp :=
  { H with
    peek_some := fun q a hq => ⟨(H.peek_some q a hq).1, fun b hb => h a b ((H.peek_some q a hq).2 b hb)⟩
    pop_some := fun q a q' hq => ⟨(H.pop_some q a q' hq).1, fun b hb => h a b ((H.pop_some q a q' hq).2 b hb)⟩ }

theorem coarsen_popAll (H : PriorityHeap α fine) (h : ∀ a b, NotLess fine a b → NotLess cmp a b) :
    ∀ (n : Nat) (q : H.Heap), (H.coarsen h).popAll n q = H.popAll n q
  | 0, _ => rfl
  | n + 1, q => by
    have hpop : (H.coarsen h).pop q = H.pop q := rfl
    simp only [popAll, hpop]
    cases H.pop q with
    | none => rfl
    | some p => exact congrArg (p.1 :: ·) (coarsen_popAll H h n p.2)

end

end PriorityHeap
