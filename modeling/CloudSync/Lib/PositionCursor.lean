/-
Reading a list in parts with a cursor that is a position, while the list changes between the reads. Each read takes
items from the cursor on and moves it past them. An item that is in the list at every read is returned once, less the
times a change carries it behind the cursor, plus the times a change carries it back.
-/
import Mathlib.Data.List.Count
import Mathlib.Tactic

namespace PositionCursor

variable {α : Type*}

/-- A read of the list as it is then, and how many items it takes at most. -/
structure Read (α : Type*) where
  items : List α
  count : Nat

namespace Read

def taken (r : Read α) (cursor : Nat) : List α := (r.items.drop cursor).take r.count

/-- The cursor after the read. -/
def next (r : Read α) (cursor : Nat) : Nat := cursor + (r.taken cursor).length

theorem take_next (r : Read α) (cursor : Nat) :
    r.items.take (r.next cursor) = r.items.take cursor ++ r.taken cursor := by
  unfold next
  rw [List.take_add]
  congr 1
  unfold taken
  rw [List.take_eq_take_iff, List.length_take]
  omega

end Read

/-- The item is before the cursor. -/
def Behind (x : α) (items : List α) (cursor : Nat) : Prop := x ∈ items.take cursor

theorem behind_of_length_le {x : α} {items : List α} {cursor : Nat} (hx : x ∈ items) (h : items.length ≤ cursor) :
    Behind x items cursor := by
  unfold Behind
  rwa [List.take_of_length_le h]

section

variable [BEq α] [LawfulBEq α]

instance (x : α) (items : List α) (cursor : Nat) : Decidable (Behind x items cursor) :=
  inferInstanceAs (Decidable (x ∈ items.take cursor))

/-- How often the item is before the cursor: once or not at all. -/
def behind (x : α) (items : List α) (cursor : Nat) : Nat := if Behind x items cursor then 1 else 0

theorem count_take {x : α} {items : List α} (h : items.count x = 1) (cursor : Nat) :
    (items.take cursor).count x = behind x items cursor := by
  have hle : (items.take cursor).count x ≤ 1 := h ▸ (List.take_sublist cursor items).count_le x
  unfold behind
  by_cases hbehind : Behind x items cursor
  · have hpos : 0 < (items.take cursor).count x := List.count_pos_iff.2 hbehind
    rw [if_pos hbehind]
    omega
  · rw [if_neg hbehind]
    exact List.count_eq_zero.2 hbehind

/-- A read returns what it leaves behind the cursor. -/
theorem Read.count_taken {x : α} (r : Read α) (h : r.items.count x = 1) (cursor : Nat) :
    behind x r.items cursor + (r.taken cursor).count x = behind x r.items (r.next cursor) := by
  rw [← count_take h, ← count_take h, r.take_next, List.count_append]

/-! ## Runs -/

/-- How often the reads return the item. -/
def returned (x : α) : Nat → List (Read α) → Nat
  | _, [] => 0
  | cursor, r :: rs => (r.taken cursor).count x + returned x (r.next cursor) rs

/-- How often the item is carried behind the cursor from one read to the next. -/
def skipped (x : α) : List α → Nat → List (Read α) → Nat
  | _, _, [] => 0
  | items, cursor, r :: rs =>
    (if ¬ Behind x items cursor ∧ Behind x r.items cursor then 1 else 0) + skipped x r.items (r.next cursor) rs

/-- How often it is carried back. -/
def rewound (x : α) : List α → Nat → List (Read α) → Nat
  | _, _, [] => 0
  | items, cursor, r :: rs =>
    (if Behind x items cursor ∧ ¬ Behind x r.items cursor then 1 else 0) + rewound x r.items (r.next cursor) rs

/-- From each read to the next the item stays on its side of the cursor. -/
def Kept (x : α) : List α → Nat → List (Read α) → Prop
  | _, _, [] => True
  | items, cursor, r :: rs =>
    (Behind x items cursor ↔ Behind x r.items cursor) ∧ Kept x r.items (r.next cursor) rs

theorem Kept.not_carried {x : α} {items : List α} {cursor : Nat} {rs : List (Read α)} (h : Kept x items cursor rs) :
    skipped x items cursor rs = 0 ∧ rewound x items cursor rs = 0 := by
  induction rs generalizing items cursor with
  | nil => exact ⟨rfl, rfl⟩
  | cons r rs ih =>
    obtain ⟨hside, hrest⟩ := h
    obtain ⟨hskipped, hrewound⟩ := ih hrest
    unfold skipped rewound
    rw [hskipped, hrewound, if_neg fun hover => hover.1 (hside.2 hover.2),
      if_neg fun hover => hover.2 (hside.1 hover.1)]
    exact ⟨rfl, rfl⟩

/-- The cursor after the reads. -/
def finish (cursor : Nat) (rs : List (Read α)) : Nat := rs.foldl (fun cursor r => r.next cursor) cursor

/-- The list at the last read. -/
def lastItems (items : List α) (rs : List (Read α)) : List α := rs.foldl (fun _ r => r.items) items

/-- A change moves the item over the cursor or leaves it on its side. -/
theorem behind_change (x : α) (items items' : List α) (cursor : Nat) :
    behind x items cursor + (if ¬ Behind x items cursor ∧ Behind x items' cursor then 1 else 0) =
      (if Behind x items cursor ∧ ¬ Behind x items' cursor then 1 else 0) + behind x items' cursor := by
  unfold behind
  by_cases h : Behind x items cursor <;> by_cases h' : Behind x items' cursor <;> simp [h, h']

/-- What is returned and skipped, against what is carried back and what ends behind the cursor. -/
theorem balance {x : α} (items : List α) (cursor : Nat) {rs : List (Read α)} (h : ∀ r ∈ rs, r.items.count x = 1) :
    behind x items cursor + returned x cursor rs + skipped x items cursor rs =
      rewound x items cursor rs + behind x (lastItems items rs) (finish cursor rs) := by
  induction rs generalizing items cursor with
  | nil => exact (Nat.zero_add _).symm
  | cons r rs ih =>
    have hchange := behind_change x items r.items cursor
    have htaken := r.count_taken (h r List.mem_cons_self) cursor
    have hrest := ih r.items (r.next cursor) fun r' hr' => h r' (List.mem_cons_of_mem _ hr')
    unfold returned skipped rewound
    show _ = _ + behind x (lastItems r.items rs) (finish (r.next cursor) rs)
    omega

/-- An item that is in the list at every read, and behind the cursor at the end, is returned exactly once when it is
carried behind the cursor as often as it is carried back. -/
theorem once_iff {x : α} {rs : List (Read α)} (h : ∀ r ∈ rs, r.items.count x = 1)
    (hend : Behind x (lastItems [] rs) (finish 0 rs)) :
    returned x 0 rs = 1 ↔ skipped x [] 0 rs = rewound x [] 0 rs := by
  have hbalance := balance [] 0 h
  have hstart : behind x [] 0 = 0 := rfl
  have hfinish : behind x (lastItems [] rs) (finish 0 rs) = 1 := if_pos hend
  omega

end

end PositionCursor
