/-
Reading a list that stays the same in parts. A part read at a position is some of what is left there, and is empty only
at the end or when nothing was asked for; parts read one behind the other put the list together again.
-/
import Mathlib.Tactic

namespace PartReads

variable {α : Type*}

/-- A read: its position, how many items were asked for, and the part it returned. -/
structure PartRead (α : Type*) where
  pos : Nat
  size : Nat
  part : List α
deriving DecidableEq

/-- What a read of the list may return. -/
structure PartRead.Of (items : List α) (r : PartRead α) : Prop where
  left : r.part <+: items.drop r.pos
  short : r.part.length ≤ r.size
  ended : r.part = [] → r.size = 0 ∨ items.length ≤ r.pos

/-- The first items of what is left, at least one if there is one. -/
theorem PartRead.of_take {items : List α} {pos size n : Nat} (hle : n ≤ size)
    (hpos : 0 < size → pos < items.length → 0 < n) : PartRead.Of items ⟨pos, size, (items.drop pos).take n⟩ where
  left := List.take_prefix n _
  short := (List.length_take_le n _).trans hle
  ended := by
    intro hnil
    have hlength : min n (items.length - pos) = 0 := by
      rw [← List.length_drop, ← List.length_take]
      exact List.length_eq_zero_iff.2 hnil
    by_contra hnot
    push Not at hnot
    obtain ⟨hsize, hleft⟩ : size ≠ 0 ∧ pos < items.length := hnot
    have := hpos (Nat.pos_of_ne_zero hsize) hleft
    omega

/-- The parts together. -/
def assembled (rs : List (PartRead α)) : List α := rs.flatMap PartRead.part

/-- Every read starts where the one before it ended. -/
def Consecutive : Nat → List (PartRead α) → Prop
  | _, [] => True
  | pos, r :: rs => r.pos = pos ∧ Consecutive (pos + r.part.length) rs

theorem take_append_part {items : List α} {r : PartRead α} (h : r.Of items) :
    items.take r.pos ++ r.part = items.take (r.pos + r.part.length) := by
  obtain ⟨rest, hrest⟩ := h.left
  rw [List.take_add, ← hrest, List.take_left']
  rfl

/-- Consecutive parts continue the list from where they start. -/
theorem take_append_assembled {items : List α} : ∀ {pos : Nat} {rs : List (PartRead α)},
    (∀ r ∈ rs, r.Of items) → Consecutive pos rs →
      items.take pos ++ assembled rs = items.take (pos + (assembled rs).length)
  | pos, [], _, _ => by
    show items.take pos ++ [] = items.take (pos + 0)
    rw [List.append_nil, Nat.add_zero]
  | _, r :: rs, hof, ⟨rfl, hrest⟩ => by
    show items.take r.pos ++ (r.part ++ assembled rs) = items.take (r.pos + (r.part ++ assembled rs).length)
    rw [← List.append_assoc, take_append_part (hof r List.mem_cons_self),
      take_append_assembled (fun x hx => hof x (List.mem_cons_of_mem r hx)) hrest, List.length_append, Nat.add_assoc]

/-- Consecutive parts from the start on are the first items. -/
theorem assembled_eq_take {items : List α} {rs : List (PartRead α)} (hof : ∀ r ∈ rs, r.Of items)
    (hrs : Consecutive 0 rs) : assembled rs = items.take (assembled rs).length := by
  have h := take_append_assembled hof hrs
  rw [List.take_zero, List.nil_append, Nat.zero_add] at h
  exact h

/-- A read is at the position that the reads before it have come to. -/
theorem Consecutive.pos_le {pos : Nat} {rs : List (PartRead α)} (h : Consecutive pos rs) {r : PartRead α}
    (hr : r ∈ rs) : r.pos ≤ pos + (assembled rs).length := by
  induction rs generalizing pos with
  | nil => cases hr
  | cons first rs ih =>
    obtain ⟨rfl, hrest⟩ := h
    have hlength : (assembled (first :: rs)).length = first.part.length + (assembled rs).length :=
      List.length_append
    rcases List.mem_cons.1 hr with rfl | hr
    · omega
    · have := ih hrest hr
      omega

/-- Once a read that asked for something returned nothing, the parts are the whole list. -/
theorem assembled_eq_self {items : List α} {rs : List (PartRead α)} (hof : ∀ r ∈ rs, r.Of items)
    (hrs : Consecutive 0 rs) {last : PartRead α} (hlast : last ∈ rs) (hsize : last.size ≠ 0) (hnil : last.part = []) :
    assembled rs = items := by
  have hend : items.length ≤ last.pos := ((hof last hlast).ended hnil).resolve_left hsize
  have hpos := hrs.pos_le hlast
  rw [assembled_eq_take hof hrs]
  exact List.take_of_length_le (by omega)

end PartReads
