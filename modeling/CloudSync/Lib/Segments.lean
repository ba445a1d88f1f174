/-
The non-empty segments of a list between separators. Separators at either end, and repeated ones, make no segment.
-/
import CloudSync.Lib.LastSeparator

namespace LastSeparator

variable {α : Type*} [DecidableEq α] {sep : α}

/-- The non-empty segments between separators. -/
def segments (sep : α) (l : List α) : List (List α) := (l.splitOn sep).filter (· ≠ [])

@[simp] theorem segments_nil : segments sep [] = [] := by
  unfold segments
  rw [List.splitOn_nil]
  rfl

/-- The segments on the two sides of a separator. -/
theorem segments_append_cons (front back : List α) :
    segments sep (front ++ sep :: back) = segments sep front ++ segments sep back := by
  unfold segments
  rw [List.splitOn_append_cons_self, List.filter_append]

@[simp] theorem segments_cons (l : List α) : segments sep (sep :: l) = segments sep l := by
  have happend : segments sep ([] ++ sep :: l) = segments sep [] ++ segments sep l := segments_append_cons [] l
  rwa [segments_nil, List.nil_append, List.nil_append] at happend

/-- A name is one segment. -/
theorem segments_name {name : List α} (hne : name ≠ []) (h : sep ∉ name) : segments sep name = [name] := by
  unfold segments
  rw [List.splitOn_eq_singleton h, List.filter_cons_of_pos (by simpa using hne), List.filter_nil]

theorem segments_replicate (l : List α) (n : Nat) :
    segments sep (l ++ List.replicate n sep) = segments sep l := by
  induction n with
  | zero => rw [List.replicate_zero, List.append_nil]
  | succ n ih =>
    rw [List.replicate_succ', ← List.append_assoc, segments_append_cons, ih, segments_nil, List.append_nil]

/-- Separators alone have no segment between them. -/
theorem segments_separators (n : Nat) : segments sep (List.replicate n sep) = [] :=
  (segments_replicate [] n).trans segments_nil

/-- The separators at the end do not count. -/
theorem segments_trimEnd (l : List α) : segments sep (trimEnd sep l) = segments sep l := by
  obtain ⟨body, n, rfl, hbare⟩ := exists_bare sep l
  rw [trimEnd_replicate, hbare.trimEnd_eq, segments_replicate]

/-- The separators at the start do not count. -/
theorem segments_dropWhile (l : List α) : segments sep (l.dropWhile (· = sep)) = segments sep l := by
  induction l with
  | nil => rfl
  | cons x l ih =>
    by_cases hx : x = sep
    · rw [List.dropWhile_cons_of_pos (by simpa using hx), ih, hx, segments_cons]
    · rw [List.dropWhile_cons_of_neg (by simpa using hx)]

/-- The segments of a list that ends with a name. -/
theorem segments_shape {name : List α} (hne : name ≠ []) (h : sep ∉ name) (pre : List α) (n : Nat) :
    segments sep (pre ++ sep :: name ++ List.replicate n sep) = segments sep pre ++ [name] := by
  rw [segments_replicate, segments_append_cons, segments_name hne h]

/-- The last part of a list that ends with a name. -/
theorem getLast?_splitOn {name : List α} (h : sep ∉ name) (pre : List α) :
    ((pre ++ sep :: name).splitOn sep).getLast? = some name := by
  rw [List.splitOn_append_cons_self, List.splitOn_eq_singleton h, List.getLast?_concat]

/-! ## Other elements -/

theorem mem_trimEnd {x : α} (hx : x ≠ sep) {l : List α} : x ∈ trimEnd sep l ↔ x ∈ l := by
  obtain ⟨body, n, rfl, hbare⟩ := exists_bare sep l
  have hsep : x ∉ List.replicate n sep := fun hmem => hx (List.eq_of_mem_replicate hmem)
  rw [trimEnd_replicate, hbare.trimEnd_eq, List.mem_append, or_iff_left hsep]

theorem mem_dropWhile {x : α} (hx : x ≠ sep) {l : List α} : x ∈ l.dropWhile (· = sep) ↔ x ∈ l := by
  induction l with
  | nil => rfl
  | cons y l ih =>
    by_cases hy : y = sep
    · rw [List.dropWhile_cons_of_pos (by simpa using hy), ih, List.mem_cons, or_iff_right (hy ▸ hx)]
    · rw [List.dropWhile_cons_of_neg (by simpa using hy)]

end LastSeparator
