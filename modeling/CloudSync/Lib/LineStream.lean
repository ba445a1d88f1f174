/-
Streams of lines, each ended by a delimiter. A reader takes a line once its delimiter is there. A
reader that gives up half way loses the part it has taken, so that the next one takes the rest of the
same line. `ReadTo` is the position of such readers in what was written.
-/
import Mathlib.Tactic

namespace LineStream

variable {α : Type} {d : α}

/-- A line: its only delimiter is its last element. -/
def IsLine (d : α) (line : List α) : Prop := ∃ body, d ∉ body ∧ line = body ++ [d]

/-- What is left of a line that is not over is a line. -/
theorem IsLine.drop {line : List α} (h : IsLine d line) {n : Nat} (hn : n < line.length) : IsLine d (line.drop n) := by
  obtain ⟨body, hbody, rfl⟩ := h
  have hlen : n ≤ body.length := by
    rw [List.length_append, List.length_singleton] at hn; omega
  exact ⟨body.drop n, fun hmem => hbody (List.mem_of_mem_drop hmem), List.drop_append_of_le_length hlen⟩

/-- A prefix of a line that lacks the delimiter is not the whole line. -/
theorem IsLine.lt_length {line : List α} (h : IsLine d line) {n : Nat} (hn : d ∉ line.take n) : n < line.length := by
  obtain ⟨body, -, rfl⟩ := h
  by_contra hle
  rw [List.take_of_length_le (by omega)] at hn
  exact hn (List.mem_append_right _ (List.mem_singleton_self d))

section

variable [DecidableEq α]

/-- The first line of a stream, and the stream after it. -/
def takeLine (d : α) : List α → Option (List α × List α)
  | [] => none
  | a :: s => if a = d then some ([a], s) else (takeLine d s).map fun r => (a :: r.1, r.2)

theorem takeLine_append {line : List α} (h : IsLine d line) (rest : List α) :
    takeLine d (line ++ rest) = some (line, rest) := by
  obtain ⟨body, hbody, rfl⟩ := h
  induction body with
  | nil => exact if_pos rfl
  | cons a body ih =>
    have ha : a ≠ d := fun h => hbody (h ▸ List.mem_cons_self)
    show (if a = d then _ else (takeLine d (body ++ [d] ++ rest)).map _) = _
    rw [if_neg ha, ih fun h => hbody (List.mem_cons_of_mem a h)]; rfl

theorem takeLine_eq_none {s : List α} : takeLine d s = none ↔ d ∉ s := by
  induction s with
  | nil => simp [takeLine]
  | cons a s ih =>
    unfold takeLine
    by_cases ha : a = d
    · simp [ha]
    · rw [if_neg ha, Option.map_eq_none_iff, ih, List.mem_cons, not_or]
      exact ⟨fun h => ⟨Ne.symm ha, h⟩, And.right⟩

theorem takeLine_eq_some {s line rest : List α} : takeLine d s = some (line, rest) ↔
    IsLine d line ∧ s = line ++ rest := by
  constructor
  · intro h
    induction s generalizing line with
    | nil => cases h
    | cons a s ih =>
      unfold takeLine at h
      split at h
      · rename_i ha
        cases h
        exact ⟨⟨[], List.not_mem_nil, by rw [ha]; rfl⟩, rfl⟩
      · rename_i ha
        obtain ⟨⟨line', rest'⟩, hr, heq⟩ := Option.map_eq_some_iff.1 h
        cases heq
        obtain ⟨⟨body, hbody, rfl⟩, rfl⟩ := ih hr
        exact ⟨⟨a :: body, by rw [List.mem_cons, not_or]; exact ⟨Ne.symm ha, hbody⟩, rfl⟩, rfl⟩
  · rintro ⟨hline, rfl⟩
    exact takeLine_append hline rest

end

/-! ## Positions -/

/-- Where line `k` starts in the stream of all lines. -/
def offset (lines : List (List α)) (k : Nat) : Nat := (lines.take k).flatten.length

theorem offset_append {lines : List (List α)} {k : Nat} (hk : k ≤ lines.length) (line : List α) :
    offset (lines ++ [line]) k = offset lines k := by
  unfold offset; rw [List.take_append_of_le_length hk]

theorem offset_succ {lines : List (List α)} {k : Nat} {line : List α} (h : lines[k]? = some line) :
    offset lines (k + 1) = offset lines k + line.length := by
  unfold offset
  rw [List.take_add_one, h, List.flatten_append, List.length_append]; simp

theorem offset_mono (lines : List (List α)) {j k : Nat} (h : j ≤ k) : offset lines j ≤ offset lines k := by
  obtain ⟨i, rfl⟩ := Nat.exists_eq_add_of_le h
  unfold offset
  rw [List.take_add, List.flatten_append, List.length_append]
  exact Nat.le_add_right _ _

/-- A position inside a line lies before the start of every later line. -/
theorem offset_lt {lines : List (List α)} {j k n : Nat} {line : List α} (h : lines[j]? = some line)
    (hn : n < line.length) (hjk : j < k) : offset lines j + n < offset lines k := by
  have hle := offset_mono lines hjk
  rw [Nat.succ_eq_add_one, offset_succ h] at hle; omega

/-- `s` is what is left of the lines when the first `k` lines and `n` elements of the next are gone. -/
structure ReadTo (lines : List (List α)) (k n : Nat) (s : List α) : Prop where
  le : k ≤ lines.length
  part : n = 0 ∨ ∃ line, lines[k]? = some line ∧ n < line.length
  left : s = (lines.drop k).flatten.drop n

namespace ReadTo

variable {lines : List (List α)} {k n : Nat} {s : List α}

theorem start (lines : List (List α)) : ReadTo lines 0 0 lines.flatten := ⟨Nat.zero_le _, .inl rfl, rfl⟩

/-- At the last line everything is gone; before it the rest of line `k` comes first. -/
theorem cases (h : ReadTo lines k n s) (hlines : ∀ line ∈ lines, IsLine d line) :
    (k = lines.length ∧ n = 0 ∧ s = []) ∨
      ∃ line, lines[k]? = some line ∧ n < line.length ∧ s = line.drop n ++ (lines.drop (k + 1)).flatten := by
  cases hk : lines[k]? with
  | none =>
    have hlen := List.getElem?_eq_none_iff.1 hk
    have hn : n = 0 := by
      rcases h.part with hn | ⟨line, hline, -⟩
      · exact hn
      · rw [hk] at hline; cases hline
    refine .inl ⟨le_antisymm h.le hlen, hn, ?_⟩
    rw [h.left, List.drop_eq_nil_of_le hlen, List.flatten_nil, List.drop_nil]
  | some line =>
    obtain ⟨hlt, hget⟩ := List.getElem?_eq_some_iff.1 hk
    have hn : n < line.length := by
      rcases h.part with rfl | ⟨line', hline', hn⟩
      · obtain ⟨body, -, rfl⟩ := hlines line (List.mem_of_getElem? hk)
        rw [List.length_append, List.length_singleton]; omega
      · rw [hk] at hline'; cases hline'; exact hn
    refine .inr ⟨line, rfl, hn, ?_⟩
    rw [h.left, List.drop_eq_getElem_cons hlt, hget, List.flatten_cons]
    exact List.drop_append_of_le_length (by omega)

/-- The last line has a delimiter, so a stream without one is empty. -/
theorem eq_nil (h : ReadTo lines k n s) (hlines : ∀ line ∈ lines, IsLine d line) (hd : d ∉ s) : s = [] := by
  rcases h.cases hlines with ⟨-, -, hs⟩ | ⟨line, hline, hn, rfl⟩
  · exact hs
  · obtain ⟨body, -, hbody⟩ := (hlines line (List.mem_of_getElem? hline)).drop hn
    refine absurd (List.mem_append_left _ ?_) hd
    rw [hbody]
    exact List.mem_append_right _ (List.mem_singleton_self d)

/-- Another line is written. -/
theorem write (h : ReadTo lines k n s) (line : List α) : ReadTo (lines ++ [line]) k n (s ++ line) := by
  refine ⟨by rw [List.length_append]; exact le_trans h.le (Nat.le_add_right _ _), ?_, ?_⟩
  · rcases h.part with hn | ⟨l, hl, hn⟩
    · exact .inl hn
    · exact .inr ⟨l, List.getElem?_append_left (List.getElem?_eq_some_iff.1 hl).1 ▸ hl, hn⟩
  · have hlen : n ≤ (lines.drop k).flatten.length := by
      rcases h.part with hn | ⟨l, hl, hn⟩
      · omega
      · obtain ⟨hlt, hget⟩ := List.getElem?_eq_some_iff.1 hl
        rw [List.drop_eq_getElem_cons hlt, hget, List.flatten_cons, List.length_append]; omega
    rw [List.drop_append_of_le_length h.le, List.flatten_append, List.flatten_singleton,
      List.drop_append_of_le_length hlen, ← h.left]

/-- A reader that takes a line takes what is left of line `k`. -/
theorem take [DecidableEq α] (h : ReadTo lines k n s) (hlines : ∀ line ∈ lines, IsLine d line)
    {taken rest : List α} (htake : takeLine d s = some (taken, rest)) :
    ∃ line, lines[k]? = some line ∧ n < line.length ∧ taken = line.drop n ∧ ReadTo lines (k + 1) 0 rest := by
  rcases h.cases hlines with ⟨-, -, rfl⟩ | ⟨line, hline, hn, rfl⟩
  · cases htake
  · rw [takeLine_append ((hlines line (List.mem_of_getElem? hline)).drop hn)] at htake
    cases htake
    exact ⟨line, hline, hn, rfl, (List.getElem?_eq_some_iff.1 hline).1, .inl rfl, rfl⟩

/-- A reader that gives up loses a part of line `k` only. -/
theorem lose (h : ReadTo lines k n s) (hlines : ∀ line ∈ lines, IsLine d line) {m : Nat} (hm : m ≤ s.length)
    (hd : d ∉ s.take m) : ReadTo lines k (n + m) (s.drop m) := by
  refine ⟨h.le, ?_, by rw [h.left, List.drop_drop]⟩
  rcases h.cases hlines with ⟨-, rfl, rfl⟩ | ⟨line, hline, hn, rfl⟩
  · left
    rw [List.length_nil] at hm; omega
  · right
    refine ⟨line, hline, ?_⟩
    -- the lost part has no delimiter, so it stops before the end of line `k`
    have hm' : m < (line.drop n).length := by
      refine ((hlines line (List.mem_of_getElem? hline)).drop hn).lt_length fun hmem => hd ?_
      by_cases hle : m ≤ (line.drop n).length
      · rw [List.take_append_of_le_length hle]; exact hmem
      · rw [List.take_append]
        exact List.mem_append_left _ hmem
    rw [List.length_drop] at hm'; omega

end ReadTo

end LineStream
