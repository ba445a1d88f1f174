/-
The last occurrence of a separator in a list, and the separators at the end of a list. A list splits in one way only
at its last separator.
-/
import Mathlib.Data.List.DropRight
import Mathlib.Tactic

namespace LastSeparator

variable {α : Type*} {sep : α}

/-! ## The last separator -/

theorem exists_last {l : List α} (h : sep ∈ l) : ∃ pre name, l = pre ++ sep :: name ∧ sep ∉ name := by
  obtain ⟨before, after, heq, hno⟩ := List.eq_append_cons_of_mem (List.mem_reverse.2 h)
  refine ⟨after.reverse, before.reverse, ?_, fun hmem => hno (List.mem_reverse.1 hmem)⟩
  rw [← List.reverse_reverse l, heq, List.reverse_append, List.reverse_cons, List.append_assoc, List.singleton_append]

section

variable [DecidableEq α]

/-- The position of the last separator. -/
def rfind (sep : α) : List α → Option Nat
  | [] => none
  | x :: xs => match rfind sep xs with
    | some i => some (i + 1)
    | none => if x = sep then some 0 else none

theorem rfind_eq_none {l : List α} (h : sep ∉ l) : rfind sep l = none := by
  induction l with
  | nil => rfl
  | cons x xs ih =>
    rw [List.mem_cons, not_or] at h
    unfold rfind
    rw [ih h.2]
    exact if_neg fun heq => h.1 heq.symm

/-- The last separator is the one with none after it. -/
theorem rfind_append {name : List α} (h : sep ∉ name) (pre : List α) :
    rfind sep (pre ++ sep :: name) = some pre.length := by
  induction pre with
  | nil =>
    rw [List.nil_append, rfind, rfind_eq_none h]
    exact if_pos rfl
  | cons x pre ih =>
    rw [List.cons_append, rfind, ih]
    rfl

/-- There is one way to split a list at its last separator. -/
theorem last_inj {pre pre' name name' : List α} (h : sep ∉ name) (h' : sep ∉ name') :
    pre ++ sep :: name = pre' ++ sep :: name' ↔ pre = pre' ∧ name = name' := by
  refine ⟨fun heq => ?_, fun ⟨hpre, hname⟩ => by rw [hpre, hname]⟩
  have hlength : some pre.length = some pre'.length := by rw [← rfind_append h, ← rfind_append h', heq]
  obtain ⟨hpre, hrest⟩ := List.append_inj heq (Option.some.inj hlength)
  exact ⟨hpre, (List.cons.inj hrest).2⟩

end

/-! ## Separators at the end -/

/-- The list does not end with the separator. -/
def Bare (sep : α) (l : List α) : Prop := ∀ front, l ≠ front ++ [sep]

theorem bare_nil : Bare sep ([] : List α) := fun _ heq => List.cons_ne_nil _ _ (List.append_eq_nil_iff.1 heq.symm).2

variable [DecidableEq α]

/-- The list without the separators at its end. -/
def trimEnd (sep : α) (l : List α) : List α := l.rdropWhile (· = sep)

/-- A list that ends with a name is bare. -/
theorem bare_name {name : List α} (hne : name ≠ []) (h : sep ∉ name) (pre : List α) :
    Bare sep (pre ++ sep :: name) := by
  intro front heq
  have hlast : pre ++ sep :: name = front ++ sep :: [] ↔ _ := last_inj h List.not_mem_nil
  exact hne (hlast.1 heq).2

theorem Bare.trimEnd_eq {l : List α} (h : Bare sep l) : trimEnd sep l = l := by
  rcases List.eq_nil_or_concat l with rfl | ⟨front, x, rfl⟩
  · rfl
  · rw [List.concat_eq_append] at h ⊢
    have hx : x ≠ sep := fun heq => h front (by rw [heq])
    unfold trimEnd
    rw [List.rdropWhile_concat_neg _ _ _ (by simpa using hx)]

theorem trimEnd_replicate (l : List α) (n : Nat) : trimEnd sep (l ++ List.replicate n sep) = trimEnd sep l := by
  induction n with
  | zero => rw [List.replicate_zero, List.append_nil]
  | succ n ih =>
    rw [List.replicate_succ', ← List.append_assoc]
    unfold trimEnd at ih ⊢
    rw [List.rdropWhile_concat_pos _ _ _ (by simp), ih]

/-- A list is a bare one followed by separators. -/
theorem exists_bare (sep : α) (l : List α) : ∃ body n, l = body ++ List.replicate n sep ∧ Bare sep body := by
  induction l using List.reverseRecOn with
  | nil => exact ⟨[], 0, rfl, bare_nil⟩
  | append_singleton l x ih =>
    by_cases hx : x = sep
    · subst hx
      obtain ⟨body, n, rfl, hbare⟩ := ih
      exact ⟨body, n + 1, by rw [List.replicate_succ', List.append_assoc], hbare⟩
    · refine ⟨l ++ [x], 0, by rw [List.replicate_zero, List.append_nil], fun front heq => hx ?_⟩
      exact (List.cons.inj (List.append_inj' heq rfl).2).1

theorem bare_inj {body body' : List α} (h : Bare sep body) (h' : Bare sep body') (n n' : Nat) :
    body ++ List.replicate n sep = body' ++ List.replicate n' sep ↔ body = body' ∧ n = n' := by
  refine ⟨fun heq => ?_, fun ⟨hbody, hn⟩ => by rw [hbody, hn]⟩
  have hbody : body = body' := by
    rw [← h.trimEnd_eq, ← h'.trimEnd_eq, ← trimEnd_replicate body n, ← trimEnd_replicate body' n', heq]
  have hlength := congrArg List.length heq
  rw [List.length_append, List.length_append, List.length_replicate, List.length_replicate, hbody] at hlength
  exact ⟨hbody, by omega⟩

/-- A list splits in one way into its last name, what is before it and the separators after it. -/
theorem shape_inj {name name' : List α} (hne : name ≠ []) (h : sep ∉ name) (hne' : name' ≠ []) (h' : sep ∉ name')
    (pre pre' : List α) (n n' : Nat) :
    pre ++ sep :: name ++ List.replicate n sep = pre' ++ sep :: name' ++ List.replicate n' sep ↔
      pre = pre' ∧ name = name' ∧ n = n' := by
  rw [bare_inj (bare_name hne h pre) (bare_name hne' h' pre'), last_inj h h', and_assoc]

/-- A list with a name does not consist of separators. -/
theorem shape_ne {name : List α} (hne : name ≠ []) (h : sep ∉ name) (pre : List α) (n m : Nat) :
    pre ++ sep :: name ++ List.replicate n sep ≠ List.replicate m sep := by
  intro heq
  have hnil := (bare_inj (bare_name hne h pre) bare_nil n m).1 heq
  exact List.append_ne_nil_of_right_ne_nil pre (List.cons_ne_nil _ _) hnil.1

/-- A list that begins with a separator consists of separators, or has a last name and separators after it. -/
theorem exists_shape (rest : List α) : (∃ n, sep :: rest = List.replicate (n + 1) sep) ∨
    ∃ pre name n, name ≠ [] ∧ sep ∉ name ∧ sep :: rest = pre ++ sep :: name ++ List.replicate n sep := by
  obtain ⟨body, n, heq, hbare⟩ := exists_bare sep (sep :: rest)
  cases body with
  | nil =>
    cases n with
    | zero => cases heq
    | succ n => exact .inl ⟨n, heq⟩
  | cons x body =>
    obtain ⟨rfl, -⟩ := List.cons.inj heq
    obtain ⟨pre, name, hbody, hno⟩ := exists_last (List.mem_cons_self : sep ∈ sep :: body)
    refine .inr ⟨pre, name, n, ?_, hno, hbody ▸ heq⟩
    rintro rfl
    exact hbare pre hbody

end LastSeparator
