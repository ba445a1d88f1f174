/-
Writes that set fields of a state. After a run of writes a field has the value of the last write that sets it; so
where two sequences of writes set different fields, every interleaving of them leaves the same.
-/
import Mathlib.Data.List.Induction
import Mathlib.Data.Sum.Basic

namespace LastWrite

variable {α β γ σ : Type*}

/-- The value of the last write that sets the field. -/
def last (sets : α → Option γ) (ws : List α) : Option γ := ws.reverse.findSome? sets

@[simp] theorem last_nil (sets : α → Option γ) : last sets [] = none := rfl

theorem last_concat (sets : α → Option γ) (ws : List α) (w : α) :
    last sets (ws ++ [w]) = (sets w).or (last sets ws) := by
  unfold last
  rw [List.reverse_concat, List.findSome?_cons]
  cases sets w <;> rfl

theorem last_map {δ : Type*} (f : γ → δ) (sets : α → Option γ) (ws : List α) :
    last (fun w => (sets w).map f) ws = (last sets ws).map f := by
  induction ws using List.reverseRecOn with
  | nil => rfl
  | append_singleton ws w ih =>
    rw [last_concat, last_concat, ih]
    cases sets w <;> rfl

/-- A field that each write sets or leaves. -/
theorem foldl_field {step : σ → α → σ} {get : σ → γ} {sets : α → Option γ} {ws : List α}
    (hstep : ∀ w ∈ ws, ∀ s, get (step s w) = (sets w).getD (get s)) (s : σ) :
    get (ws.foldl step s) = (last sets ws).getD (get s) := by
  induction ws using List.reverseRecOn with
  | nil => rfl
  | append_singleton ws w ih =>
    rw [List.foldl_append, last_concat]
    show get (step (ws.foldl step s) w) = _
    rw [hstep w (List.mem_append_right _ (List.mem_singleton_self w)),
      ih fun w' hw' => hstep w' (List.mem_append_left _ hw')]
    cases sets w <;> rfl

/-! ## Interleavings -/

/-- The writes of two sequences, those of each in its order. -/
def Interleaves (as : List α) (bs : List β) (ws : List (α ⊕ β)) : Prop :=
  ws.filterMap Sum.getLeft? = as ∧ ws.filterMap Sum.getRight? = bs

variable {as : List α} {bs : List β} {ws : List (α ⊕ β)}

theorem Interleaves.mem_left (h : Interleaves as bs ws) {a : α} (ha : .inl a ∈ ws) : a ∈ as := by
  rw [← h.1, List.mem_filterMap]
  exact ⟨.inl a, ha, rfl⟩

/-- A field that only the writes of the first sequence set. -/
theorem Interleaves.last_left (h : Interleaves as bs ws) (sets : α → Option γ) :
    last (Sum.elim sets fun _ => none) ws = last sets as := by
  obtain ⟨rfl, -⟩ := h
  induction ws using List.reverseRecOn with
  | nil => rfl
  | append_singleton ws w ih =>
    rw [last_concat, ih, List.filterMap_append]
    cases w with
    | inl a => exact (last_concat sets _ a).symm
    | inr b => rw [show [Sum.inr b].filterMap Sum.getLeft? = ([] : List α) from rfl, List.append_nil]; rfl

/-- A field that only the writes of the second sequence set. -/
theorem Interleaves.last_right (h : Interleaves as bs ws) (sets : β → Option γ) :
    last (Sum.elim (fun _ => none) sets) ws = last sets bs := by
  obtain ⟨-, rfl⟩ := h
  induction ws using List.reverseRecOn with
  | nil => rfl
  | append_singleton ws w ih =>
    rw [last_concat, ih, List.filterMap_append]
    cases w with
    | inl a => rw [show [Sum.inl a].filterMap Sum.getRight? = ([] : List β) from rfl, List.append_nil]; rfl
    | inr b => exact (last_concat sets _ b).symm

end LastWrite
