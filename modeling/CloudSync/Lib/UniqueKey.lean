/-
Rows with a unique key: a lookup by the key finds a row exactly when the row is there.
-/
import Mathlib.Data.List.Nodup
import Mathlib.Tactic

namespace UniqueKey

variable {α κ : Type} [DecidableEq κ] {key : α → κ} {l : List α} {k : κ} {r : α}

theorem find_eq_some (h : (l.map key).Nodup) : l.find? (fun x => key x = k) = some r ↔ r ∈ l ∧ key r = k := by
  constructor
  · intro hf
    exact ⟨List.mem_of_find?_eq_some hf, by simpa using List.find?_some hf⟩
  · rintro ⟨hr, hk⟩
    cases hf : l.find? fun x => key x = k with
    | none => exact absurd (decide_eq_true hk) (List.find?_eq_none.1 hf r hr)
    | some r' =>
      have hr' : r' ∈ l := List.mem_of_find?_eq_some hf
      have hk' : key r' = k := by simpa using List.find?_some hf
      rw [List.inj_on_of_nodup_map h hr' hr (hk'.trans hk.symm)]

theorem find_eq_none : l.find? (fun x => key x = k) = none ↔ k ∉ l.map key := by
  rw [List.find?_eq_none, List.mem_map]
  simp only [decide_eq_true_eq, not_exists, not_and]

end UniqueKey
