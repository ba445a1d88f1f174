/-
Runs of calls on a state: every call is answered, and the answers are recorded. A property that every call keeps holds
after the run, what every call ensures holds of every answer, and calls that refine a specification refine it as runs.
-/
import Mathlib.Data.List.Basic

namespace CallRuns

variable {σ τ ι ο : Type}

/-- The calls with their answers, and the state after them. -/
def run (step : ι → σ → ο × σ) : List ι → σ → List (ι × ο) × σ
  | [], s => ([], s)
  | call :: calls, s =>
    ((call, (step call s).1) :: (run step calls (step call s).2).1, (run step calls (step call s).2).2)

variable {step : ι → σ → ο × σ}

@[simp] theorem run_nil (s : σ) : run step [] s = ([], s) := rfl

@[simp] theorem run_cons (call : ι) (calls : List ι) (s : σ) :
    run step (call :: calls) s =
      ((call, (step call s).1) :: (run step calls (step call s).2).1, (run step calls (step call s).2).2) := rfl

theorem run_append (calls calls' : List ι) (s : σ) :
    run step (calls ++ calls') s =
      ((run step calls s).1 ++ (run step calls' (run step calls s).2).1, (run step calls' (run step calls s).2).2) := by
  induction calls generalizing s with
  | nil => rfl
  | cons call calls ih => rw [List.cons_append, run_cons, ih, run_cons, List.cons_append]

/-- The rule for invariants. -/
theorem run_invariant {inv : σ → Prop} {calls : List ι} (hstep : ∀ call ∈ calls, ∀ s, inv s → inv (step call s).2)
    {s : σ} (hs : inv s) : inv (run step calls s).2 := by
  induction calls generalizing s with
  | nil => exact hs
  | cons call calls ih =>
    rw [run_cons]
    exact ih (fun c hc => hstep c (List.mem_cons_of_mem _ hc)) (hstep call List.mem_cons_self s hs)

/-- The rule for answers: calls that keep `inv` and ensure `post` of their answers where it holds. -/
theorem run_ensures {inv : σ → Prop} {post : ι → ο → Prop} {calls : List ι}
    (hstep : ∀ call ∈ calls, ∀ s, inv s → inv (step call s).2 ∧ post call (step call s).1) {s : σ} (hs : inv s) :
    inv (run step calls s).2 ∧ ∀ entry ∈ (run step calls s).1, post entry.1 entry.2 := by
  induction calls generalizing s with
  | nil => exact ⟨hs, List.forall_mem_nil _⟩
  | cons call calls ih =>
    obtain ⟨hinv, hpost⟩ := hstep call List.mem_cons_self s hs
    obtain ⟨hrun, hentries⟩ := ih (fun c hc => hstep c (List.mem_cons_of_mem _ hc)) hinv
    rw [run_cons]
    exact ⟨hrun, List.forall_mem_cons.2 ⟨hpost, hentries⟩⟩

/-- A sequence of answered calls that a specification allows, from a state of it to another. -/
inductive Allowed (spec : τ → ι → ο → τ → Prop) : τ → List (ι × ο) → τ → Prop
  | nil (t : τ) : Allowed spec t [] t
  | cons {t t' t'' : τ} {call : ι} {answer : ο} {served : List (ι × ο)} (hcall : spec t call answer t')
      (hrest : Allowed spec t' served t'') : Allowed spec t ((call, answer) :: served) t''

/-- The rule for refinement: `abs` maps the states to those of a specification that allows every call. -/
theorem run_refines {spec : τ → ι → ο → τ → Prop} {abs : σ → τ}
    (hstep : ∀ call s, spec (abs s) call (step call s).1 (abs (step call s).2)) (calls : List ι) (s : σ) :
    Allowed spec (abs s) (run step calls s).1 (abs (run step calls s).2) := by
  induction calls generalizing s with
  | nil => exact .nil _
  | cons call calls ih => exact .cons (hstep call s) (ih _)

end CallRuns
