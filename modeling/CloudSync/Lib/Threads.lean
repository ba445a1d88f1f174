/-
Threads over a shared state. Every thread stands at a point of a flowchart; a step lets one of them perform
the effect of its point, unless the shared state makes it wait, or lets the surroundings change the shared
state. `Follows` says that a flowchart is that of a program; `Reached` holds of what steps of an allowed kind
lead to, in any order.
-/
import CloudSync.Lib.Prog

namespace Threads

variable {Op : Type → Type 1} {α P σ : Type}

/-! ## Flowcharts -/

/-- A box of a flowchart: the thread returns, or performs an effect and goes where its answer leads. -/
inductive Box (Op : Type → Type 1) (α P : Type) : Type 1
  | ret (a : α)
  | call {β : Type} (o : Op β) (next : β → P)

/-- From the point `x` on, the flowchart does what the program does. -/
inductive Follows (flow : P → Box Op α P) : P → Prog Op α → Prop
  | ret {x : P} {a : α} (h : flow x = .ret a) : Follows flow x (.ret a)
  | call {x : P} {β : Type} {o : Op β} {next : β → P} {k : β → Prog Op α} (h : flow x = .call o next)
      (rest : ∀ b, Follows flow (next b) (k b)) : Follows flow x (.call o k)

/-! ## Pools -/

/-- The flowchart, what an effect of a thread answers and does to the shared state (`none`: it has to wait),
and what can change the shared state besides. -/
structure System (Op : Type → Type 1) (α P σ : Type) where
  flow : P → Box Op α P
  act : Nat → (β : Type) → Op β → σ → Option (β × σ)
  drift : (Nat → P) → σ → σ → Prop

structure Pool (P σ : Type) where
  shared : σ
  point : Nat → P

/-- The pool after a thread has moved to a point. -/
def Pool.move (p : Pool P σ) (i : Nat) (s : σ) (x : P) : Pool P σ := ⟨s, Function.update p.point i x⟩

@[simp] theorem Pool.move_shared (p : Pool P σ) (i : Nat) (s : σ) (x : P) : (p.move i s x).shared = s := rfl

@[simp] theorem Pool.move_self (p : Pool P σ) (i : Nat) (s : σ) (x : P) : (p.move i s x).point i = x :=
  Function.update_self ..

theorem Pool.move_other (p : Pool P σ) {i j : Nat} (s : σ) (x : P) (h : j ≠ i) :
    (p.move i s x).point j = p.point j :=
  Function.update_of_ne h ..

/-- A step of one thread, or of the surroundings. -/
inductive Step (S : System Op α P σ) (p : Pool P σ) : Option Nat → Pool P σ → Prop
  | act {i : Nat} {β : Type} {o : Op β} {next : β → P} {b : β} {s : σ} (hbox : S.flow (p.point i) = .call o next)
      (hact : S.act i β o p.shared = some (b, s)) : Step S p (some i) (p.move i s (next b))
  | drift {s : σ} (h : S.drift p.point p.shared s) : Step S p none ⟨s, p.point⟩

/-- What the steps that `allowed` lets through lead to. -/
inductive Reached (S : System Op α P σ) (allowed : Pool P σ → Option Nat → Prop) (start : Pool P σ) : Pool P σ → Prop
  | refl : Reached S allowed start start
  | step {p p' : Pool P σ} {i : Option Nat} (h : Reached S allowed start p) (hallowed : allowed p i)
      (hstep : Step S p i p') : Reached S allowed start p'

/-- What every allowed step preserves holds in every pool that allowed steps reach. -/
theorem Reached.invariant {S : System Op α P σ} {allowed : Pool P σ → Option Nat → Prop} {start p : Pool P σ}
    (h : Reached S allowed start p) {I : Pool P σ → Prop} (hstart : I start)
    (hstep : ∀ p p' i, I p → allowed p i → Step S p i p' → I p') : I p := by
  induction h with
  | refl => exact hstart
  | step _ hallowed hs ih => exact hstep _ _ _ ih hallowed hs

/-- What any steps lead to. -/
abbrev Steps (S : System Op α P σ) : Pool P σ → Pool P σ → Prop := Reached S fun _ _ => True

theorem Reached.trans {S : System Op α P σ} {allowed : Pool P σ → Option Nat → Prop} {p₁ p₂ p₃ : Pool P σ}
    (h₁ : Reached S allowed p₁ p₂) (h₂ : Reached S allowed p₂ p₃) : Reached S allowed p₁ p₃ := by
  induction h₂ with
  | refl => exact h₁
  | step _ hallowed hs ih => exact .step ih hallowed hs

/-- The step of a thread, if it has one. -/
def System.advance (S : System Op α P σ) (i : Nat) (p : Pool P σ) : Option (Pool P σ) :=
  match S.flow (p.point i) with
  | .ret _ => none
  | .call o next => (S.act i _ o p.shared).map fun (b, s) => p.move i s (next b)

theorem System.advance_step {S : System Op α P σ} {i : Nat} {p p' : Pool P σ} (h : S.advance i p = some p') :
    Step S p (some i) p' := by
  unfold System.advance at h
  split at h
  · cases h
  · rename_i hbox
    obtain ⟨⟨b, s⟩, hact, rfl⟩ := Option.map_eq_some_iff.1 h
    exact .act hbox hact

/-- The threads take steps in the given order. -/
def System.schedule (S : System Op α P σ) : List Nat → Pool P σ → Option (Pool P σ)
  | [], p => some p
  | i :: l, p => (S.advance i p).bind (S.schedule l)

/-- A schedule whose steps are all allowed, given what they keep. -/
theorem System.schedule_reached {S : System Op α P σ} {allowed : Pool P σ → Option Nat → Prop} {l : List Nat}
    {I : Pool P σ → Prop} (hkept : ∀ i ∈ l, ∀ p p', I p → Step S p (some i) p' → I p')
    (hallowed : ∀ i ∈ l, ∀ p, I p → allowed p (some i)) {start p q : Pool P σ} (h : Reached S allowed start p)
    (hp : I p) (hq : S.schedule l p = some q) : Reached S allowed start q := by
  induction l generalizing p with
  | nil =>
    cases hq
    exact h
  | cons i l ih =>
    obtain ⟨p', hadvance, hrest⟩ := Option.bind_eq_some_iff.1 hq
    have hstep := System.advance_step hadvance
    rw [List.forall_mem_cons] at hkept hallowed
    exact ih hkept.2 hallowed.2 (.step h (hallowed.1 p hp) hstep) (hkept.1 p p' hp hstep) hrest

theorem System.schedule_steps {S : System Op α P σ} {l : List Nat} {p q : Pool P σ} (h : S.schedule l p = some q) :
    Steps S p q :=
  System.schedule_reached (fun _ _ _ _ _ _ => trivial) (fun _ _ _ _ => trivial) .refl trivial h

end Threads
