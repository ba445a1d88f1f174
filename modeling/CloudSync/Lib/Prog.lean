/-
Programs over effects. A program returns a value, or performs one effect and goes on with its
answer; a handler says what an effect answers and does to a state, so running a program under a
handler is total. `Always` speaks about every state a run goes through. `Triple` puts both
together for programs that may stop with an error: its rules follow the program's structure, with
one rule for each way programs are composed (return, stop, effect, sequence, loop over a list).
-/
import Mathlib.Tactic

/-- A program over the effects `Op`: it returns, or performs an effect and goes on with its answer. -/
inductive Prog (Op : Type → Type 1) (α : Type) : Type 1
  | ret (a : α)
  | call {β : Type} (o : Op β) (k : β → Prog Op α)

namespace Prog

variable {Op : Type → Type 1} {α β ε σ : Type}

def bind : Prog Op α → (α → Prog Op β) → Prog Op β
  | ret a, f => f a
  | call o k, f => call o fun b => (k b).bind f

instance : Monad (Prog Op) where
  pure := ret
  bind := Prog.bind

/-- The program that performs one effect and returns its answer. -/
def perform (o : Op β) : Prog Op β := call o ret

/-- What each effect answers, and the state it leaves. -/
abbrev Handler (Op : Type → Type 1) (σ : Type) : Type 1 := (β : Type) → Op β → σ → β × σ

/-- The value and the final state of a program. -/
def run (h : Handler Op σ) : Prog Op α → σ → α × σ
  | ret a, s => (a, s)
  | call o k, s => run h (k (h _ o s).1) (h _ o s).2

/-- Every state of the run, the first and the last included, satisfies `I`. -/
def Always (h : Handler Op σ) (I : σ → Prop) : Prog Op α → σ → Prop
  | ret _, s => I s
  | call o k, s => I s ∧ Always h I (k (h _ o s).1) (h _ o s).2

/-! ## Runs and composition -/

@[simp] theorem run_pure (h : Handler Op σ) (a : α) (s : σ) : run h (pure a : Prog Op α) s = (a, s) := rfl

@[simp] theorem run_perform (h : Handler Op σ) (o : Op β) (s : σ) : run h (perform o) s = h β o s := rfl

@[simp] theorem run_bind (h : Handler Op σ) (f : α → Prog Op β) :
    ∀ (p : Prog Op α) (s : σ), run h (p >>= f) s = run h (f (run h p s).1) (run h p s).2
  | ret _, _ => rfl
  | call o k, s => run_bind h f (k (h _ o s).1) (h _ o s).2

theorem always_bind (h : Handler Op σ) (I : σ → Prop) (f : α → Prog Op β) :
    ∀ (p : Prog Op α) (s : σ),
      Always h I (p >>= f) s ↔ Always h I p s ∧ Always h I (f (run h p s).1) (run h p s).2
  | ret a, s => by
    show Always h I (f a) s ↔ I s ∧ Always h I (f a) s
    -- `f a` starts in `s`, so its run already speaks about it
    refine ⟨fun hf => ⟨?_, hf⟩, And.right⟩
    cases hfa : f a with
    | ret b => rw [hfa] at hf; exact hf
    | call o k => rw [hfa] at hf; exact hf.1
  | call o k, s => by
    have ih := always_bind h I f (k (h _ o s).1) (h _ o s).2
    show I s ∧ Always h I (k (h _ o s).1 >>= f) (h _ o s).2 ↔ (I s ∧ _) ∧ _
    rw [ih, and_assoc]; rfl

/-- An invariant of a run holds of its last state. -/
theorem Always.last {h : Handler Op σ} {I : σ → Prop} :
    ∀ {p : Prog Op α} {s : σ}, Always h I p s → I (run h p s).2
  | ret _, _, hp => hp
  | call _ _, _, hp => hp.2.last

theorem Always.mono {h : Handler Op σ} {I J : σ → Prop} (hIJ : ∀ s, I s → J s) :
    ∀ {p : Prog Op α} {s : σ}, Always h I p s → Always h J p s
  | ret _, _, hp => hIJ _ hp
  | call _ _, _, hp => ⟨hIJ _ hp.1, Always.mono hIJ hp.2⟩

theorem Always.frame {h : Handler Op σ} {I S : σ → Prop} (hS : ∀ (β : Type) (o : Op β) (s : σ), S s → S (h β o s).2) :
    ∀ {p : Prog Op α} {s : σ}, Always h I p s → S s → Always h (fun s => I s ∧ S s) p s
  | ret _, _, hp, hs => ⟨hp, hs⟩
  | call o _, s, hp, hs => ⟨⟨hp.1, hs⟩, hp.2.frame hS (hS _ o s hs)⟩

/-- A set of states the handler does not leave is not left by a run. -/
theorem run_inv {h : Handler Op σ} {S : σ → Prop} (hS : ∀ (β : Type) (o : Op β) (s : σ), S s → S (h β o s).2) :
    ∀ (p : Prog Op α) (s : σ), S s → S (run h p s).2
  | ret _, _, hs => hs
  | call o k, s, hs => run_inv hS (k (h _ o s).1) (h _ o s).2 (hS _ o s hs)

/-- Handlers that agree on a set of states they do not leave run a program alike. -/
theorem run_congr {h h' : Handler Op σ} {S : σ → Prop}
    (hS : ∀ (β : Type) (o : Op β) (s : σ), S s → h' β o s = h β o s ∧ S (h β o s).2) :
    ∀ (p : Prog Op α) (s : σ), S s → run h' p s = run h p s
  | ret _, _, _ => rfl
  | call o k, s, hs => by
    obtain ⟨heq, hs'⟩ := hS _ o s hs
    show run h' (k (h' _ o s).1) (h' _ o s).2 = _
    rw [heq]
    exact run_congr hS (k (h _ o s).1) (h _ o s).2 hs'

/-! ## Programs that may stop with an error -/

/-- The outcome and the final state of a program that may stop with an error. -/
def exec (h : Handler Op σ) (p : ExceptT ε (Prog Op) α) (s : σ) : Except ε α × σ := run h p.run s

@[simp] theorem exec_pure (h : Handler Op σ) (a : α) (s : σ) :
    exec h (pure a : ExceptT ε (Prog Op) α) s = (.ok a, s) := rfl

@[simp] theorem exec_throw (h : Handler Op σ) (e : ε) (s : σ) :
    exec h (throw e : ExceptT ε (Prog Op) α) s = (.error e, s) := rfl

@[simp] theorem exec_lift (h : Handler Op σ) (p : Prog Op α) (s : σ) :
    exec h (ExceptT.lift p : ExceptT ε (Prog Op) α) s = (.ok (run h p s).1, (run h p s).2) := by
  show run h (p >>= fun a => pure (Except.ok a)) s = _
  rw [run_bind]; rfl

theorem exec_bind (h : Handler Op σ) (x : ExceptT ε (Prog Op) α) (f : α → ExceptT ε (Prog Op) β) (s : σ) :
    exec h (x >>= f) s = match exec h x s with
      | (.ok a, s') => exec h (f a) s'
      | (.error e, s') => (.error e, s') := by
  show run h (x.run >>= fun r => ExceptT.bindCont f r) s = _
  rw [run_bind]
  unfold exec
  rcases run h x.run s with ⟨_ | a, s'⟩ <;> rfl

/-- A program that starts with an effect goes on with its answer. -/
theorem exec_perform_bind (h : Handler Op σ) (o : Op α) (f : α → ExceptT ε (Prog Op) β) (s : σ) :
    exec h (ExceptT.lift (perform o) >>= f) s = exec h (f (h _ o s).1) (h _ o s).2 := by
  rw [exec_bind, exec_lift]; rfl

/-! ## The effects of a run -/

/-- Every effect the program can come to is one of `P`. -/
def Uses (P : (β : Type) → Op β → Prop) : Prog Op α → Prop
  | ret _ => True
  | call o k => P _ o ∧ ∀ b, Uses P (k b)

/-- Every effect of the run is one of `C` in the state it meets. -/
def Along (h : Handler Op σ) (C : (β : Type) → Op β → σ → Prop) : Prog Op α → σ → Prop
  | ret _, _ => True
  | call o k, s => C _ o s ∧ Along h C (k (h _ o s).1) (h _ o s).2

theorem Uses.bind {P : (β : Type) → Op β → Prop} {f : α → Prog Op β} (hf : ∀ a, Uses P (f a)) :
    ∀ {p : Prog Op α}, Uses P p → Uses P (p >>= f)
  | ret a, _ => hf a
  | call _ _, hp => ⟨hp.1, fun b => (hp.2 b).bind hf⟩

/-- Sequence of programs that may stop. -/
theorem Uses.andThen {P : (β : Type) → Op β → Prop} {x : ExceptT ε (Prog Op) α} {f : α → ExceptT ε (Prog Op) β}
    (hx : Uses P x.run) (hf : ∀ a, Uses P (f a).run) : Uses P (x >>= f).run := by
  refine Uses.bind (f := fun r => ExceptT.bindCont f r) (fun r => ?_) hx
  cases r with
  | ok a => exact hf a
  | error e => trivial

theorem Uses.foldlM {P : (β : Type) → Op β → Prop} {f : β → α → ExceptT ε (Prog Op) β}
    (hf : ∀ b a, Uses P (f b a).run) :
    ∀ (l : List α) (b : β), Uses P (l.foldlM f b).run
  | [], _ => trivial
  | a :: l, b => Uses.andThen (hf b a) fun b' => Uses.foldlM hf l b'

theorem Uses.forM {P : (β : Type) → Op β → Prop} {f : α → ExceptT ε (Prog Op) PUnit} (hf : ∀ a, Uses P (f a).run) :
    ∀ l : List α, Uses P (l.forM f).run
  | [] => trivial
  | a :: l => Uses.andThen (hf a) fun _ => Uses.forM hf l

theorem Along.of_forall {h : Handler Op σ} {C : (β : Type) → Op β → σ → Prop}
    (hC : ∀ (β : Type) (o : Op β) (s : σ), C β o s) : ∀ (p : Prog Op α) (s : σ), Along h C p s
  | ret _, _ => trivial
  | call o k, s => ⟨hC _ o s, Along.of_forall hC (k (h _ o s).1) (h _ o s).2⟩

/-- What every effect of the run preserves holds in the end. -/
theorem Along.invariant {h : Handler Op σ} {C : (β : Type) → Op β → σ → Prop} {P : (β : Type) → Op β → Prop}
    {I : σ → Prop} (hI : ∀ (β : Type) (o : Op β) (s : σ), P β o → C β o s → I s → I (h β o s).2) :
    ∀ {p : Prog Op α} {s : σ}, Along h C p s → Uses P p → I s → I (run h p s).2
  | ret _, _, _, _, hs => hs
  | call o k, s, ha, hp, hs =>
    Along.invariant (p := k (h _ o s).1) hI ha.2 (hp.2 _) (hI _ o s hp.1 ha.1 hs)

/-! ## Triples -/

/-- From `s`, every state of the run of `p` satisfies `I`, and its outcome and last state satisfy `Q`. -/
structure Triple (h : Handler Op σ) (I : σ → Prop) (s : σ) (p : ExceptT ε (Prog Op) α)
    (Q : Except ε α → σ → Prop) : Prop where
  always : Always h I p.run s
  post : Q (exec h p s).1 (exec h p s).2

namespace Triple

variable {h : Handler Op σ} {I : σ → Prop} {s : σ}

theorem last {p : ExceptT ε (Prog Op) α} {Q : Except ε α → σ → Prop} (hp : Triple h I s p Q) :
    I (exec h p s).2 := hp.always.last

theorem pure {a : α} {Q : Except ε α → σ → Prop} (hI : I s) (hQ : Q (.ok a) s) :
    Triple h I s (Pure.pure a) Q := ⟨hI, hQ⟩

theorem throw {e : ε} {Q : Except ε α → σ → Prop} (hI : I s) (hQ : Q (.error e) s) :
    Triple h I s (MonadExcept.throw e) Q := ⟨hI, hQ⟩

/-- One effect: the invariant before and after it, and the postcondition of its answer. -/
theorem lift {o : Op α} {Q : Except ε α → σ → Prop} (hI : I s) (hI' : I (h _ o s).2)
    (hQ : Q (.ok (h _ o s).1) (h _ o s).2) :
    Triple h I s (ExceptT.lift (perform o) : ExceptT ε (Prog Op) α) Q := ⟨⟨hI, hI'⟩, hQ⟩

theorem conseq {p : ExceptT ε (Prog Op) α} {Q R : Except ε α → σ → Prop} (hp : Triple h I s p Q)
    (hQR : ∀ r s', I s' → Q r s' → R r s') : Triple h I s p R :=
  ⟨hp.always, hQR _ _ hp.last hp.post⟩

/-- Sequence: go on from every value the first part returns; an error of the first part is the
outcome of the whole. -/
theorem bind {x : ExceptT ε (Prog Op) α} {f : α → ExceptT ε (Prog Op) β} {R : Except ε α → σ → Prop}
    {Q : Except ε β → σ → Prop} (hx : Triple h I s x R)
    (hok : ∀ a s', I s' → R (.ok a) s' → Triple h I s' (f a) Q)
    (herr : ∀ e s', I s' → R (.error e) s' → Q (.error e) s') : Triple h I s (x >>= f) Q := by
  have hpost := hx.post
  have hlast := hx.last
  rcases hr : run h x.run s with ⟨e | a, s'⟩
  all_goals
    simp only [exec, hr] at hpost hlast
    constructor
  · show Always h I (x.run >>= fun r => ExceptT.bindCont f r) s
    rw [always_bind, hr]
    exact ⟨hx.always, hlast⟩
  · rw [exec_bind, exec, hr]
    exact herr e s' hlast hpost
  · show Always h I (x.run >>= fun r => ExceptT.bindCont f r) s
    rw [always_bind, hr]
    exact ⟨hx.always, (hok a s' hlast hpost).always⟩
  · rw [exec_bind, exec, hr]
    exact (hok a s' hlast hpost).post

/-- A loop over a list with an accumulator. `R done b` is the invariant after the elements `done`
with accumulator `b`; when an element stops the loop, `R` of the elements before it has to be
strong enough for the postcondition. -/
theorem foldlM {f : β → α → ExceptT ε (Prog Op) β} {R : List α → β → σ → Prop} {Q : Except ε β → σ → Prop}
    (hI : ∀ done b s', R done b s' → I s') :
    ∀ (l done : List α) (b : β) (s : σ), R done b s →
      (∀ pre a post b s', done ++ l = pre ++ a :: post → R pre b s' →
        Triple h I s' (f b a) fun r s'' => match r with
          | .ok b' => R (pre ++ [a]) b' s''
          | .error e => Q (.error e) s'') →
      (∀ b s', R (done ++ l) b s' → Q (.ok b) s') →
      Triple h I s (l.foldlM f b) Q
  | [], done, b, s, hR, _, hend => by
    rw [List.foldlM_nil]
    exact Triple.pure (hI _ _ _ hR) (hend b s (by simpa using hR))
  | a :: l, done, b, s, hR, hstep, hend => by
    rw [List.foldlM_cons]
    -- the head is done next; the rest of the list is looped over with `done ++ [a]`
    refine Triple.bind (hstep done a l b s rfl hR) (fun b' s' _ hR' => ?_) (fun _ _ _ hQ => hQ)
    have happ : done ++ [a] ++ l = done ++ a :: l := by simp
    exact foldlM hI l (done ++ [a]) b' s' hR'
      (fun pre x post b₂ s₂ heq => hstep pre x post b₂ s₂ (happ ▸ heq))
      (fun b₂ s₂ h₂ => hend b₂ s₂ (happ ▸ h₂))

/-- A loop over a list that returns nothing. -/
theorem forM {f : α → ExceptT ε (Prog Op) PUnit} {R : List α → σ → Prop} {Q : Except ε PUnit → σ → Prop}
    (hI : ∀ done s', R done s' → I s') (l : List α) (hR : R [] s)
    (hstep : ∀ pre a post s', l = pre ++ a :: post → R pre s' →
      Triple h I s' (f a) fun r s'' => match r with
        | .ok _ => R (pre ++ [a]) s''
        | .error e => Q (.error e) s'')
    (hend : ∀ s', R l s' → Q (.ok ⟨⟩) s') : Triple h I s (l.forM f) Q := by
  have heq : ∀ l : List α, l.forM f = l.foldlM (fun _ a => f a) ⟨⟩ := by
    intro l
    induction l with
    | nil => rfl
    | cons a l ih =>
      show (f a >>= fun _ => l.forM f) = f a >>= fun u => l.foldlM (fun _ a => f a) u
      congr 1; funext u; exact ih
  rw [heq]
  exact foldlM (f := fun _ a => f a) (R := fun done _ => R done) (fun done _ s' => hI done s') l [] ⟨⟩ s hR
    (fun pre a post _ s' hl hpre => (hstep pre a post s' hl hpre).conseq fun r _ _ hr => by cases r <;> exact hr)
    (fun _ s' => hend s')

/-- A set of states the handler does not leave. -/
theorem frame {S : σ → Prop} {p : ExceptT ε (Prog Op) α} {Q : Except ε α → σ → Prop} (hp : Triple h I s p Q)
    (hS : ∀ (β : Type) (o : Op β) (s : σ), S s → S (h β o s).2) (hs : S s) :
    Triple h (fun s => I s ∧ S s) s p fun r s' => Q r s' ∧ S s' :=
  ⟨hp.always.frame hS hs, hp.post, run_inv hS p.run s hs⟩

/-- A stronger invariant. -/
theorem mono {J : σ → Prop} {p : ExceptT ε (Prog Op) α} {Q : Except ε α → σ → Prop} (hp : Triple h I s p Q)
    (hIJ : ∀ s, I s → J s) : Triple h J s p Q := ⟨hp.always.mono hIJ, hp.post⟩

end Triple

end Prog
