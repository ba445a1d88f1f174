/-
The socket of the server. `bind` looks whether the path exists, connects to it, removes a stale file and binds
the listener, and a dropped server removes the file; each of these is a step of its own. A server keeps the path
as long as every `bind` still finds a stale file when it removes one.
-/
import CloudSync.Ipc.Transport
import CloudSync.Lib.Threads

namespace CloudSync.Ipc

open Threads (Box Follows System Pool Step Reached Steps)

/-! ## The file system -/

/-- The steps of `bind` and `drop` on the path of the socket. A listener is a number. -/
inductive SocketOp : Type → Type 1
  | exists : SocketOp Bool
  | connect : SocketOp (Except IoError Unit)
  | removeFile : SocketOp (Except IoError Unit)
  | bindListener : SocketOp (Except IoError Nat)
  | setPermissions : SocketOp (Except IoError Unit)
  | close (listener : Nat) : SocketOp Unit

/-- The listener the path refers to, the open listeners, and the next one. -/
structure SocketFs where
  path : Option Nat
  listening : List Nat
  nextListener : Nat
deriving DecidableEq

def notFound : IoError := ⟨.other, "No such file or directory (os error 2)".toList⟩

def connectionRefused : IoError := ⟨.other, "Connection refused (os error 111)".toList⟩

def addressInUse : IoError := ⟨.other, "Address already in use (os error 98)".toList⟩

/-- The path refers to an open listener. -/
def SocketFs.Live (s : SocketFs) : Prop := ∃ l ∈ s.listening, s.path = some l

namespace SocketFs

def connect (s : SocketFs) : Except IoError Unit :=
  match s.path with
  | none => .error notFound
  | some l => if l ∈ s.listening then .ok () else .error connectionRefused

def removeFile (s : SocketFs) : Except IoError Unit × SocketFs :=
  match s.path with
  | none => (.error notFound, s)
  | some _ => (.ok (), { s with path := none })

theorem removeFile_cases {s s' : SocketFs} {r : Except IoError Unit} (h : s.removeFile = (r, s')) :
    s.path = none ∧ r = .error notFound ∧ s' = s ∨ r = .ok () ∧ s' = { s with path := none } := by
  unfold removeFile at h
  split at h
  · rename_i hpath
    cases h
    exact .inl ⟨hpath, rfl, rfl⟩
  · cases h
    exact .inr ⟨rfl, rfl⟩

def bindListener (s : SocketFs) : Except IoError Nat × SocketFs :=
  match s.path with
  | some _ => (.error addressInUse, s)
  | none => (.ok s.nextListener,
      ⟨some s.nextListener, s.nextListener :: s.listening, s.nextListener + 1⟩)

def setPermissions (s : SocketFs) : Except IoError Unit := if s.path.isSome then .ok () else .error notFound

def close (listener : Nat) (s : SocketFs) : SocketFs := { s with listening := s.listening.filter (· ≠ listener) }

/-- No step waits. -/
def act (_ : Nat) : (β : Type) → SocketOp β → SocketFs → Option (β × SocketFs)
  | _, .exists, s => some (s.path.isSome, s)
  | _, .connect, s => some (s.connect, s)
  | _, .removeFile, s => some s.removeFile
  | _, .bindListener, s => some s.bindListener
  | _, .setPermissions, s => some (s.setPermissions, s)
  | _, .close listener, s => some ((), s.close listener)

end SocketFs

/-! ## The server -/

namespace IpcServer

/-- The error of `bind` when the probe is answered. -/
def anotherServer (socketPath : Str) : Error :=
  .io ⟨.other, "another server is already listening on ".toList ++ socketPath⟩

abbrev SocketM := ExceptT Error (Prog SocketOp)

/-- An I/O error of a step ends `bind`. -/
def orIo {α : Type} : Except IoError α → SocketM α
  | .ok a => pure a
  | .error e => throw (.io e)

/-- The second half of `bind`: the listener, and its permissions. -/
def listen : SocketM Nat := do
  let listener ← orIo (← ExceptT.lift (.perform .bindListener))
  match ← ExceptT.lift (.perform .setPermissions) with
  | .ok _ => pure listener
  | .error e =>
    -- the listener is closed, and no server is there to remove the file
    ExceptT.lift (.perform (.close listener))
    throw (.io e)

def bind (socketPath : Str) : SocketM Nat := do
  if ← ExceptT.lift (.perform .exists) then
    match ← ExceptT.lift (.perform .connect) with
    | .ok _ => throw (anotherServer socketPath)
    | .error _ => orIo (← ExceptT.lift (.perform .removeFile))
  listen

/-- `Drop for IpcServer`; the listener is closed after it. -/
def drop (listener : Nat) : Prog SocketOp Unit := do
  if ← .perform .exists then
    let _ ← .perform .removeFile
  .perform (.close listener)

/-- A process: it binds a server and drops it at some time. -/
def serve (socketPath : Str) : SocketM Unit := do
  let listener ← bind socketPath
  ExceptT.lift (drop listener)

/-! ## The flowchart of a process -/

inductive Point
  | probe
  | connect
  | removeStale
  | bindListener
  | permissions (listener : Nat)
  | abandon (listener : Nat) (e : IoError)
  | live (listener : Nat)
  | cleanUp (listener : Nat)
  | close (listener : Nat)
  | done (outcome : Except Error Unit)
deriving DecidableEq

def flow (socketPath : Str) : Point → Box SocketOp (Except Error Unit) Point
  | .probe => .call .exists fun found => if found then .connect else .bindListener
  | .connect => .call .connect fun result => match result with
    | .ok _ => .done (.error (anotherServer socketPath))
    | .error _ => .removeStale
  | .removeStale => .call .removeFile fun result => match result with
    | .ok _ => .bindListener
    | .error e => .done (.error (.io e))
  | .bindListener => .call .bindListener fun result => match result with
    | .ok listener => .permissions listener
    | .error e => .done (.error (.io e))
  | .permissions listener => .call .setPermissions fun result => match result with
    | .ok _ => .live listener
    | .error e => .abandon listener e
  | .abandon listener e => .call (.close listener) fun _ => .done (.error (.io e))
  | .live listener => .call .exists fun found => if found then .cleanUp listener else .close listener
  | .cleanUp listener => .call .removeFile fun _ => .close listener
  | .close listener => .call (.close listener) fun _ => .done (.ok ())
  | .done outcome => .ret outcome

theorem follows_live (socketPath : Str) (listener : Nat) :
    Follows (flow socketPath) (.live listener) (ExceptT.lift (ε := Error) (drop listener)).run := by
  refine .call rfl fun found => ?_
  cases found with
  | false => exact .call rfl fun _ => .ret rfl
  | true => exact .call rfl fun _ => .call rfl fun _ => .ret rfl

theorem follows_listen (socketPath : Str) : Follows (flow socketPath) .bindListener
    (listen >>= fun listener => ExceptT.lift (drop listener)).run := by
  refine .call rfl fun result => ?_
  cases result with
  | error e => exact .ret rfl
  | ok listener =>
    refine .call rfl fun result => ?_
    cases result with
    | error e => exact .call rfl fun _ => .ret rfl
    | ok _ => exact follows_live socketPath listener

/-- The flowchart is that of a process. -/
theorem follows_serve (socketPath : Str) : Follows (flow socketPath) .probe (serve socketPath).run := by
  refine .call rfl fun found => ?_
  cases found with
  | false => exact follows_listen socketPath
  | true =>
    refine .call rfl fun result => ?_
    cases result with
    | ok _ => exact .ret rfl
    | error e =>
      refine .call rfl fun result => ?_
      cases result with
      | error e => exact .ret rfl
      | ok _ => exact follows_listen socketPath

/-! ## Processes on one path -/

def system (socketPath : Str) : System SocketOp (Except Error Unit) Point SocketFs where
  flow := flow socketPath
  act := SocketFs.act
  drift _ _ _ := False

/-- No process has started; a socket file may be left of a server that is gone. -/
def start (stale : Bool) : Pool Point SocketFs := ⟨⟨if stale then some 0 else none, [], 1⟩, fun _ => .probe⟩

/-- The file that a `bind` removes is stale. -/
def RemovesStale (p : Pool Point SocketFs) (i : Option Nat) : Prop :=
  ∀ j, i = some j → p.point j = .removeStale → ¬ p.shared.Live

/-- The moves of a process. -/
inductive Moves (socketPath : Str) (s : SocketFs) : Point → Point → SocketFs → Prop
  | found (h : s.path.isSome) : Moves socketPath s .probe .connect s
  | unfound (h : s.path = none) : Moves socketPath s .probe .bindListener s
  | answered : Moves socketPath s .connect (.done (.error (anotherServer socketPath))) s
  | unanswered : Moves socketPath s .connect .removeStale s
  | removed : Moves socketPath s .removeStale .bindListener { s with path := none }
  | unremoved (h : s.path = none) : Moves socketPath s .removeStale (.done (.error (.io notFound))) s
  | bound (h : s.path = none) : Moves socketPath s .bindListener (.permissions s.nextListener)
      ⟨some s.nextListener, s.nextListener :: s.listening, s.nextListener + 1⟩
  | unbound : Moves socketPath s .bindListener (.done (.error (.io addressInUse))) s
  | permitted {l : Nat} (h : s.path.isSome) : Moves socketPath s (.permissions l) (.live l) s
  | unpermitted {l : Nat} (h : s.path = none) : Moves socketPath s (.permissions l) (.abandon l notFound) s
  | abandoned {l : Nat} {e : IoError} : Moves socketPath s (.abandon l e) (.done (.error (.io e))) (s.close l)
  | dropping {l : Nat} : Moves socketPath s (.live l) (.cleanUp l) s
  | lost {l : Nat} (h : s.path = none) : Moves socketPath s (.live l) (.close l) s
  | cleanedUp {l : Nat} : Moves socketPath s (.cleanUp l) (.close l) { s with path := none }
  | uncleaned {l : Nat} (h : s.path = none) : Moves socketPath s (.cleanUp l) (.close l) s
  | closed {l : Nat} : Moves socketPath s (.close l) (.done (.ok ())) (s.close l)

/-- What a step of the file system does at a point of the flowchart. -/
theorem Moves.of_act {socketPath : Str} {fs s : SocketFs} {x : Point} (j : Nat) {β : Type} {o : SocketOp β}
    {next : β → Point} {b : β} (hbox : flow socketPath x = .call o next) (hact : SocketFs.act j β o fs = some (b, s)) :
    Moves socketPath fs x (next b) s := by
  cases x with
  | probe =>
    cases hbox
    cases hact
    cases hpath : fs.path with
    | none => exact .unfound hpath
    | some l => exact .found (by rw [hpath]; rfl)
  | connect =>
    cases hbox
    cases hact
    cases fs.connect with
    | ok _ => exact .answered
    | error e => exact .unanswered
  | removeStale =>
    cases hbox
    rcases SocketFs.removeFile_cases (Option.some.inj hact) with ⟨hpath, rfl, rfl⟩ | ⟨rfl, rfl⟩
    · exact .unremoved hpath
    · exact .removed
  | bindListener =>
    cases hbox
    have hbind : fs.bindListener = (b, s) := Option.some.inj hact
    unfold SocketFs.bindListener at hbind
    cases hpath : fs.path with
    | none =>
      rw [hpath] at hbind
      cases hbind
      exact .bound hpath
    | some l =>
      rw [hpath] at hbind
      cases hbind
      exact .unbound
  | permissions l =>
    cases hbox
    cases hact
    unfold SocketFs.setPermissions
    cases hpath : fs.path with
    | none => exact .unpermitted hpath
    | some l' => exact .permitted (by rw [hpath]; rfl)
  | abandon l e =>
    cases hbox
    cases hact
    exact .abandoned
  | live l =>
    cases hbox
    cases hact
    cases hpath : fs.path with
    | none => exact .lost hpath
    | some l' => exact .dropping
  | cleanUp l =>
    cases hbox
    rcases SocketFs.removeFile_cases (Option.some.inj hact) with ⟨hpath, rfl, rfl⟩ | ⟨rfl, rfl⟩
    · exact .uncleaned hpath
    · exact .cleanedUp
  | close l =>
    cases hbox
    cases hact
    exact .closed
  | done outcome => cases hbox

theorem step_moves {socketPath : Str} {p p' : Pool Point SocketFs} {i : Option Nat}
    (h : Step (system socketPath) p i p') :
    ∃ j x s, i = some j ∧ p' = p.move j s x ∧ Moves socketPath p.shared (p.point j) x s := by
  cases h with
  | drift h => cases h
  | act hbox hact =>
    rename_i j β o next b s
    exact ⟨j, next b, s, rfl, rfl, .of_act j hbox hact⟩

/-! ## Who holds the path -/

/-- The listener of a process from its bind to the removal of its file. -/
def Point.held : Point → Option Nat
  | .permissions l | .live l | .cleanUp l => some l
  | _ => none

/-- The listener a process still has open, without the path. -/
def Point.closing : Point → Option Nat
  | .abandon l _ | .close l => some l
  | _ => none

/-- The path belongs to the only process that holds it, and all listeners are old ones. -/
structure Exclusive (p : Pool Point SocketFs) : Prop where
  held : ∀ i l, (p.point i).held = some l → p.shared.path = some l ∧ l ∈ p.shared.listening
  unique : ∀ i j l l', (p.point i).held = some l → (p.point j).held = some l' → i = j
  closing : ∀ i l, (p.point i).closing = some l → p.shared.path ≠ some l ∧ l < p.shared.nextListener
  path : ∀ l, p.shared.path = some l → l < p.shared.nextListener

theorem start_exclusive (stale : Bool) : Exclusive (start stale) where
  held _ _ h := by cases h
  unique _ _ _ _ h := by cases h
  closing _ _ h := by cases h
  path l h := by
    cases stale with
    | false => cases h
    | true =>
      cases h
      decide

section

variable {p : Pool Point SocketFs} {j : Nat} {x : Point} {s : SocketFs}

theorem Exclusive.others (h : Exclusive p) {i : Nat} {l : Nat} (hheld : (p.point j).held = some l) (hij : i ≠ j) :
    (p.point i).held = none := by
  cases hi : (p.point i).held with
  | none => rfl
  | some l' => exact absurd (h.unique i j l' l hi hheld) hij

/-- What has to be seen of a move: the process that moves, and the others. -/
theorem Exclusive.move (h : Exclusive p)
    (hheld : ∀ l, x.held = some l → s.path = some l ∧ l ∈ s.listening ∧ ∀ i ≠ j, (p.point i).held = none)
    (hothers : ∀ i ≠ j, ∀ l, (p.point i).held = some l → s.path = some l ∧ l ∈ s.listening)
    (hclosing : ∀ l, x.closing = some l → s.path ≠ some l ∧ l < s.nextListener)
    (hrest : ∀ i ≠ j, ∀ l, (p.point i).closing = some l → s.path ≠ some l ∧ l < s.nextListener)
    (hpath : ∀ l, s.path = some l → l < s.nextListener) : Exclusive (p.move j s x) where
  held := (Function.forall_update_iff p.point fun _ y => ∀ l, y.held = some l → s.path = some l ∧ l ∈ s.listening).2
    ⟨fun l hl => ⟨(hheld l hl).1, (hheld l hl).2.1⟩, hothers⟩
  unique i k l l' hl hl' := by
    by_cases hij : i = j
    · by_cases hkj : k = j
      · rw [hij, hkj]
      · subst hij
        rw [Pool.move_self] at hl
        rw [Pool.move_other _ _ _ hkj, (hheld l hl).2.2 k hkj] at hl'
        cases hl'
    · rw [Pool.move_other _ _ _ hij] at hl
      by_cases hkj : k = j
      · subst hkj
        rw [Pool.move_self] at hl'
        rw [(hheld l' hl').2.2 i hij] at hl
        cases hl
      · rw [Pool.move_other _ _ _ hkj] at hl'
        exact h.unique i k l l' hl hl'
  closing := (Function.forall_update_iff p.point fun _ y => ∀ l, y.closing = some l →
    s.path ≠ some l ∧ l < s.nextListener).2 ⟨hclosing, hrest⟩
  path := hpath

/-- A move that does not change the file system: the process holds what it has held, or nothing. -/
theorem Exclusive.stay (h : Exclusive p) (hheld : ∀ l, x.held = some l → (p.point j).held = some l)
    (hclosing : ∀ l, x.closing = some l → p.shared.path ≠ some l ∧ l < p.shared.nextListener) :
    Exclusive (p.move j p.shared x) := by
  refine h.move (fun l hl => ?_) (fun i _ l hl => h.held i l hl) hclosing (fun i _ l hl => h.closing i l hl) h.path
  obtain ⟨hpath, hlistening⟩ := h.held j l (hheld l hl)
  exact ⟨hpath, hlistening, fun i hij => h.others (hheld l hl) hij⟩

/-- A file that no other process holds can be removed. -/
theorem Exclusive.remove (h : Exclusive p) (hothers : ∀ i ≠ j, (p.point i).held = none) (hheld : x.held = none)
    (hclosing : ∀ l, x.closing = some l → l < p.shared.nextListener) :
    Exclusive (p.move j { p.shared with path := none } x) := by
  have hfree : ∀ l, (none : Option Nat) ≠ some l := fun l heq => by cases heq
  refine h.move (fun l hl => ?_) (fun i hij l hl => ?_) (fun l hl => ⟨hfree l, hclosing l hl⟩)
    (fun i _ l hl => ⟨hfree l, (h.closing i l hl).2⟩) (fun l hl => by cases hl)
  · rw [hheld] at hl
    cases hl
  · rw [hothers i hij] at hl
    cases hl

/-- A listener that is not at the path can be closed. -/
theorem Exclusive.close (h : Exclusive p) {l : Nat} (hl : p.shared.path ≠ some l) (hheld : x.held = none)
    (hclosing : x.closing = none) : Exclusive (p.move j (p.shared.close l) x) := by
  refine h.move (fun l' hl' => ?_) (fun i _ l' hl' => ?_) (fun l' hl' => ?_) (fun i _ l' hl' => h.closing i l' hl')
    h.path
  · rw [hheld] at hl'
    cases hl'
  · obtain ⟨hpath, hlistening⟩ := h.held i l' hl'
    refine ⟨hpath, List.mem_filter.2 ⟨hlistening, ?_⟩⟩
    have hne : l' ≠ l := fun heq => hl (heq ▸ hpath)
    simpa using hne
  · rw [hclosing] at hl'
    cases hl'

theorem Exclusive.moves {socketPath : Str} (h : Exclusive p) (hstale : RemovesStale p (some j))
    (hm : Moves socketPath p.shared (p.point j) x s) : Exclusive (p.move j s x) := by
  generalize hx : p.point j = point at hm
  cases hm with
  | found | unfound | answered | unanswered | unremoved | unbound =>
    exact h.stay (fun l hl => by cases hl) fun l hl => by cases hl
  | permitted hpath | dropping =>
    exact h.stay (fun l hl => by rw [hx]; exact hl) fun l hl => by cases hl
  | unpermitted hpath =>
    rename_i l
    have hheld := (h.held j l (by rw [hx]; rfl)).1
    rw [hpath] at hheld
    cases hheld
  | lost hpath | uncleaned hpath =>
    rename_i l
    have hheld := (h.held j l (by rw [hx]; rfl)).1
    rw [hpath] at hheld
    cases hheld
  | removed =>
    -- the path refers to no open listener, so no process holds it
    refine h.remove (fun i _ => ?_) rfl (fun l hl => by cases hl)
    cases hi : (p.point i).held with
    | none => rfl
    | some l => exact absurd ⟨l, (h.held i l hi).2, (h.held i l hi).1⟩ (hstale j rfl hx)
  | cleanedUp =>
    rename_i l
    have hheld : (p.point j).held = some l := by rw [hx]; rfl
    refine h.remove (fun i hij => ?_) rfl (fun l' hl' => ?_)
    · exact h.others hheld hij
    · cases hl'
      exact h.path _ (h.held j l hheld).1
  | bound hpath =>
    have hfree : ∀ i, (p.point i).held = none := by
      intro i
      cases hi : (p.point i).held with
      | none => rfl
      | some l =>
        have hheld := (h.held i l hi).1
        rw [hpath] at hheld
        cases hheld
    refine h.move (fun l hl => ?_) (fun i _ l hl => ?_) (fun l hl => by cases hl) (fun i _ l hl => ?_) (fun l hl => ?_)
    · cases hl
      exact ⟨rfl, List.mem_cons_self, fun i _ => hfree i⟩
    · rw [hfree i] at hl
      cases hl
    · have hlt := (h.closing i l hl).2
      refine ⟨fun heq => ?_, by simp only; omega⟩
      have := Option.some.inj heq
      omega
    · cases hl
      simp
  | abandoned => exact h.close (h.closing j _ (by rw [hx]; rfl)).1 rfl rfl
  | closed => exact h.close (h.closing j _ (by rw [hx]; rfl)).1 rfl rfl

end

theorem reached_exclusive {socketPath : Str} {stale : Bool} {p : Pool Point SocketFs}
    (h : Reached (system socketPath) RemovesStale (start stale) p) : Exclusive p :=
  h.invariant (start_exclusive stale) fun p p' i hp hallowed hstep => by
    obtain ⟨j, x, s, rfl, rfl, hm⟩ := step_moves hstep
    exact hp.moves hallowed hm

/-- In every run in which each `bind` finds a stale file when it removes one, from a path that is free or stale: a
server that is bound and not dropped is at the path with an open listener, it is the only one, and no step of
another process takes the path from it. -/
theorem live_server_holds_path (socketPath : Str) (stale : Bool) (p : Pool Point SocketFs)
    (h : Reached (system socketPath) RemovesStale (start stale) p) :
    (∀ i l, p.point i = .live l → p.shared.path = some l ∧ l ∈ p.shared.listening) ∧
      (∀ i j l l', p.point i = .live l → p.point j = .live l' → i = j) ∧
      ∀ i p', RemovesStale p (some i) → Step (system socketPath) p (some i) p' →
        ∀ j l, j ≠ i → p.point j = .live l → p'.shared.path = some l := by
  have hexclusive := reached_exclusive h
  refine ⟨fun i l hi => hexclusive.held i l (by rw [hi]; rfl), fun i j l l' hi hj => ?_, ?_⟩
  · exact hexclusive.unique i j l l' (by rw [hi]; rfl) (by rw [hj]; rfl)
  · intro i p' hallowed hstep j l hji hj
    have hexclusive' := reached_exclusive (h.step hallowed hstep)
    obtain ⟨k, x, s, hk, rfl, -⟩ := step_moves hstep
    obtain rfl := Option.some.inj hk
    refine (hexclusive'.held j l ?_).1
    rw [Pool.move_other _ _ _ hji, hj]
    rfl

theorem reached_advance {socketPath : Str} {stale : Bool} {p q : Pool Point SocketFs} {i : Nat}
    (h : Reached (system socketPath) RemovesStale (start stale) p)
    (hallowed : p.point i ≠ .removeStale ∨ p.shared.listening = [])
    (hstep : (system socketPath).advance i p = some q) : Reached (system socketPath) RemovesStale (start stale) q := by
  refine h.step (fun j hj hpoint => ?_) (System.advance_step hstep)
  obtain rfl := Option.some.inj hj
  rintro ⟨l, hl, -⟩
  rw [hallowed.resolve_left (not_not_intro hpoint)] at hl
  cases hl

/-- A server over a stale file. -/
theorem live_server_holds_path_sample : ∃ p, Reached (system "/sync.sock".toList) RemovesStale (start true) p ∧
    p.point 0 = .live 1 ∧ p.shared.path = some 1 := by
  have h₁ := reached_advance (i := 0) (.refl : Reached (system "/sync.sock".toList) RemovesStale (start true) _)
    (.inr rfl) rfl
  have h₂ := reached_advance (i := 0) h₁ (.inr rfl) rfl
  have h₃ := reached_advance (i := 0) h₂ (.inr rfl) rfl
  have h₄ := reached_advance (i := 0) h₃ (.inr rfl) rfl
  have h₅ := reached_advance (i := 0) h₄ (.inl (by decide)) rfl
  exact ⟨_, h₅, rfl, ((live_server_holds_path _ true _ h₅).1 0 1 rfl).1⟩

/-- The second process finds the path and probes it when the first one has dropped its server; before it removes
the file, the third process has bound its own. -/
theorem live_server_removed : ∃ q, Steps (system "/sync.sock".toList) (start false) q ∧ q.point 2 = .live 2 ∧
    q.shared.path = none := by
  have hrun : ((system "/sync.sock".toList).schedule [0, 0, 0, 1, 0, 0, 0, 1, 2, 2, 2, 1] (start false)).map
      (fun q => (q.point 2, q.shared.path)) = some (.live 2, none) := by decide +kernel
  obtain ⟨q, hq, heq⟩ := Option.map_eq_some_iff.1 hrun
  obtain ⟨hpoint, hpath⟩ := Prod.mk.inj heq
  exact ⟨q, System.schedule_steps hq, hpoint, hpath⟩

end IpcServer

end CloudSync.Ipc
