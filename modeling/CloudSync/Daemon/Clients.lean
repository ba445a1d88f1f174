/-
The clients of the daemon. `run` of `IpcServer` accepts them and serves each in a task of its own, `handle_connection`;
the tasks share the database and are interleaved wherever a request has done a part of its work. Whatever the order of
their steps, the replies are those of one request after the other: there is an order of all the parts in which every
client's come in its own order, and a batch is answered path by path.
-/
import CloudSync.Daemon.Confinement
import CloudSync.Ipc.Server
import CloudSync.Lib.CallRuns

namespace CloudSync

open Ipc (Request Response FileStatus Error)

/-! ## The parts of a request -/

/-- What a request does without a break: a batch asks for one path after the other, every other request has a single
section or none. -/
def Ipc.Request.parts : Request → List Request
  | .getStatusBatch paths => paths.map .getStatus
  | request => [request]

/-- The entry of a batch for the reply to one of its paths. -/
def Ipc.FileStatus.ofReply (path : Str) : Response → FileStatus
  | .status path state provider _ => ⟨path, state, provider⟩
  | _ => ⟨path, .error, none⟩

/-- The response to a request whose parts have these replies. -/
def Ipc.Request.assemble : Request → List Response → Response
  | .getStatusBatch paths, replies => .statusBatch (List.zipWith FileStatus.ofReply paths replies)
  -- a single part: the response is its reply
  | _, replies => replies.headD .ok

namespace DaemonHandler

variable {env : DaemonEnv} {h : DaemonHandler}

theorem getStatusBatch_parts {paths : List Str} {replies : List Response} {w : DaemonWorld}
    (hreplies : (CallRuns.run (h.handle env) (paths.map .getStatus) w).1.map Prod.snd = replies.map some) :
    h.getStatusBatch env paths w = (some (List.zipWith FileStatus.ofReply paths replies),
      (CallRuns.run (h.handle env) (paths.map .getStatus) w).2) := by
  induction paths generalizing w replies with
  | nil =>
    cases replies with
    | nil => rfl
    | cons reply replies => cases hreplies
  | cons path paths ih =>
    cases replies with
    | nil => cases hreplies
    | cons reply replies =>
      rw [List.map_cons, CallRuns.run_cons, List.map_cons, List.map_cons] at hreplies
      obtain ⟨hfirst, hrest⟩ := List.cons.inj hreplies
      have hpath : h.getStatusForPath env path w = (some reply, (h.handle env (.getStatus path) w).2) :=
        Prod.ext hfirst rfl
      unfold getStatusBatch
      simp only [hpath, ih hrest, List.map_cons, CallRuns.run_cons]
      cases reply <;> rfl

/-- A request whose parts are handled with nothing in between is handled as a whole. -/
theorem handle_parts {request : Request} {replies : List Response} {w : DaemonWorld}
    (hreplies : (CallRuns.run (h.handle env) request.parts w).1.map Prod.snd = replies.map some) :
    h.handle env request w =
      (some (request.assemble replies), (CallRuns.run (h.handle env) request.parts w).2) := by
  cases request with
  | getStatusBatch paths =>
    show ((h.getStatusBatch env paths w).1.map Response.statusBatch, (h.getStatusBatch env paths w).2) = _
    rw [getStatusBatch_parts hreplies]
    rfl
  | getStatus | setPinned | setCloudOnly | forceSync | pauseSync | resumeSync =>
    cases replies with
    | nil => cases hreplies
    | cons reply replies => exact Prod.ext (List.cons.inj hreplies).1 rfl

/-! ### No request panics -/

theorem getStatusForPath_replies (path : Str) (w : DaemonWorld) :
    ∃ response, (h.getStatusForPath env path w).1 = some response := by
  unfold getStatusForPath
  cases h.resolveAndLookup path with
  | error resp => exact ⟨resp, rfl⟩
  | ok found =>
    obtain ⟨accountId, cloudPath, slug⟩ := found
    simp only
    unfold DaemonWorld.withConn
    cases env.dbFault w.sections with
    | some e => exact ⟨_, rfl⟩
    | none =>
      cases hrow : firstRow env w.db accountId cloudPath with
      | none =>
        rw [getFileByCloudPath_none _ hrow]
        exact ⟨_, rfl⟩
      | some r =>
        obtain ⟨f, -, -, hget⟩ := getFileByCloudPath_some (env.clock w.sections) hrow
        rw [hget]
        exact ⟨_, rfl⟩

theorem getStatusBatch_replies (paths : List Str) (w : DaemonWorld) :
    ∃ statuses, (h.getStatusBatch env paths w).1 = some statuses := by
  induction paths generalizing w with
  | nil => exact ⟨[], rfl⟩
  | cons path paths ih =>
    obtain ⟨response, hpath⟩ : ∃ response, (h.getStatusForPath env path w).1 = some response :=
      getStatusForPath_replies path w
    obtain ⟨statuses, hrest⟩ := ih (h.getStatusForPath env path w).2
    have hfirst : h.getStatusForPath env path w = (some response, (h.getStatusForPath env path w).2) :=
      Prod.ext hpath rfl
    have hothers : h.getStatusBatch env paths (h.getStatusForPath env path w).2 =
        (some statuses, (h.getStatusBatch env paths (h.getStatusForPath env path w).2).2) := Prod.ext hrest rfl
    unfold getStatusBatch
    rw [hfirst]
    simp only
    rw [hothers]
    exact ⟨_, rfl⟩

theorem replyTo_replies {accountId : AccountId} {cloudPath : CloudPath} {state : FileState} {f : DbM Bool}
    (hf : ∀ now db, SectionDone env accountId cloudPath now state db (f now db)) (path : Str)
    (after : DaemonWorld → DaemonWorld) (w : DaemonWorld) :
    ∃ response, (replyTo env path after (w.withConn env f)).1 = some response := by
  unfold DaemonWorld.withConn
  cases env.dbFault w.sections with
  | some e => exact ⟨_, rfl⟩
  | none =>
    have hdone := hf (env.clock w.sections) w.db
    simp only
    generalize f (env.clock w.sections) w.db = answer at hdone
    cases hdone <;> exact ⟨_, rfl⟩

theorem handle_replies (request : Request) (w : DaemonWorld) :
    ∃ response, (h.handle env request w).1 = some response := by
  cases request with
  | getStatus path => exact getStatusForPath_replies path w
  | getStatusBatch paths =>
    obtain ⟨statuses, hstatuses⟩ : ∃ statuses, (h.getStatusBatch env paths w).1 = some statuses :=
      getStatusBatch_replies paths w
    exact ⟨.statusBatch statuses, congrArg (Option.map Response.statusBatch) hstatuses⟩
  | setPinned path pinned =>
    simp only [handle]
    cases h.resolveAndLookup path with
    | error resp => exact ⟨resp, rfl⟩
    | ok found =>
      cases pinned with
      | true => exact replyTo_replies setPinnedSection_done path _ w
      | false => exact replyTo_replies setCloudOnlySection_done path _ w
  | setCloudOnly path =>
    simp only [handle]
    cases h.resolveAndLookup path with
    | error resp => exact ⟨resp, rfl⟩
    | ok found => exact replyTo_replies setCloudOnlySection_done path _ w
  | forceSync path =>
    simp only [handle]
    cases h.resolveAndLookup path with
    | error resp => exact ⟨resp, rfl⟩
    | ok found => exact ⟨.ok, rfl⟩
  | pauseSync provider => exact ⟨.ok, rfl⟩
  | resumeSync provider => exact ⟨.ok, rfl⟩

end DaemonHandler

/-! ## The task of a connection -/

/-- How the task of a connection ends. -/
inductive Ending
  | disconnected
  | shutdown
  | failed (e : Error)
  | panicked
deriving DecidableEq

/-- A message, which is a request or a line that is none, the parts it was handled in, and the response. -/
structure Exchange where
  message : Except Str Request
  parts : List (Request × Response)
  response : Response

/-- Where the task is: its client is not accepted yet, it waits for a message, it has done some parts of a request, it
has a response to write, or it has ended. -/
inductive ConnPhase
  | waiting
  | reading
  | handling (request : Request) (done : List (Request × Response)) (todo : List Request)
  | writing (exchange : Exchange)
  | ended (ending : Ending)

/-- A connection with its history: the messages read, the parts handled, and the exchanges whose response is written. -/
structure Conn where
  phase : ConnPhase
  received : List (Except Str Request)
  worked : List (Request × Option Response)
  log : List Exchange

namespace Conn

def fresh : Conn := ⟨.waiting, [], [], []⟩

def accept (c : Conn) : Conn := match c.phase with
  | .waiting => { c with phase := .reading }
  | _ => c

/-- `read_message` has returned. -/
def read (message : Except Error (Option Request)) (c : Conn) : Conn := match c.phase with
  | .reading => match message with
    | .ok (some request) =>
      { c with phase := .handling request [] request.parts, received := c.received ++ [.ok request] }
    | .ok none => { c with phase := .ended .disconnected }
    | .error (.json e) =>
      { c with phase := .writing ⟨.error e, [], .error ("malformed JSON: ".toList ++ e)⟩,
               received := c.received ++ [.error e] }
    | .error e => { c with phase := .ended (.failed e) }
  | _ => c

/-- `shutdown_rx.changed()` has returned. -/
def signal (shutdown : Bool) (c : Conn) : Conn := match c.phase with
  | .reading => if shutdown then { c with phase := .ended .shutdown } else c
  | _ => c

/-- The part of a request that is next. -/
def part (c : Conn) : Option Request := match c.phase with
  | .handling _ _ (part :: _) => some part
  | _ => none

/-- The next part is handled. A handler that panics ends the task; that the lock of the database would be poisoned is
not followed further, as `handle_replies` excludes it. -/
def handled (reply : Option Response) (c : Conn) : Conn := match c.phase with
  | .handling request done (part :: todo) => match reply with
    | some response =>
      { c with phase := .handling request (done ++ [(part, response)]) todo, worked := c.worked ++ [(part, reply)] }
    | none => { c with phase := .ended .panicked, worked := c.worked ++ [(part, none)] }
  | _ => c

/-- `handle` returns. -/
def respond (c : Conn) : Conn := match c.phase with
  | .handling request done [] =>
    { c with phase := .writing ⟨.ok request, done, request.assemble (done.map Prod.snd)⟩ }
  | _ => c

/-- `write_message` has returned. -/
def wrote (result : Except Error Unit) (c : Conn) : Conn := match c.phase with
  | .writing exchange => match result with
    | .ok _ => { c with phase := .reading, log := c.log ++ [exchange] }
    | .error e => { c with phase := .ended (.failed e) }
  | _ => c

end Conn

/-! ## The server with its clients -/

/-- The handler `main` starts, which has no channel for actions. -/
def DaemonHandler.ofMain (pathResolver : PathResolver) (providerAccounts : List (Str × AccountId)) : DaemonHandler :=
  ⟨pathResolver, providerAccounts, false⟩

/-- The server, with a task for every client. -/
structure IpcService where
  world : DaemonWorld
  shutdown : Bool
  accepting : Bool
  conns : Nat → Conn

/-- What happens next. The accept loop ends when it sees the signal or the listener fails; `database` is a write of
somebody else. -/
inductive ServiceEvent
  | accept (client : Nat)
  | acceptEnds (failed : Bool)
  | shutdown
  | read (client : Nat) (message : Except Error (Option Request))
  | signal (client : Nat)
  | work (client : Nat)
  | respond (client : Nat)
  | wrote (client : Nat) (result : Except Error Unit)
  | database (db : Database)

namespace IpcService

section

variable (env : DaemonEnv) (h : DaemonHandler)

def start (world : DaemonWorld) : IpcService := ⟨world, false, true, fun _ => Conn.fresh⟩

/-- A step of the task of one client that does not touch the database. -/
def update (s : IpcService) (client : Nat) (f : Conn → Conn) : IpcService :=
  { s with conns := Function.update s.conns client (f (s.conns client)) }

def step : ServiceEvent → IpcService → IpcService
  | .accept client, s => if s.accepting then s.update client .accept else s
  | .acceptEnds failed, s => if failed || s.shutdown then { s with accepting := false } else s
  | .shutdown, s => { s with shutdown := true }
  | .read client message, s => s.update client (.read message)
  | .signal client, s => s.update client (.signal s.shutdown)
  | .work client, s => match (s.conns client).part with
    | some part =>
      { s with world := (h.handle env part s.world).2 }.update client (.handled (h.handle env part s.world).1)
    | none => s
  | .respond client, s => s.update client .respond
  | .wrote client result, s => s.update client (.wrote result)
  | .database db, s => { s with world := { s.world with db := db } }

def run (events : List ServiceEvent) (s : IpcService) : IpcService := events.foldl (fun s e => s.step env h e) s

end

end IpcService

/-! ## One connection -/

/-- The parts of an exchange with their replies. -/
def Exchange.worked (exchange : Exchange) : List (Request × Option Response) :=
  exchange.parts.map fun p => (p.1, some p.2)

/-- The response is the one to the message: that of the replies to its parts, or the error for a line that is no
request. -/
def Exchange.Sound (exchange : Exchange) : Prop := match exchange.message with
  | .ok request => exchange.parts.map Prod.fst = request.parts ∧
      exchange.response = request.assemble (exchange.parts.map Prod.snd)
  | .error e => exchange.parts = [] ∧ exchange.response = .error ("malformed JSON: ".toList ++ e)

namespace Conn

/-- What a task has read and done that is not in its log yet. -/
inductive Open : ConnPhase → List (Except Str Request) → List (Request × Option Response) → Prop
  | waiting : Open .waiting [] []
  | reading : Open .reading [] []
  | handling {request : Request} {done : List (Request × Response)} {todo : List Request}
      (hparts : done.map Prod.fst ++ todo = request.parts) :
      Open (.handling request done todo) [.ok request] (done.map fun p => (p.1, some p.2))
  | writing {exchange : Exchange} (hsound : exchange.Sound) :
      Open (.writing exchange) [exchange.message] exchange.worked
  | disconnected : Open (.ended .disconnected) [] []
  | shutdown : Open (.ended .shutdown) [] []
  | failed {e : Error} {received : List (Except Str Request)} {worked : List (Request × Option Response)}
      (hone : received.length ≤ 1) : Open (.ended (.failed e)) received worked

/-- The messages read are those of the log and at most one more, every response written is that to its message, and
the parts handled are those of the log and of the message that is open. The task has not panicked. -/
structure Orderly (c : Conn) : Prop where
  sound : ∀ exchange ∈ c.log, exchange.Sound
  history : ∃ received worked, c.received = c.log.map Exchange.message ++ received ∧
    c.worked = c.log.flatMap Exchange.worked ++ worked ∧ Open c.phase received worked

theorem Orderly.fresh : Orderly fresh := ⟨List.forall_mem_nil _, [], [], rfl, rfl, .waiting⟩

/-- A step of the task leaves the log as it is, and adds nothing to what was read and done. -/
theorem Orderly.moved {c : Conn} (h : c.Orderly) {phase : ConnPhase}
    (hopen : ∀ received worked, Open c.phase received worked → Open phase received worked) :
    Orderly { c with phase := phase } := by
  obtain ⟨received, worked, hreceived, hworked, hphase⟩ := h.history
  exact ⟨h.sound, received, worked, hreceived, hworked, hopen _ _ hphase⟩

theorem Orderly.accept {c : Conn} (h : c.Orderly) : c.accept.Orderly := by
  unfold Conn.accept
  split
  · rename_i hphase
    refine h.moved fun received worked hopen => ?_
    rw [hphase] at hopen
    cases hopen
    exact .reading
  · exact h

theorem Orderly.read {c : Conn} (h : c.Orderly) (message : Except Error (Option Request)) :
    (c.read message).Orderly := by
  unfold Conn.read
  split
  · rename_i hphase
    -- a task that reads has answered everything
    obtain ⟨received, worked, hreceived, hworked, hopen⟩ := h.history
    rw [hphase] at hopen
    cases hopen
    rw [List.append_nil] at hreceived hworked
    split
    · rename_i request
      exact ⟨h.sound, [.ok request], [], congrArg (· ++ _) hreceived, hworked.trans (List.append_nil _).symm,
        .handling rfl⟩
    · refine h.moved fun received worked hopen => ?_
      rw [hphase] at hopen
      cases hopen
      exact .disconnected
    · rename_i e
      have hsound : Exchange.Sound ⟨.error e, [], .error ("malformed JSON: ".toList ++ e)⟩ := ⟨rfl, rfl⟩
      exact ⟨h.sound, [.error e], [], congrArg (· ++ _) hreceived, hworked.trans (List.append_nil _).symm,
        .writing hsound⟩
    · refine h.moved fun received worked hopen => ?_
      rw [hphase] at hopen
      cases hopen
      exact .failed (Nat.zero_le 1)
  · exact h

theorem Orderly.signal {c : Conn} (h : c.Orderly) (shutdown : Bool) : (c.signal shutdown).Orderly := by
  unfold Conn.signal
  split
  · rename_i hphase
    split
    · refine h.moved fun received worked hopen => ?_
      rw [hphase] at hopen
      cases hopen
      exact .shutdown
    · exact h
  · exact h

theorem Orderly.handled {c : Conn} (h : c.Orderly) (response : Response) : (c.handled (some response)).Orderly := by
  unfold Conn.handled
  split
  · rename_i request done part todo hphase
    obtain ⟨received, worked, hreceived, hworked, hopen⟩ := h.history
    rw [hphase] at hopen
    cases hopen
    rename_i hparts
    have hdone : (done ++ [(part, response)]).map Prod.fst ++ todo = request.parts := by
      rw [← hparts, List.map_append, List.append_assoc]
      rfl
    refine ⟨h.sound, _, _, hreceived, ?_, .handling hdone⟩
    rw [List.map_append, ← List.append_assoc]
    exact congrArg (· ++ _) hworked
  · exact h

theorem Orderly.respond {c : Conn} (h : c.Orderly) : c.respond.Orderly := by
  unfold Conn.respond
  split
  · rename_i request done hphase
    refine h.moved fun received worked hopen => ?_
    rw [hphase] at hopen
    cases hopen
    rename_i hparts
    rw [List.append_nil] at hparts
    have hsound : Exchange.Sound ⟨.ok request, done, request.assemble (done.map Prod.snd)⟩ := ⟨hparts, rfl⟩
    exact .writing hsound
  · exact h

theorem Orderly.wrote {c : Conn} (h : c.Orderly) (result : Except Error Unit) : (c.wrote result).Orderly := by
  unfold Conn.wrote
  split
  · rename_i exchange hphase
    obtain ⟨received, worked, hreceived, hworked, hopen⟩ := h.history
    rw [hphase] at hopen
    cases hopen
    rename_i hexchange
    split
    · refine ⟨?_, [], [], ?_, ?_, .reading⟩
      · intro ex hex
        rcases List.mem_append.1 hex with hex | hex
        · exact h.sound ex hex
        · obtain rfl := List.mem_singleton.1 hex
          exact hexchange
      · rw [List.map_append, List.append_nil]
        exact hreceived
      · rw [List.flatMap_append, List.append_nil, List.flatMap_singleton]
        exact hworked
    · exact ⟨h.sound, _, _, hreceived, hworked, .failed (le_refl 1)⟩
  · exact h

/-! ### What a step leaves alone -/

theorem accept_worked (c : Conn) : c.accept.worked = c.worked ∧ c.log <+: c.accept.log := by
  unfold Conn.accept
  split <;> exact ⟨rfl, List.prefix_refl _⟩

theorem read_worked (message : Except Error (Option Request)) (c : Conn) :
    (c.read message).worked = c.worked ∧ c.log <+: (c.read message).log := by
  unfold Conn.read
  split
  · split <;> exact ⟨rfl, List.prefix_refl _⟩
  · exact ⟨rfl, List.prefix_refl _⟩

theorem signal_worked (shutdown : Bool) (c : Conn) :
    (c.signal shutdown).worked = c.worked ∧ c.log <+: (c.signal shutdown).log := by
  unfold Conn.signal
  split
  · split <;> exact ⟨rfl, List.prefix_refl _⟩
  · exact ⟨rfl, List.prefix_refl _⟩

theorem respond_worked (c : Conn) : c.respond.worked = c.worked ∧ c.log <+: c.respond.log := by
  unfold Conn.respond
  split <;> exact ⟨rfl, List.prefix_refl _⟩

theorem wrote_worked (result : Except Error Unit) (c : Conn) :
    (c.wrote result).worked = c.worked ∧ c.log <+: (c.wrote result).log := by
  unfold Conn.wrote
  split
  · split
    · exact ⟨rfl, List.prefix_append _ _⟩
    · exact ⟨rfl, List.prefix_refl _⟩
  · exact ⟨rfl, List.prefix_refl _⟩

theorem handled_worked {c : Conn} {part : Request} (hpart : c.part = some part) (reply : Option Response) :
    (c.handled reply).worked = c.worked ++ [(part, reply)] ∧ (c.handled reply).log = c.log := by
  obtain ⟨phase, received, worked, log⟩ := c
  cases phase with
  | handling request done todo =>
    cases todo with
    | nil => cases hpart
    | cons first todo =>
      obtain rfl : first = part := Option.some.inj hpart
      cases reply <;> exact ⟨rfl, rfl⟩
  | waiting | reading | writing | ended => cases hpart

end Conn

/-! ## All connections -/

/-- What happens to the database, in order: a part of a client's request is handled, or somebody else writes it. -/
inductive ServiceAct
  | part (client : Nat) (request : Request)
  | database (db : Database)

namespace IpcService

section

variable (env : DaemonEnv) (h : DaemonHandler)

/-- One act after the other, with the replies of the handler. -/
def serve : ServiceAct → DaemonWorld → Option Response × DaemonWorld
  | .part _ request, w => h.handle env request w
  | .database db, w => (none, { w with db := db })

/-- The parts of a client among the acts, with their replies. -/
def servedTo (client : Nat) (served : List (ServiceAct × Option Response)) : List (Request × Option Response) :=
  served.filterMap fun
    | (.part other request, reply) => if other = client then some (request, reply) else none
    | (.database _, _) => none

variable {env h}

theorem servedTo_append (client : Nat) (served served' : List (ServiceAct × Option Response)) :
    servedTo client (served ++ served') = servedTo client served ++ servedTo client served' :=
  List.filterMap_append

/-- From one state of the server to a later one: some acts, one after the other, have changed the database, and what
every client was served is what they answer it. -/
structure Serially (env : DaemonEnv) (h : DaemonHandler) (s : IpcService) (acts : List ServiceAct) (s' : IpcService) :
    Prop where
  world : s'.world = (CallRuns.run (serve env h) acts s.world).2
  worked : ∀ i, (s'.conns i).worked = (s.conns i).worked ++ servedTo i (CallRuns.run (serve env h) acts s.world).1
  log : ∀ i, (s.conns i).log <+: (s'.conns i).log

theorem Serially.refl (s : IpcService) : Serially env h s [] s :=
  ⟨rfl, fun _ => (List.append_nil _).symm, fun _ => List.prefix_refl _⟩

theorem Serially.trans {s s' s'' : IpcService} {acts acts' : List ServiceAct} (h₁ : Serially env h s acts s')
    (h₂ : Serially env h s' acts' s'') : Serially env h s (acts ++ acts') s'' := by
  constructor
  · rw [CallRuns.run_append, ← h₁.world, h₂.world]
  · intro i
    rw [CallRuns.run_append, ← h₁.world, h₂.worked i, h₁.worked i, servedTo_append, List.append_assoc]
  · exact fun i => (h₁.log i).trans (h₂.log i)

/-- A step of one task that does not touch the database. -/
theorem Serially.update {s : IpcService} {client : Nat} {f : Conn → Conn}
    (hf : (f (s.conns client)).worked = (s.conns client).worked ∧ (s.conns client).log <+: (f (s.conns client)).log) :
    Serially env h s [] (s.update client f) := by
  have hconns : ∀ i, ((s.update client f).conns i).worked = (s.conns i).worked ∧
      (s.conns i).log <+: ((s.update client f).conns i).log := by
    intro i
    unfold IpcService.update
    by_cases hi : i = client
    · subst hi
      simp only [Function.update_self]
      exact hf
    · simp only [Function.update_of_ne hi]
      exact ⟨trivial, List.prefix_refl _⟩
  exact ⟨rfl, fun i => (hconns i).1.trans (List.append_nil _).symm, fun i => (hconns i).2⟩

/-- What one event does is nothing to the database, or one act. -/
theorem step_serially (e : ServiceEvent) (s : IpcService) : ∃ acts, Serially env h s acts (s.step env h e) := by
  cases e with
  | accept client =>
    simp only [step]
    split
    · exact ⟨[], .update (Conn.accept_worked _)⟩
    · exact ⟨[], .refl s⟩
  | acceptEnds failed =>
    refine ⟨[], ?_⟩
    simp only [step]
    split
    · exact ⟨rfl, fun _ => (List.append_nil _).symm, fun _ => List.prefix_refl _⟩
    · exact .refl s
  | shutdown => exact ⟨[], rfl, fun _ => (List.append_nil _).symm, fun _ => List.prefix_refl _⟩
  | read client message => exact ⟨[], .update (Conn.read_worked _ _)⟩
  | signal client => exact ⟨[], .update (Conn.signal_worked _ _)⟩
  | work client =>
    simp only [step]
    split
    · rename_i part hpart
      obtain ⟨hworked, hlog⟩ := Conn.handled_worked hpart (h.handle env part s.world).1
      refine ⟨[.part client part], rfl, fun i => ?_, fun i => ?_⟩
      · unfold update
        by_cases hi : i = client
        · subst hi
          simp only [Function.update_self, hworked]
          simp [serve, servedTo]
        · have hne : client ≠ i := fun heq => hi heq.symm
          simp only [Function.update_of_ne hi]
          simp [servedTo, hne]
      · unfold update
        by_cases hi : i = client
        · subst hi
          simp only [Function.update_self, hlog]
          exact List.prefix_refl _
        · simp only [Function.update_of_ne hi]
          exact List.prefix_refl _
    · exact ⟨[], .refl s⟩
  | respond client => exact ⟨[], .update (Conn.respond_worked _)⟩
  | wrote client result => exact ⟨[], .update (Conn.wrote_worked _ _)⟩
  | database db =>
    exact ⟨[.database db], rfl, fun i => (List.append_nil _).symm, fun i => List.prefix_refl _⟩

theorem run_serially (events : List ServiceEvent) (s : IpcService) :
    ∃ acts, Serially env h s acts (s.run env h events) := by
  induction events generalizing s with
  | nil => exact ⟨[], .refl s⟩
  | cons e events ih =>
    obtain ⟨acts, hstep⟩ := @step_serially env h e s
    obtain ⟨acts', hrun⟩ := ih (s.step env h e)
    exact ⟨acts ++ acts', hstep.trans hrun⟩

theorem update_orderly {s : IpcService} (hs : ∀ i, (s.conns i).Orderly) {client : Nat} {f : Conn → Conn}
    (hf : (f (s.conns client)).Orderly) (i : Nat) : ((s.update client f).conns i).Orderly := by
  unfold update
  by_cases hi : i = client
  · subst hi
    simp only [Function.update_self]
    exact hf
  · simp only [Function.update_of_ne hi]
    exact hs i

theorem step_orderly {s : IpcService} (hs : ∀ i, (s.conns i).Orderly) (e : ServiceEvent) :
    ∀ i, ((s.step env h e).conns i).Orderly := by
  cases e with
  | accept client =>
    simp only [step]
    split
    · exact update_orderly hs (hs client).accept
    · exact hs
  | acceptEnds failed =>
    simp only [step]
    split <;> exact hs
  | shutdown => exact hs
  | read client message => exact update_orderly hs ((hs client).read message)
  | signal client => exact update_orderly hs ((hs client).signal s.shutdown)
  | work client =>
    simp only [step]
    split
    · rename_i part hpart
      have hworld : ∀ i, ({ s with world := (h.handle env part s.world).2 }.conns i).Orderly := hs
      obtain ⟨response, hreply⟩ := @DaemonHandler.handle_replies env h part s.world
      rw [hreply]
      exact update_orderly hworld ((hs client).handled response)
    · exact hs
  | respond client => exact update_orderly hs (hs client).respond
  | wrote client result => exact update_orderly hs ((hs client).wrote result)
  | database db => exact hs

theorem run_orderly (events : List ServiceEvent) {s : IpcService} (hs : ∀ i, (s.conns i).Orderly) :
    ∀ i, ((s.run env h events).conns i).Orderly := by
  induction events generalizing s with
  | nil => exact hs
  | cons e events ih => exact ih (step_orderly hs e)

end

section

variable (env : DaemonEnv) (pathResolver : PathResolver) (providerAccounts : List (Str × AccountId))
  (world : DaemonWorld)

/-- The server that `main` starts, after some events. -/
def mainAfter (events : List ServiceEvent) : IpcService :=
  (start world).run env (.ofMain pathResolver providerAccounts) events

theorem mainAfter_append (before after : List ServiceEvent) :
    mainAfter env pathResolver providerAccounts world (before ++ after) =
      (mainAfter env pathResolver providerAccounts world before).run env (.ofMain pathResolver providerAccounts)
        after :=
  List.foldl_append

theorem mainAfter_orderly (events : List ServiceEvent) (i : Nat) :
    ((mainAfter env pathResolver providerAccounts world events).conns i).Orderly :=
  run_orderly events (fun _ => .fresh) i

/-- Any number of clients, any order of the steps of their tasks, with writes of others between: the parts of their
requests can be handled one after the other so that every client's replies, and the database, are the same; a client's
parts come in its own order, those handled before a moment come before those handled after it, and every response is
put together from the replies to the parts of its request. No task panics. -/
theorem clients_serialized (before after : List ServiceEvent) :
    ∃ acts acts', Serially env (.ofMain pathResolver providerAccounts) (start world) acts
        (mainAfter env pathResolver providerAccounts world before) ∧
      Serially env (.ofMain pathResolver providerAccounts) (mainAfter env pathResolver providerAccounts world before)
        acts' (mainAfter env pathResolver providerAccounts world (before ++ after)) ∧
      ∀ i, ((mainAfter env pathResolver providerAccounts world (before ++ after)).conns i).Orderly := by
  obtain ⟨acts, hbefore⟩ := @run_serially env (.ofMain pathResolver providerAccounts) before (start world)
  obtain ⟨acts', hafter⟩ := @run_serially env (.ofMain pathResolver providerAccounts) after
    (mainAfter env pathResolver providerAccounts world before)
  rw [← mainAfter_append] at hafter
  exact ⟨acts, acts', hbefore, hafter, mainAfter_orderly env pathResolver providerAccounts world _⟩

/-- A client that has gone, or whose task has seen the shutdown, has got a response to every message that was read
from it, in their order; the signal may come at any moment. Each response is put together from the replies to the parts
of its request, and these are the handler's, when all parts of all clients and the writes of others are taken one after
the other. -/
theorem no_message_unanswered (events : List ServiceEvent) (client : Nat) {c : Conn}
    (hclient : (mainAfter env pathResolver providerAccounts world events).conns client = c)
    (hended : c.phase = .ended .disconnected ∨ c.phase = .ended .shutdown) :
    c.log.map Exchange.message = c.received ∧ (∀ exchange ∈ c.log, exchange.Sound) ∧
      ∃ acts, Serially env (.ofMain pathResolver providerAccounts) (start world) acts
          (mainAfter env pathResolver providerAccounts world events) ∧
        c.log.flatMap Exchange.worked =
          servedTo client (CallRuns.run (serve env (.ofMain pathResolver providerAccounts)) acts world).1 := by
  obtain ⟨acts, hserial⟩ := @run_serially env (.ofMain pathResolver providerAccounts) events (start world)
  have hserved : c.worked =
      servedTo client (CallRuns.run (serve env (.ofMain pathResolver providerAccounts)) acts world).1 :=
    hclient ▸ hserial.worked client
  obtain ⟨hsound, received, worked, hreceived, hworked, hopen⟩ :=
    hclient ▸ mainAfter_orderly env pathResolver providerAccounts world events client
  -- a task that ended so has read and done nothing that is not in its log
  have hall : received = [] ∧ worked = [] := by
    rcases hended with hended | hended
    all_goals
      rw [hended] at hopen
      cases hopen
      exact ⟨rfl, rfl⟩
  obtain ⟨rfl, rfl⟩ := hall
  rw [List.append_nil] at hreceived hworked
  exact ⟨hreceived.symm, hsound, acts, hserial, hworked.symm.trans hserved⟩

end

def calmDaemon : DaemonEnv := ⟨.byRowid, fun _ => [], fun _ => DateTime.epoch, fun _ => none⟩

/-- The signal comes while a request is handled. -/
def stoppedClient : List ServiceEvent :=
  [.accept 0, .read 0 (.ok (some (.getStatus ['x']))), .shutdown, .signal 0, .work 0, .respond 0, .wrote 0 (.ok ()),
    .signal 0]

theorem no_message_unanswered_sample :
    ((mainAfter calmDaemon ⟨['/', 'r']⟩ [] ⟨Database.empty [], 0, []⟩ stoppedClient).conns 0).log.map Exchange.message =
        [.ok (.getStatus ['x'])] ∧
      ∃ acts, ((mainAfter calmDaemon ⟨['/', 'r']⟩ [] ⟨Database.empty [], 0, []⟩ stoppedClient).conns 0).log.flatMap
          Exchange.worked =
        servedTo 0 (CallRuns.run (serve calmDaemon (.ofMain ⟨['/', 'r']⟩ [])) acts ⟨Database.empty [], 0, []⟩).1 := by
  obtain ⟨hmessages, -, acts, -, hreplies⟩ :=
    no_message_unanswered calmDaemon ⟨['/', 'r']⟩ [] ⟨Database.empty [], 0, []⟩ stoppedClient 0 rfl (.inr rfl)
  exact ⟨hmessages, acts, hreplies⟩

end IpcService

end CloudSync
