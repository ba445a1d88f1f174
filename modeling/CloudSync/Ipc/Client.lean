/-
One client on one connection: `IpcClient::request` at one end, the loop of `handle_connection` at the
other, and the two byte streams between them. The steps are those of the two ends in any order, and
the end of the time of a call at any moment; requests carry no id.
-/
import CloudSync.Ipc.Server

namespace CloudSync.Ipc

open LineStream (IsLine ReadTo takeLine offset)

/-! ## The client's end -/

inductive IpcError
  | daemonNotRunning
  | daemonUnresponsive
  | protocol (message : Str)
  | io (e : IoError)
deriving DecidableEq

def mapTransportError : Error → IpcError
  | .io e =>
    match e.kind with
    | .brokenPipe | .connectionReset | .notConnected => .daemonUnresponsive
    | .other => .io e
  | .json message => .protocol message
  | .connectionClosed => .daemonUnresponsive
  | .messageTooLarge size limit =>
    .protocol ("message too large: ".toList ++ (Nat.repr size).toList ++ " exceeds ".toList ++ (Nat.repr limit).toList)
  | .handler message => .protocol message

/-- What `request` returns for what the timed read gave; nothing if the time was over. -/
def requestResult : Option (Except Error (Option Response)) → Except IpcError Response
  | some (.ok (some response)) => .ok response
  | some (.ok none) => .error .daemonUnresponsive
  | some (.error e) => .error (mapTransportError e)
  | none => .error .daemonUnresponsive

/-! ## The connection -/

/-- A finished call of `request`: the line it wrote, where in the server's output it started to read,
and what the timed read gave. -/
structure Call where
  line : Bytes
  start : Nat
  responseResult : Option (Except Error (Option Response))
deriving DecidableEq

def Call.result (call : Call) : Except IpcError Response := requestResult call.responseResult

def Call.timedOut (call : Call) : Bool := call.responseResult.isNone

/-- The two streams, the lines the server has written, and the client: the request line whose
response it waits for, how far it has read the server's output, and its finished calls. -/
structure Connection where
  toServer : Bytes
  toClient : Input
  written : List Bytes
  waiting : Option Bytes
  position : Nat
  calls : List Call
deriving DecidableEq

/-- A step of the client or of the server. A call that times out has taken some bytes of an unfinished
line, which are lost with its buffer. -/
inductive Event
  | request (req : Request)
  | serve
  | receive
  | timeout (taken : Nat)
  | shutdown

section

variable (requests : Json Request) (responses : Json Response) (handler : Nat → Request → Except Error Response)

namespace Connection

def start : Connection := ⟨[], ⟨[], false⟩, [], none, 0, []⟩

/-- The server's loop has returned: its end is closed. -/
def close (c : Connection) : Connection := { c with toClient := { c.toClient with closed := true } }

/-- The server writes a response, or returns if that fails. -/
def respond (c : Connection) (response : Response) : Connection :=
  match writeMessage responses response with
  | .ok line =>
    { c with
      toClient := { c.toClient with bytes := c.toClient.bytes ++ line }
      written := c.written ++ [line] }
  | .error _ => c.close

/-- The client's call is over. -/
def finish (c : Connection) (line : Bytes) (responseResult : Option (Except Error (Option Response))) (rest : Input) :
    Connection :=
  { c with
    toClient := rest
    waiting := none
    position := c.position + (c.toClient.bytes.length - rest.bytes.length)
    calls := c.calls ++ [⟨line, c.position, responseResult⟩] }

/-- A step, if it can happen. A call whose request cannot be written fails at once. -/
def step (c : Connection) : Event → Option Connection
  | .request req =>
    match c.waiting with
    | some _ => none
    | none =>
      match writeMessage requests req with
      | .error _ => some c
      | .ok line =>
        -- a broken pipe
        if c.toClient.closed then some c
        else some { c with toServer := c.toServer ++ line, waiting := some line }
  | .serve =>
    if c.toClient.closed then none
    else
      match readMessage requests ⟨c.toServer, false⟩ with
      | none => none
      | some (message, rest) =>
        match turn handler c.written.length message with
        | .respond response => some (({ c with toServer := rest.bytes } : Connection).respond responses response)
        | .done _ => some ({ c with toServer := rest.bytes } : Connection).close
  | .receive =>
    match c.waiting, readMessage responses c.toClient with
    | some line, some (message, rest) => some (c.finish line (some message) rest)
    | _, _ => none
  | .timeout taken =>
    match c.waiting with
    | some line =>
      if taken ≤ c.toClient.bytes.length ∧ newline ∉ c.toClient.bytes.take taken then
        some (c.finish line none { c.toClient with bytes := c.toClient.bytes.drop taken })
      else none
    | none => none
  | .shutdown => some c.close

def run (events : List Event) : Option Connection := events.foldlM (step requests responses handler) start

/-- What a step can do. -/
inductive Moves (c : Connection) : Connection → Prop
  | refused : Moves c c
  | sent (req : Request) (line : Bytes) (hidle : c.waiting = none) (hopen : c.toClient.closed = false)
      (hline : writeMessage requests req = .ok line) :
      Moves c { c with toServer := c.toServer ++ line, waiting := some line }
  | served (line rest out : Bytes) (response : Response) (hopen : c.toClient.closed = false)
      (htake : takeLine newline c.toServer = some (line, rest))
      (hanswer : answer requests handler c.written.length line = .respond response)
      (hout : writeMessage responses response = .ok out) :
      Moves c { c with
        toServer := rest
        toClient := { c.toClient with bytes := c.toClient.bytes ++ out }
        written := c.written ++ [out] }
  | closed (toServer : Bytes) : Moves c ({ c with toServer := toServer } : Connection).close
  | received (asked line rest : Bytes) (hwait : c.waiting = some asked)
      (htake : takeLine newline c.toClient.bytes = some (line, rest)) :
      Moves c (c.finish asked (some ((decodeLine responses line).map some)) { c.toClient with bytes := rest })
  | ended (asked : Bytes) (message : Except Error (Option Response)) (rest : Input) (hwait : c.waiting = some asked)
      (hclosed : rest.closed = true) (hnone : newline ∉ c.toClient.bytes)
      (hend : c.toClient.bytes = [] → message = .ok none ∧ rest = c.toClient) :
      Moves c (c.finish asked (some message) rest)
  | gaveUp (asked : Bytes) (taken : Nat) (hwait : c.waiting = some asked) (hle : taken ≤ c.toClient.bytes.length)
      (hnone : newline ∉ c.toClient.bytes.take taken) :
      Moves c (c.finish asked none { c.toClient with bytes := c.toClient.bytes.drop taken })

variable {requests responses handler}

theorem step_moves {c c' : Connection} {e : Event} (h : c.step requests responses handler e = some c') :
    Moves requests responses handler c c' := by
  cases e with
  | request req =>
    unfold step at h
    cases hwait : c.waiting with
    | some line => simp only [hwait] at h; cases h
    | none =>
      simp only [hwait] at h
      cases hline : writeMessage requests req with
      | error e => simp only [hline] at h; cases h; exact .refused
      | ok line =>
        simp only [hline] at h
        split at h
        · cases h; exact .refused
        · rename_i hopen
          cases h
          exact .sent req line hwait (by simpa using hopen) hline
  | serve =>
    unfold step at h
    simp only at h
    split at h
    · cases h
    rename_i hopen
    have hopen : c.toClient.closed = false := by simpa using hopen
    cases hread : readMessage requests ⟨c.toServer, false⟩ with
    | none => simp only [hread] at h; cases h
    | some r =>
      obtain ⟨message, rest⟩ := r
      simp only [hread] at h
      rcases readMessage_cases hread with ⟨line, bytes, htake, rfl, rfl⟩ | ⟨-, hclosed, -⟩
      · cases hturn : turn handler c.written.length ((decodeLine requests line).map some) with
        | done result => simp only [hturn] at h; cases h; exact .closed _
        | respond response =>
          simp only [hturn] at h
          unfold respond at h
          cases hout : writeMessage responses response with
          | error e => simp only [hout] at h; cases h; exact .closed _
          | ok out =>
            simp only [hout] at h
            cases h
            exact .served line bytes out response hopen htake hturn hout
      · cases hclosed
  | receive =>
    unfold step at h
    cases hwait : c.waiting with
    | none => simp only [hwait] at h; cases h
    | some asked =>
      cases hread : readMessage responses c.toClient with
      | none => simp only [hwait, hread] at h; cases h
      | some r =>
        obtain ⟨message, rest⟩ := r
        simp only [hwait, hread] at h
        cases h
        rcases readMessage_cases hread with ⟨line, bytes, htake, rfl, rfl⟩ | ⟨hnone, -, hclosed, hend⟩
        · exact .received asked line bytes hwait htake
        · exact .ended asked message rest hwait hclosed hnone hend
  | timeout taken =>
    unfold step at h
    cases hwait : c.waiting with
    | none => simp only [hwait] at h; cases h
    | some line =>
      simp only [hwait] at h
      split at h
      · rename_i htaken
        cases h
        exact .gaveUp line taken hwait htaken.1 htaken.2
      · cases h
  | shutdown => cases h; exact .closed c.toServer

end Connection

end

end CloudSync.Ipc
