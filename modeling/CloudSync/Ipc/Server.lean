/-
The server's end of a connection: what one round of the loop of `handle_connection` does with the
message it has read. A line that is no request is answered with an error and the loop goes on; every
other failure to read ends it.
-/
import CloudSync.Ipc.Transport

namespace CloudSync.Ipc

/-- One round of the server's loop: it writes a response, or the loop returns. -/
inductive Turn
  | respond (response : Response)
  | done (result : Except Error Unit)
deriving DecidableEq

/-- What `handle_connection` does with what it has read. The handler may depend on what was answered
before: `round` counts the responses written so far. -/
def turn (handler : Nat → Request → Except Error Response) (round : Nat) : Except Error (Option Request) → Turn
  | .ok (some request) =>
    match handler round request with
    | .ok response => .respond response
    | .error e => .respond (.error ("internal error: ".toList ++ e.toString))
  -- clean EOF: the client has disconnected
  | .ok none => .done (.ok ())
  | .error (.json e) => .respond (.error ("malformed JSON: ".toList ++ e))
  | .error e => .done (.error e)

/-- What the server does with a request line, `round` lines being answered before it. -/
def answer (requests : Json Request) (handler : Nat → Request → Except Error Response) (round : Nat)
    (line : Bytes) : Turn :=
  turn handler round ((decodeLine requests line).map some)

end CloudSync.Ipc
