/-
Messages between the clients and the daemon, and their framing: one line of JSON for each message. A
read takes a whole line before it looks at its size; it stays pending while the line has no end and
the peer keeps the connection open. The JSON library is a parameter.
-/
import Mathlib.Data.List.DropRight
import CloudSync.Core.Types
import CloudSync.Lib.LineStream

namespace CloudSync.Ipc

open LineStream (IsLine takeLine)

/-! ## Messages -/

inductive Request
  | getStatus (path : Str)
  | getStatusBatch (paths : List Str)
  | setPinned (path : Str) (pinned : Bool)
  | setCloudOnly (path : Str)
  | forceSync (path : Str)
  | pauseSync (provider : Option Str)
  | resumeSync (provider : Option Str)
deriving DecidableEq

structure FileStatus where
  path : Str
  state : FileState
  provider : Option Str
deriving DecidableEq

inductive Response
  | status (path : Str) (state : FileState) (provider error : Option Str)
  | statusBatch (statuses : List FileStatus)
  | ok
  | error (message : Str)
deriving DecidableEq

/-! ## Errors -/

/-- The kinds of I/O errors the client tells apart. -/
inductive IoErrorKind
  | brokenPipe
  | connectionReset
  | notConnected
  | other
deriving DecidableEq

structure IoError where
  kind : IoErrorKind
  message : Str
deriving DecidableEq

inductive Error
  | io (e : IoError)
  | json (message : Str)
  | connectionClosed
  | messageTooLarge (size limit : Nat)
  | handler (message : Str)
deriving DecidableEq

/-- The error texts. -/
def Error.toString : Error → Str
  | .io e => "IO error: ".toList ++ e.message
  | .json message => "JSON error: ".toList ++ message
  | .connectionClosed => "Connection closed".toList
  | .messageTooLarge size limit =>
    "Message too large: ".toList ++ (Nat.repr size).toList ++ " bytes exceeds ".toList ++ (Nat.repr limit).toList ++
      " byte limit".toList
  | .handler message => "Handler error: ".toList ++ message

/-! ## JSON and UTF-8 -/

/-- `serde_json` for a message type: its printer and its parser, with their error texts. -/
structure Json (T : Type) where
  toString : T → Except Str Str
  fromStr : Str → Except Str T

/-- What the framing relies on: a message is printed as one object on one line, and parsed back. -/
structure Json.Faithful {T : Type} (json : Json T) : Prop where
  oneLine : ∀ m text, json.toString m = .ok text → '\n' ∉ text
  object : ∀ m text, json.toString m = .ok text → ∃ body, text = body ++ ['}']
  parses : ∀ m text, json.toString m = .ok text → json.fromStr text = .ok m

/-- The bytes of a string. -/
def asBytes (text : Str) : Bytes := text.flatMap String.utf8EncodeChar

/-- `String::from_utf8` -/
def fromUtf8 (bytes : Bytes) : Option Str := bytes.toByteArray.utf8Decode?.map Array.toList

@[simp] theorem fromUtf8_asBytes (text : Str) : fromUtf8 (asBytes text) = some text := by
  have h : text.utf8Encode.utf8Decode? = some text.toArray := List.utf8Decode?_utf8Encode
  show ((asBytes text).toByteArray.utf8Decode?).map Array.toList = _
  rw [show (asBytes text).toByteArray = text.utf8Encode from rfl, h]; rfl

def newline : UInt8 := 10

/-- The bytes of a character that takes more than one are all above the ASCII range. -/
theorem newline_ne_multibyte {n : Nat} (hlo : 128 ≤ n) (hhi : n < 256) : newline ≠ UInt8.ofNat n := by
  intro h
  have hn := congrArg UInt8.toNat h
  rw [UInt8.toNat_ofNat_of_lt' hhi] at hn
  have h10 : newline.toNat = 10 := rfl
  omega

theorem newline_mem_encodeChar {c : Char} : newline ∈ String.utf8EncodeChar c ↔ c = '\n' := by
  refine ⟨fun h => ?_, fun h => by rw [h]; decide⟩
  unfold String.utf8EncodeChar at h
  simp only at h
  split at h
  · rename_i hle
    have hn := congrArg UInt8.toNat (List.mem_singleton.1 h)
    rw [UInt8.toNat_ofNat_of_lt' (lt_of_le_of_lt hle (by decide))] at hn
    exact Char.ext (UInt32.toNat_inj.1 hn.symm)
  exfalso
  split at h
  on_goal 2 => split at h
  all_goals
    simp only [List.mem_cons, List.not_mem_nil, or_false] at h
  · rcases h with h | h <;> exact newline_ne_multibyte (by omega) (by omega) h
  · rcases h with h | h | h <;> exact newline_ne_multibyte (by omega) (by omega) h
  · rcases h with h | h | h | h <;> exact newline_ne_multibyte (by omega) (by omega) h

/-- Only the newline character has the newline byte. -/
theorem newline_mem_asBytes {text : Str} : newline ∈ asBytes text ↔ '\n' ∈ text := by
  unfold asBytes
  rw [List.mem_flatMap]
  simp only [newline_mem_encodeChar]
  exact ⟨fun ⟨c, hc, heq⟩ => heq ▸ hc, fun h => ⟨_, h, rfl⟩⟩

/-- The characters with the White_Space property. -/
def isWhitespace (c : Char) : Bool :=
  decide (c.toNat ∈ [0x20, 0x85, 0xa0, 0x1680, 0x2028, 0x2029, 0x202f, 0x205f, 0x3000]) ||
    (decide (9 ≤ c.toNat) && decide (c.toNat ≤ 13)) || (decide (0x2000 ≤ c.toNat) && decide (c.toNat ≤ 0x200a))

def trimEnd (text : Str) : Str := text.rdropWhile isWhitespace

/-! ## Reading and writing -/

def maxMessageSize : Nat := 1048576

/-- The receiving end of a connection: the bytes not yet read, and whether the peer has closed it. -/
structure Input where
  bytes : Bytes
  closed : Bool
deriving DecidableEq

/-- What `read_message` makes of a line. -/
def decodeLine {T : Type} (json : Json T) (line : Bytes) : Except Error T :=
  match fromUtf8 line with
  | none => .error (.io ⟨.other, "stream did not contain valid UTF-8".toList⟩)
  | some text =>
    -- the size is looked at when the whole line has been read
    if line.length > maxMessageSize then .error (.messageTooLarge line.length maxMessageSize)
    else (json.fromStr (trimEnd text)).mapError .json

/-- `read_message`: its result and the input after it, or nothing while it is pending. At the end of
the input the last bytes count as a line. -/
def readMessage {T : Type} (json : Json T) (input : Input) : Option (Except Error (Option T) × Input) :=
  match takeLine newline input.bytes with
  | some (line, rest) => some ((decodeLine json line).map some, { input with bytes := rest })
  | none =>
    if !input.closed then none
    else if input.bytes = [] then some (.ok none, input)
    else some ((decodeLine json input.bytes).map some, { input with bytes := [] })

/-- The bytes `write_message` writes. -/
def writeMessage {T : Type} (json : Json T) (message : T) : Except Error Bytes :=
  match json.toString message with
  | .ok text => .ok (asBytes (text ++ ['\n']))
  | .error e => .error (.json e)

section

variable {T : Type} {json : Json T}

/-- A read that is not pending has taken the first line, or found the end of a closed input. -/
theorem readMessage_cases {input rest : Input} {message : Except Error (Option T)}
    (h : readMessage json input = some (message, rest)) :
    (∃ line bytes, takeLine newline input.bytes = some (line, bytes) ∧ message = (decodeLine json line).map some ∧
        rest = { input with bytes := bytes }) ∨
      (newline ∉ input.bytes ∧ input.closed = true ∧ rest.closed = true ∧
        (input.bytes = [] → message = .ok none ∧ rest = input)) := by
  unfold readMessage at h
  cases htake : takeLine newline input.bytes with
  | some r =>
    simp only [htake] at h
    cases h
    exact .inl ⟨r.1, r.2, rfl, rfl, rfl⟩
  | none =>
    simp only [htake] at h
    split at h
    · cases h
    · rename_i hclosed
      have hclosed : input.closed = true := by simpa using hclosed
      refine .inr ⟨LineStream.takeLine_eq_none.1 htake, hclosed, ?_⟩
      split at h
      · cases h
        exact ⟨hclosed, fun _ => ⟨rfl, rfl⟩⟩
      · rename_i hne
        cases h
        exact ⟨hclosed, fun hnil => absurd hnil hne⟩

theorem asBytes_newline (text : Str) : asBytes (text ++ ['\n']) = asBytes text ++ [newline] := by
  unfold asBytes
  rw [List.flatMap_append]; rfl

/-- A written message is a line. -/
theorem writeMessage_isLine (hjson : json.Faithful) {m : T} {line : Bytes} (h : writeMessage json m = .ok line) :
    IsLine newline line := by
  unfold writeMessage at h
  split at h
  · rename_i text htext
    cases h
    exact ⟨asBytes text, mt newline_mem_asBytes.1 (hjson.oneLine m text htext), asBytes_newline text⟩
  · cases h

/-- The line of a written message is read back, unless it is too large. -/
theorem decodeLine_written (hjson : json.Faithful) {m : T} {line : Bytes} (h : writeMessage json m = .ok line) :
    decodeLine json line = if line.length > maxMessageSize then .error (.messageTooLarge line.length maxMessageSize)
      else .ok m := by
  unfold writeMessage at h
  split at h
  · rename_i text htext
    cases h
    obtain ⟨body, hbody⟩ := hjson.object m text htext
    have htrim : trimEnd (text ++ ['\n']) = text := by
      unfold trimEnd
      rw [List.rdropWhile_concat_pos _ _ _ (by decide), hbody, List.rdropWhile_concat_neg _ _ _ (by decide)]
    unfold decodeLine
    rw [fromUtf8_asBytes]
    simp only [htrim, hjson.parses m text htext]
    rfl
  · cases h

end

/-! ## A sample of JSON -/

/-- A printer and a parser of the listed messages only. -/
def Json.table {T : Type} [DecidableEq T] (entries : List (T × Str)) : Json T where
  toString m := match entries.find? (·.1 = m) with
    | some e => .ok e.2
    | none => .error []
  fromStr text := match entries.find? (·.2 = text) with
    | some e => .ok e.1
    | none => .error []

theorem Json.mem_of_table {T : Type} [DecidableEq T] {entries : List (T × Str)} {m : T} {text : Str}
    (h : (Json.table entries).toString m = .ok text) : (m, text) ∈ entries := by
  unfold Json.table at h
  simp only at h
  split at h
  · rename_i e he
    cases h
    have hm : e.1 = m := by simpa using List.find?_some he
    rw [← hm]; exact List.mem_of_find?_eq_some he
  · cases h

/-- With every text listed once, the table parses what it prints. -/
theorem Json.table_parses {T : Type} [DecidableEq T] {entries : List (T × Str)}
    (h : ∀ e ∈ entries, entries.find? (·.2 = e.2) = some e) {m : T} {text : Str}
    (hprint : (Json.table entries).toString m = .ok text) : (Json.table entries).fromStr text = .ok m := by
  have hmem := Json.mem_of_table hprint
  unfold Json.table
  simp only [h _ hmem]

theorem Json.table_faithful {T : Type} [DecidableEq T] {entries : List (T × Str)}
    (h : ∀ e ∈ entries, '\n' ∉ e.2 ∧ e.2.getLast? = some '}' ∧ entries.find? (·.2 = e.2) = some e) :
    (Json.table entries).Faithful where
  oneLine _ _ htext := (h _ (Json.mem_of_table htext)).1
  object _ _ htext := List.getLast?_eq_some_iff.1 (h _ (Json.mem_of_table htext)).2.1
  parses _ _ htext := Json.table_parses (fun e he => (h e he).2.2) htext

def sampleRequests : Json Request := Json.table
  [(.getStatus ['a'], "\x7b\"type\":\"get_status\",\"path\":\"a\"\x7d".toList),
   (.getStatusBatch [], "\x7b\"type\":\"get_status_batch\",\"paths\":[]\x7d".toList)]

def sampleResponses : Json Response := Json.table
  [(.error ['a'], "\x7b\"type\":\"error\",\"message\":\"a\"\x7d".toList),
   (.statusBatch [], "\x7b\"type\":\"status_batch\",\"statuses\":[]\x7d".toList)]

theorem sampleRequests_faithful : sampleRequests.Faithful := Json.table_faithful (by decide +kernel)

theorem sampleResponses_faithful : sampleResponses.Faithful := Json.table_faithful (by decide +kernel)

end CloudSync.Ipc
