/-
What one end writes and the other end reads. Written messages are read back one by one, each from its own
line; the reader refuses a line that is too large, which the writer does not look at.
-/
import CloudSync.Ipc.Transport

namespace CloudSync.Ipc

open LineStream (IsLine takeLine)

section

variable {T : Type} {json : Json T}

/-- So many reads, one after another, and their results; nothing if one of them stays pending. -/
def readMessages (json : Json T) : Nat → Input → Option (List (Except Error (Option T)))
  | 0, _ => some []
  | n + 1, input => match readMessage json input with
    | none => none
    | some (message, rest) => (readMessages json n rest).map (message :: ·)

/-- What a read makes of a message from its line. -/
def received (message : T) (line : Bytes) : Except Error (Option T) :=
  if line.length > maxMessageSize then .error (.messageTooLarge line.length maxMessageSize) else .ok (some message)

theorem readMessage_written (hjson : json.Faithful) {message : T} {line : Bytes}
    (h : writeMessage json message = .ok line) (rest : Bytes) (closed : Bool) :
    readMessage json ⟨line ++ rest, closed⟩ = some (received message line, ⟨rest, closed⟩) := by
  unfold readMessage
  rw [LineStream.takeLine_append (writeMessage_isLine hjson h)]
  simp only [decodeLine_written hjson h]
  unfold received
  split <;> rfl

/-- Every message is read from its own line, and the end of the stream after the last one. -/
theorem readMessages_written (hjson : json.Faithful) {messages : List T} {lines : List Bytes}
    (h : List.Forall₂ (fun message line => writeMessage json message = .ok line) messages lines) :
    readMessages json (messages.length + 1) ⟨lines.flatten, true⟩ =
      some (List.zipWith received messages lines ++ [.ok none]) := by
  induction h with
  | nil => rfl
  | cons hline _ ih =>
    rw [List.flatten_cons, List.length_cons, readMessages, readMessage_written hjson hline]
    simp only [ih, Option.map_some, List.zipWith_cons_cons, List.cons_append]

theorem received_eq_iff {message : T} {line : Bytes} :
    received message line = .ok (some message) ↔ line.length ≤ maxMessageSize := by
  unfold received
  split
  · rename_i hlarge
    exact ⟨fun h => (by cases h), fun h => absurd hlarge (by omega)⟩
  · rename_i hsmall
    exact ⟨fun _ => by omega, fun _ => rfl⟩

theorem zipWith_received_iff {messages : List T} {lines : List Bytes} (h : messages.length = lines.length) :
    List.zipWith received messages lines = messages.map (fun message => .ok (some message)) ↔
      ∀ line ∈ lines, line.length ≤ maxMessageSize := by
  induction messages generalizing lines with
  | nil =>
    rw [List.eq_nil_of_length_eq_zero h.symm]
    exact ⟨fun _ line hline => (by cases hline), fun _ => rfl⟩
  | cons message messages ih =>
    obtain ⟨line, lines, rfl⟩ := List.exists_cons_of_length_eq_add_one h.symm
    rw [List.zipWith_cons_cons, List.map_cons, List.cons.injEq, received_eq_iff,
      ih (Nat.succ.inj h), List.forall_mem_cons]

/-- The length of the line of a written message. -/
theorem writeMessage_length {message : T} {line : Bytes} (h : writeMessage json message = .ok line) :
    ∃ text, json.toString message = .ok text ∧ line.length = (asBytes text).length + 1 := by
  unfold writeMessage at h
  split at h
  · rename_i text htext
    cases h
    exact ⟨text, htext, by rw [asBytes_newline, List.length_append]; rfl⟩
  · cases h

/-- The lines are as large as the JSON of the messages and a newline. -/
theorem lines_small_iff {messages : List T} {lines : List Bytes}
    (h : List.Forall₂ (fun message line => writeMessage json message = .ok line) messages lines) :
    (∀ line ∈ lines, line.length ≤ maxMessageSize) ↔
      ∀ message ∈ messages, ∀ text, json.toString message = .ok text → (asBytes text).length < maxMessageSize := by
  induction h with
  | nil => exact ⟨fun _ message hmessage => (by cases hmessage), fun _ line hline => (by cases hline)⟩
  | cons hline _ ih =>
    obtain ⟨text, htext, hlength⟩ := writeMessage_length hline
    rw [List.forall_mem_cons, List.forall_mem_cons, ih, hlength]
    refine and_congr_left fun _ => ⟨fun hsmall text' htext' => ?_, fun hsmall => hsmall text htext⟩
    rw [htext] at htext'
    cases htext'
    exact hsmall

/-- Messages that are all written come back in order, and the end of the stream after them, if and only if the
JSON of each takes less than the greatest message size. -/
theorem written_read_back_iff (json : Json T) (hjson : json.Faithful) (messages : List T) (lines : List Bytes)
    (hwrite : List.Forall₂ (fun message line => writeMessage json message = .ok line) messages lines) :
    readMessages json (messages.length + 1) ⟨lines.flatten, true⟩ =
        some (messages.map (fun message => .ok (some message)) ++ [.ok none]) ↔
      ∀ message ∈ messages, ∀ text, json.toString message = .ok text → (asBytes text).length < maxMessageSize := by
  rw [readMessages_written hjson hwrite, Option.some.injEq, List.append_left_inj,
    zipWith_received_iff hwrite.length_eq]
  exact lines_small_iff hwrite

end

/-- Two requests on one stream. -/
theorem written_read_back_sample :
    ∃ lines, List.Forall₂ (fun message line => writeMessage sampleRequests message = .ok line)
        [.getStatus ['a'], .getStatusBatch []] lines ∧
      readMessages sampleRequests 3 ⟨lines.flatten, true⟩ =
        some [.ok (some (.getStatus ['a'])), .ok (some (.getStatusBatch [])), .ok none] := by
  have hwrite := List.Forall₂.cons (R := fun message line => writeMessage sampleRequests message = .ok line)
    (a := .getStatus ['a']) rfl (.cons (a := .getStatusBatch []) rfl .nil)
  refine ⟨_, hwrite, (written_read_back_iff sampleRequests sampleRequests_faithful _ _ hwrite).2 ?_⟩
  intro message hmessage text htext
  rcases List.mem_pair.1 hmessage with rfl | rfl
  · cases htext; decide +kernel
  · cases htext; decide +kernel

/-! ## A message that is too large -/

def longPath (n : Nat) : Str := List.replicate n 'a'

/-- The JSON of a request for a long path. -/
def longRequests (n : Nat) : Json Request := Json.table
  [(.getStatus (longPath n), "\x7b\"type\":\"get_status\",\"path\":\"".toList ++ longPath n ++ "\"\x7d".toList)]

theorem longRequests_faithful (n : Nat) : (longRequests n).Faithful := by
  refine Json.table_faithful fun e he => ?_
  rw [List.mem_singleton.1 he]
  refine ⟨fun hmem => ?_, ?_, ?_⟩
  · rcases List.mem_append.1 hmem with hmem | hmem
    · rcases List.mem_append.1 hmem with hmem | hmem
      · revert hmem; decide
      · exact absurd (List.eq_of_mem_replicate hmem) (by decide)
    · revert hmem; decide
  · rw [List.getLast?_append]; rfl
  · rw [List.find?_cons_of_pos (by simp)]

theorem length_le_asBytes (text : Str) : text.length ≤ (asBytes text).length := by
  induction text with
  | nil => exact Nat.le_refl 0
  | cons c text ih =>
    have hpos : 0 < (String.utf8EncodeChar c).length := List.length_pos_of_ne_nil String.utf8EncodeChar_ne_nil
    have hcons : asBytes (c :: text) = String.utf8EncodeChar c ++ asBytes text := rfl
    rw [hcons, List.length_append, List.length_cons]
    omega

theorem long_request_read {n : Nat} (hn : maxMessageSize ≤ n) :
    ∃ line, writeMessage (longRequests n) (.getStatus (longPath n)) = .ok line ∧
      readMessages (longRequests n) 2 ⟨[line].flatten, true⟩ =
        some [.error (.messageTooLarge line.length maxMessageSize), .ok none] := by
  have htext : (longRequests n).toString (.getStatus (longPath n)) = .ok
      ("\x7b\"type\":\"get_status\",\"path\":\"".toList ++ longPath n ++ "\"\x7d".toList) := by
    simp only [longRequests, Json.table, List.find?_cons_of_pos, decide_true]
  obtain ⟨line, hline⟩ : ∃ line, writeMessage (longRequests n) (.getStatus (longPath n)) = .ok line := by
    unfold writeMessage
    rw [htext]
    exact ⟨_, rfl⟩
  obtain ⟨text, htext', hlength⟩ := writeMessage_length hline
  rw [htext] at htext'
  cases htext'
  have hpath : (longPath n).length = n := List.length_replicate
  have hle := length_le_asBytes
    ("\x7b\"type\":\"get_status\",\"path\":\"".toList ++ longPath n ++ "\"\x7d".toList)
  rw [List.length_append, List.length_append, hpath] at hle
  have hlarge : line.length > maxMessageSize := by omega
  refine ⟨line, hline, ?_⟩
  have hread := readMessages_written (longRequests_faithful n) (.cons hline .nil)
  rw [List.zipWith_cons_cons, List.zipWith_nil_left] at hread
  refine hread.trans ?_
  unfold received
  rw [if_pos hlarge]
  rfl

/-- A request for a path of the greatest message size is written, and refused when it is read. -/
theorem long_request_refused :
    ∃ line, writeMessage (longRequests maxMessageSize) (.getStatus (longPath maxMessageSize)) = .ok line ∧
      readMessages (longRequests maxMessageSize) 2 ⟨[line].flatten, true⟩ ≠
        some [.ok (some (.getStatus (longPath maxMessageSize))), .ok none] := by
  obtain ⟨line, hline, hread⟩ := long_request_read (Nat.le_refl maxMessageSize)
  refine ⟨line, hline, fun heq => ?_⟩
  rw [hread] at heq
  cases heq

end CloudSync.Ipc
