/-
The loop of `handle_connection` on lines of text. Every line is read alone and answered by one line: a line
that is no request by an error, a request by what the handler makes of it. So the responses are in the order
of the lines, and the loop goes on until the input ends.
-/
import CloudSync.Ipc.Server

namespace CloudSync.Ipc

open LineStream (IsLine)

section

variable {H : Type} (requests : Json Request) (responses : Json Response)
  (handle : H → Request → Except Error Response × H)

/-- The handler after what was read: only a request reaches it. -/
def handled (s : H) : Except Error (Option Request) → H
  | .ok (some request) => (handle s request).2
  | _ => s

/-- The loop of `handle_connection`, with no shutdown signalled: how it returns, or nothing while a read is
pending, and what it has written. -/
def handleConnection : Nat → H → Input → Option (Option (Except Error Unit) × Bytes)
  | 0, _, _ => none
  | fuel + 1, s, input => match readMessage requests input with
    | none => some (none, [])
    | some (message, rest) => match turn (fun _ request => (handle s request).1) 0 message with
      | .done result => some (some result, [])
      | .respond response => match writeMessage responses response with
        | .error e => some (some (.error e), [])
        | .ok out => (handleConnection fuel (handled handle s message) rest).map fun r => (r.1, out ++ r.2)

/-- The response to a request. -/
def reply : Except Error Response → Response
  | .ok response => response
  | .error e => .error ("internal error: ".toList ++ e.toString)

/-- The responses to lines of text, one for each line. -/
def replies : H → List Str → List Response
  | _, [] => []
  | s, line :: lines => match requests.fromStr (trimEnd line) with
    | .error e => .error ("malformed JSON: ".toList ++ e) :: replies s lines
    | .ok request => reply (handle s request).1 :: replies (handle s request).2 lines

end

section

variable {H : Type} {requests : Json Request} {responses : Json Response}
  {handle : H → Request → Except Error Response × H}

theorem replies_length (s : H) (lines : List Str) : (replies requests handle s lines).length = lines.length := by
  induction lines generalizing s with
  | nil => rfl
  | cons line lines ih =>
    unfold replies
    cases requests.fromStr (trimEnd line) with
    | error e => exact congrArg Nat.succ (ih s)
    | ok request => exact congrArg Nat.succ (ih _)

/-- A line that is no request is answered by an error. -/
theorem replies_malformed {s : H} {lines : List Str} {k : Nat} {line e : Str} (hline : lines[k]? = some line)
    (hmalformed : requests.fromStr (trimEnd line) = .error e) :
    (replies requests handle s lines)[k]? = some (.error ("malformed JSON: ".toList ++ e)) := by
  induction lines generalizing s k with
  | nil => cases hline
  | cons first lines ih =>
    unfold replies
    cases k with
    | zero =>
      cases hline
      rw [hmalformed]
      rfl
    | succ k =>
      cases requests.fromStr (trimEnd first) with
      | error e' => exact ih hline
      | ok request => exact ih hline

theorem trimEnd_newline (line : Str) : trimEnd (line ++ ['\n']) = trimEnd line := by
  unfold trimEnd
  rw [List.rdropWhile_concat_pos _ _ _ (by decide)]

/-- The bytes of a line of text. -/
def lineBytes (line : Str) : Bytes := asBytes (line ++ ['\n'])

theorem lineBytes_isLine {line : Str} (h : '\n' ∉ line) : IsLine newline (lineBytes line) :=
  ⟨asBytes line, mt newline_mem_asBytes.1 h, asBytes_newline line⟩

/-- A line of text that is not too large is parsed without the space at its end. -/
theorem decodeLine_text {line : Str} (hsize : (lineBytes line).length ≤ maxMessageSize) :
    decodeLine requests (lineBytes line) = (requests.fromStr (trimEnd line)).mapError .json := by
  unfold decodeLine lineBytes at *
  rw [fromUtf8_asBytes]
  simp only
  rw [if_neg (by omega), trimEnd_newline]

theorem readMessage_text (requests : Json Request) {line : Str} (hline : '\n' ∉ line)
    (hsize : (lineBytes line).length ≤ maxMessageSize) (rest : Bytes) (closed : Bool) :
    readMessage requests ⟨lineBytes line ++ rest, closed⟩ =
      some (((requests.fromStr (trimEnd line)).mapError .json).map some, ⟨rest, closed⟩) := by
  unfold readMessage
  rw [LineStream.takeLine_append (lineBytes_isLine hline), ← decodeLine_text hsize]

theorem replies_cons_error {s : H} {line e : Str} (h : requests.fromStr (trimEnd line) = .error e) (lines : List Str) :
    replies requests handle s (line :: lines) =
      .error ("malformed JSON: ".toList ++ e) :: replies requests handle s lines := by
  rw [replies, h]

theorem replies_cons_ok {s : H} {line : Str} {request : Request} (h : requests.fromStr (trimEnd line) = .ok request)
    (lines : List Str) : replies requests handle s (line :: lines) =
      reply (handle s request).1 :: replies requests handle (handle s request).2 lines := by
  rw [replies, h]

/-- A round that reads a line and writes a response. -/
theorem handleConnection_round {fuel : Nat} {s : H} {input rest : Input} {message : Except Error (Option Request)}
    {response : Response} {out written : Bytes} {result : Option (Except Error Unit)}
    (hread : readMessage requests input = some (message, rest))
    (hturn : turn (fun _ request => (handle s request).1) 0 message = .respond response)
    (hwrite : writeMessage responses response = .ok out)
    (hrest : handleConnection requests responses handle fuel (handled handle s message) rest = some (result, written)) :
    handleConnection requests responses handle (fuel + 1) s input = some (result, out ++ written) := by
  unfold handleConnection
  simp only [hread, hturn, hwrite, hrest, Option.map_some]

/-- One response line is written for each line of text; at the end of the input the loop returns, and before it
waits. -/
theorem handleConnection_lines (lines : List Str)
    (hlines : ∀ line ∈ lines, '\n' ∉ line ∧ (lineBytes line).length ≤ maxMessageSize) (s : H)
    (hprint : ∀ response ∈ replies requests handle s lines, ∃ out, writeMessage responses response = .ok out)
    (closed : Bool) {fuel : Nat} (hfuel : lines.length < fuel) :
    ∃ outs, List.Forall₂ (fun response out => writeMessage responses response = .ok out)
        (replies requests handle s lines) outs ∧
      handleConnection requests responses handle fuel s ⟨(lines.map lineBytes).flatten, closed⟩ =
        some (if closed then some (.ok ()) else none, outs.flatten) := by
  induction lines generalizing s fuel with
  | nil =>
    obtain ⟨fuel, rfl⟩ := Nat.exists_eq_add_of_lt hfuel
    refine ⟨[], .nil, ?_⟩
    cases closed <;> rfl
  | cons line lines ih =>
    obtain ⟨hline, hlines⟩ := List.forall_mem_cons.1 hlines
    obtain ⟨fuel, rfl⟩ : ∃ n, fuel = n + 1 := ⟨fuel - 1, by omega⟩
    have hfuel : lines.length < fuel := Nat.lt_of_succ_lt_succ hfuel
    have hread := readMessage_text requests hline.1 hline.2 (lines.map lineBytes).flatten closed
    cases hparse : requests.fromStr (trimEnd line) with
    | error e =>
      rw [hparse] at hread
      rw [replies_cons_error hparse] at hprint ⊢
      obtain ⟨⟨out, hout⟩, hprint⟩ := List.forall_mem_cons.1 hprint
      obtain ⟨outs, houts, hrest⟩ := ih hlines s hprint hfuel
      exact ⟨out :: outs, .cons hout houts, handleConnection_round hread rfl hout hrest⟩
    | ok request =>
      rw [hparse] at hread
      rw [replies_cons_ok hparse] at hprint ⊢
      obtain ⟨⟨out, hout⟩, hprint⟩ := List.forall_mem_cons.1 hprint
      obtain ⟨outs, houts, hrest⟩ := ih hlines (handle s request).2 hprint hfuel
      have hturn : turn (fun _ request => (handle s request).1) 0 (.ok (some request)) =
          .respond (reply (handle s request).1) := by
        unfold turn
        simp only
        cases (handle s request).1 <;> rfl
      exact ⟨out :: outs, .cons hout houts, handleConnection_round hread hturn hout hrest⟩

theorem written_isLine (hresp : responses.Faithful) {messages : List Response} {outs : List Bytes}
    (h : List.Forall₂ (fun response out => writeMessage responses response = .ok out) messages outs) :
    ∀ out ∈ outs, IsLine newline out := by
  induction h with
  | nil => exact fun out hout => by cases hout
  | cons hwrite _ ih => exact List.forall_mem_cons.2 ⟨writeMessage_isLine hresp hwrite, ih⟩

/-- A line of space is trimmed to nothing. -/
theorem trimEnd_blank {line : Str} (h : ∀ c ∈ line, isWhitespace c = true) : trimEnd line = [] :=
  List.rdropWhile_eq_nil_iff.2 h

/-- For lines of text that are not too large, whatever the handler, the loop writes one response line for each
line, in their order: an error for a blank line and for every other that is no request, and what the handler
answers for a request. It returns at the end of the input, and no earlier. -/
theorem one_response_per_line (requests : Json Request) (responses : Json Response) (hresp : responses.Faithful)
    (hempty : ∀ request, requests.fromStr [] ≠ .ok request) (handle : H → Request → Except Error Response × H) (s : H)
    (lines : List Str) (hlines : ∀ line ∈ lines, '\n' ∉ line ∧ (lineBytes line).length ≤ maxMessageSize)
    (hprint : ∀ response ∈ replies requests handle s lines, ∃ out, writeMessage responses response = .ok out)
    (closed : Bool) (fuel : Nat) (hfuel : lines.length < fuel) :
    (∃ outs : List Bytes, handleConnection requests responses handle fuel s ⟨(lines.map lineBytes).flatten, closed⟩ =
        some (if closed then some (.ok ()) else none, outs.flatten) ∧
      outs.length = lines.length ∧ (∀ out ∈ outs, IsLine newline out) ∧
      List.Forall₂ (fun response out => writeMessage responses response = .ok out)
        (replies requests handle s lines) outs) ∧
    ∀ (k : Nat) line, lines[k]? = some line →
      ((∀ c ∈ line, isWhitespace c = true) ∨ ∀ request, requests.fromStr (trimEnd line) ≠ .ok request) →
      ∃ message, (replies requests handle s lines)[k]? = some (Response.error message) := by
  refine ⟨?_, fun k line hline hinvalid => ?_⟩
  · obtain ⟨outs, houts, hrun⟩ := handleConnection_lines lines hlines s hprint closed hfuel
    exact ⟨outs, hrun, houts.length_eq.symm.trans (replies_length s lines), written_isLine hresp houts, houts⟩
  · have hnot : ∀ request, requests.fromStr (trimEnd line) ≠ .ok request := by
      rcases hinvalid with hblank | hnot
      · rw [trimEnd_blank hblank]
        exact hempty
      · exact hnot
    cases hparse : requests.fromStr (trimEnd line) with
    | error e => exact ⟨_, replies_malformed hline hparse⟩
    | ok request => exact absurd hparse (hnot request)

/-- A handler that knows no file, and fails for a batch. -/
def failingHandle : Unit → Request → Except Error Response × Unit
  | _, .getStatus path => (.ok (.error path), ())
  | _, _ => (.error (.handler "no batch".toList), ())

/-- A request, a blank line, a line that is no JSON, and the request again. -/
def sampleLines : List Str :=
  ["\x7b\"type\":\"get_status\",\"path\":\"a\"\x7d".toList, " ".toList, "x".toList,
    "\x7b\"type\":\"get_status\",\"path\":\"a\"\x7d".toList]

/-- The responses to these lines, as they are printed. -/
def sampleErrors : Json Response := Json.table
  [(.error ['a'], "\x7b\"type\":\"error\",\"message\":\"a\"\x7d".toList),
   (.error "malformed JSON: ".toList, "\x7b\"type\":\"error\",\"message\":\"malformed JSON: \"\x7d".toList)]

theorem one_response_per_line_sample :
    ∃ outs : List Bytes, handleConnection sampleRequests sampleErrors failingHandle 5 ()
      ⟨(sampleLines.map lineBytes).flatten, true⟩ = some (some (.ok ()), outs.flatten) ∧ outs.length = 4 := by
  have hreplies : ∀ response ∈ replies sampleRequests failingHandle () sampleLines,
      response = .error ['a'] ∨ response = .error "malformed JSON: ".toList := by decide +kernel
  obtain ⟨⟨outs, hrun, hlength, _⟩, _⟩ := one_response_per_line sampleRequests sampleErrors
    (Json.table_faithful (by decide +kernel))
    (fun request h => nomatch (show Except.error [] = Except.ok request from h))
    failingHandle () sampleLines (by decide +kernel)
    (fun response hresponse => by
      rcases hreplies response hresponse with rfl | rfl
      · exact ⟨_, rfl⟩
      · exact ⟨_, rfl⟩)
    true 5 (by decide)
  exact ⟨outs, hrun, hlength⟩

end

end CloudSync.Ipc
