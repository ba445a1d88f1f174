/-
The size limit of messages. The size of a line is looked at when the line is there, so a line that is already too
large is refused only when it ends, however long that takes, and never when the peer goes quiet.
-/
import CloudSync.Ipc.Framing

namespace CloudSync.Ipc

open LineStream (takeLine IsLine)

/-- The start of a line that is too large: one byte more than the limit, whole characters and no newline. -/
structure Oversized (first : Bytes) : Prop where
  length : first.length = maxMessageSize + 1
  utf8 : (fromUtf8 first).isSome = true
  noNewline : newline ∉ first

/-- The first line of an input and the input after it. The end of a closed input ends a line. -/
def firstLine (input : Input) : Option (Bytes × Input) :=
  match takeLine newline input.bytes with
  | some (line, rest) => some (line, { input with bytes := rest })
  | none => if input.closed then some (input.bytes, { input with bytes := [] }) else none

/-- The read answers that the message is too large, and has taken no more than so many bytes. -/
def RefusedWithin {T : Type} (json : Json T) (bound : Nat) (input : Input) : Prop :=
  ∃ size rest, readMessage json input = some (.error (.messageTooLarge size maxMessageSize), rest) ∧
    input.bytes.length ≤ rest.bytes.length + bound

/-- The first line is there, it is no longer than so many bytes, and it is UTF-8. -/
def EndsWithin (bound : Nat) (input : Input) : Prop :=
  ∃ line rest, firstLine input = some (line, rest) ∧ line.length ≤ bound ∧ (fromUtf8 line).isSome = true

section

variable {T : Type} {json : Json T} {input rest : Input} {line : Bytes}

/-! ## The first line -/

theorem firstLine_bytes (h : firstLine input = some (line, rest)) : input.bytes = line ++ rest.bytes := by
  unfold firstLine at h
  split at h
  · rename_i line' bytes htake
    cases h
    exact (LineStream.takeLine_eq_some.1 htake).2
  · split at h
    · cases h
      exact (List.append_nil _).symm
    · cases h

/-- What is read of an input with bytes is its first line. -/
theorem readMessage_firstLine (hne : input.bytes ≠ []) :
    readMessage json input = (firstLine input).map fun r => ((decodeLine json r.1).map some, r.2) := by
  unfold readMessage firstLine
  cases takeLine newline input.bytes with
  | some r => rfl
  | none =>
    simp only
    cases input.closed with
    | false => rfl
    | true =>
      simp only [Bool.not_true, Bool.false_eq_true, if_false, if_neg hne, if_true]
      rfl

/-- Without a newline nothing is answered while the peer may still send one. -/
theorem readMessage_pending {bytes : Bytes} (hno : newline ∉ bytes) : readMessage json ⟨bytes, false⟩ = none := by
  unfold readMessage
  rw [LineStream.takeLine_eq_none.2 hno]
  rfl

theorem endsWithin_text {text : Str} {bound : Nat} (hno : newline ∉ asBytes text)
    (hbound : (asBytes text).length + 1 ≤ bound) : EndsWithin bound ⟨asBytes text ++ [newline], false⟩ := by
  have hline : IsLine newline (asBytes text ++ [newline]) := ⟨asBytes text, hno, rfl⟩
  have htake := LineStream.takeLine_append hline []
  rw [List.append_nil] at htake
  refine ⟨asBytes text ++ [newline], ⟨[], false⟩, ?_, ?_, ?_⟩
  · unfold firstLine
    rw [htake]
  · rw [List.length_append]
    exact hbound
  · rw [← asBytes_newline, fromUtf8_asBytes]
    rfl

/-- A line that begins without a newline is no shorter than its beginning. -/
theorem firstLine_length {first after : Bytes} {closed : Bool} (hno : newline ∉ first)
    (h : firstLine ⟨first ++ after, closed⟩ = some (line, rest)) : first.length ≤ line.length := by
  unfold firstLine at h
  split at h
  · rename_i line' bytes htake
    cases h
    obtain ⟨⟨body, -, rfl⟩, heq⟩ := LineStream.takeLine_eq_some.1 htake
    -- otherwise the newline of the line is in its beginning
    by_contra hlt
    obtain ⟨more, hmore⟩ := List.prefix_of_prefix_length_le (heq ▸ List.prefix_append _ bytes) (List.prefix_append _ _)
      (Nat.le_of_not_le hlt)
    refine hno (hmore ▸ List.mem_append_left _ ?_)
    exact List.mem_append_right _ (List.mem_singleton_self _)
  · split at h
    · cases h
      rw [List.length_append]
      exact Nat.le_add_right _ _
    · cases h

theorem decodeLine_large (hlarge : line.length > maxMessageSize) : decodeLine json line =
    if (fromUtf8 line).isSome then .error (.messageTooLarge line.length maxMessageSize)
    else .error (.io ⟨.other, "stream did not contain valid UTF-8".toList⟩) := by
  unfold decodeLine
  cases fromUtf8 line with
  | none => rfl
  | some text => exact if_pos hlarge

end

/-! ## The limit -/

section

variable {T : Type} {json : Json T} {first : Bytes}

/-- A read that begins with too large a line is refused when the line ends. -/
theorem refusedWithin_iff (h : Oversized first) (after : Bytes) (closed : Bool) (bound : Nat) :
    RefusedWithin json bound ⟨first ++ after, closed⟩ ↔ EndsWithin bound ⟨first ++ after, closed⟩ := by
  have hne : first ++ after ≠ [] := fun heq => by
    have hlength := h.length
    rw [(List.append_eq_nil_iff.1 heq).1] at hlength
    cases hlength
  unfold RefusedWithin EndsWithin
  rw [readMessage_firstLine hne]
  cases hfirst : firstLine ⟨first ++ after, closed⟩ with
  | none =>
    refine iff_of_false ?_ ?_
    · rintro ⟨size, rest, hread, -⟩
      cases hread
    · rintro ⟨line, rest, hline, -⟩
      cases hline
  | some r =>
    obtain ⟨line, rest⟩ := r
    have hlarge : line.length > maxMessageSize := by
      have hle := firstLine_length h.noNewline hfirst
      rw [h.length] at hle
      exact hle
    have hbytes : (first ++ after).length = line.length + rest.bytes.length := by
      rw [← List.length_append]
      exact congrArg List.length (firstLine_bytes hfirst)
    simp only [Option.map_some, decodeLine_large hlarge]
    constructor
    · rintro ⟨size, rest', hread, hbound⟩
      split at hread
      · rename_i hutf8
        cases hread
        exact ⟨line, rest, rfl, by omega, hutf8⟩
      · cases hread
    · rintro ⟨line', rest', hline, hbound, hutf8⟩
      cases hline
      rw [if_pos hutf8]
      exact ⟨line.length, rest, rfl, by omega⟩

/-- A line that is too large is refused on an input, within a number of bytes, exactly when it ends within them and is
UTF-8. So the refusal is no function of the bytes that make it too large: with no bound is it certain from them. -/
theorem size_limit_iff (json : Json T) (h : Oversized first) :
    (∀ after closed bound, RefusedWithin json bound ⟨first ++ after, closed⟩ ↔
      EndsWithin bound ⟨first ++ after, closed⟩) ∧
    ¬ ∃ bound, ∀ after closed, RefusedWithin json bound ⟨first ++ after, closed⟩ := by
  refine ⟨refusedWithin_iff h, fun ⟨bound, hall⟩ => ?_⟩
  obtain ⟨size, rest, hread, -⟩ := hall [] false
  rw [List.append_nil, readMessage_pending h.noNewline] at hread
  cases hread

end

/-- One letter more than the limit. -/
theorem oversized_longPath {n : Nat} (hn : maxMessageSize + 1 = n) : Oversized (asBytes (longPath n)) := by
  have hbytes : ∀ n, asBytes (longPath n) = List.replicate n 97 := by
    intro n
    induction n with
    | zero => rfl
    | succ n ih =>
      show String.utf8EncodeChar 'a' ++ asBytes (longPath n) = _
      rw [ih]
      rfl
  refine ⟨by rw [hbytes, List.length_replicate, hn], by rw [fromUtf8_asBytes]; rfl, ?_⟩
  rw [hbytes]
  exact fun hmem => absurd (List.eq_of_mem_replicate hmem) (by decide)

/-- The letters are refused when their line ends with them. -/
theorem size_limit_sample : RefusedWithin sampleRequests (maxMessageSize + 2)
    ⟨asBytes (longPath (maxMessageSize + 1)) ++ [newline], false⟩ := by
  -- the number stays a variable, so that nothing counts up to it
  generalize hn : maxMessageSize + 1 = n
  have hfirst := oversized_longPath hn
  refine ((size_limit_iff sampleRequests hfirst).1 [newline] false _).2 (endsWithin_text hfirst.noNewline ?_)
  rw [hfirst.length]

/-- Nothing is answered to the letters while the peer neither ends the line nor closes. -/
theorem letters_pending : Oversized (asBytes (longPath (maxMessageSize + 1))) ∧
    readMessage sampleRequests ⟨asBytes (longPath (maxMessageSize + 1)), false⟩ = none := by
  generalize hn : maxMessageSize + 1 = n
  have hfirst := oversized_longPath hn
  exact ⟨hfirst, readMessage_pending hfirst.noNewline⟩

end CloudSync.Ipc
