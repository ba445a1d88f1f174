/-
Whole conversations of a client with the loop of the connection: the requests a client writes, the responses the loop
writes to them, and what the client reads of these.
-/
import CloudSync.Ipc.Framing
import CloudSync.Ipc.ServerLoop

namespace CloudSync.Ipc

section

variable {H : Type} (handle : H → Request → Except Error Response × H)

/-- The responses to requests, one after another. -/
def answers : H → List Request → List Response
  | _, [] => []
  | s, request :: sent => reply (handle s request).1 :: answers (handle s request).2 sent

variable {handle}

theorem answers_length (s : H) (sent : List Request) : (answers handle s sent).length = sent.length := by
  induction sent generalizing s with
  | nil => rfl
  | cons request sent ih => exact congrArg Nat.succ (ih _)

/-- The line of a request is answered as the request. -/
theorem replies_written {requests : Json Request} (hjson : requests.Faithful) {sent : List Request} {texts : List Str}
    (h : List.Forall₂ (fun request text => requests.toString request = .ok text) sent texts) (s : H) :
    replies requests handle s texts = answers handle s sent := by
  induction h generalizing s with
  | nil => rfl
  | @cons request text sent texts htext _ ih =>
    obtain ⟨body, hbody⟩ := hjson.object request text htext
    have htrim : trimEnd text = text := by
      unfold trimEnd
      rw [hbody, List.rdropWhile_concat_neg _ _ _ (by decide)]
    rw [replies_cons_ok (by rw [htrim]; exact hjson.parses request text htext), ih, answers]

/-- Written messages are the lines of their texts. -/
theorem texts_of_written {T : Type} {json : Json T} {messages : List T} {lines : List Bytes}
    (h : List.Forall₂ (fun message line => writeMessage json message = .ok line) messages lines) :
    ∃ texts, List.Forall₂ (fun message text => json.toString message = .ok text) messages texts ∧
      lines = texts.map lineBytes := by
  induction h with
  | nil => exact ⟨[], .nil, rfl⟩
  | @cons message line messages lines hline _ ih =>
    obtain ⟨texts, htexts, rfl⟩ := ih
    unfold writeMessage at hline
    split at hline
    · rename_i text htext
      cases hline
      exact ⟨text :: texts, .cons htext htexts, rfl⟩
    · cases hline

/-- Requests that a client writes, each on a line that is not too large, are all answered, in their order, and the
connection ends with them. The client reads exactly what the handler has answered, and then the end, if and only if
the JSON of every response takes less than the greatest message size. -/
theorem conversation (requests : Json Request) (responses : Json Response) (hreq : requests.Faithful)
    (hresp : responses.Faithful) (handle : H → Request → Except Error Response × H) (s : H)
    (sent : List Request) (lines : List Bytes)
    (hwrite : List.Forall₂ (fun request line => writeMessage requests request = .ok line) sent lines)
    (hsize : ∀ line ∈ lines, line.length ≤ maxMessageSize)
    (hprint : ∀ response ∈ answers handle s sent, ∃ out, writeMessage responses response = .ok out)
    (fuel : Nat) (hfuel : sent.length < fuel) :
    ∃ out, handleConnection requests responses handle fuel s ⟨lines.flatten, true⟩ = some (some (.ok ()), out) ∧
      (readMessages responses (sent.length + 1) ⟨out, true⟩ =
          some ((answers handle s sent).map (fun response => .ok (some response)) ++ [.ok none]) ↔
        ∀ response ∈ answers handle s sent, ∀ text, responses.toString response = .ok text →
          (asBytes text).length < maxMessageSize) := by
  obtain ⟨texts, htexts, rfl⟩ := texts_of_written hwrite
  have hlines : ∀ line ∈ texts, '\n' ∉ line ∧ (lineBytes line).length ≤ maxMessageSize := by
    intro text htext
    obtain ⟨request, hrequest⟩ : ∃ request, requests.toString request = .ok text := by
      obtain ⟨k, hk, rfl⟩ := List.getElem_of_mem htext
      exact ⟨_, (List.forall₂_iff_get.1 htexts).2 k (by rw [htexts.length_eq]; exact hk) hk⟩
    exact ⟨hreq.oneLine request text hrequest, hsize _ (List.mem_map_of_mem htext)⟩
  have hreplies : replies requests handle s texts = answers handle s sent := replies_written hreq htexts s
  rw [← hreplies] at hprint
  obtain ⟨outs, houts, hrun⟩ := handleConnection_lines texts hlines s hprint true (htexts.length_eq ▸ hfuel)
  rw [hreplies] at houts
  refine ⟨outs.flatten, hrun, ?_⟩
  rw [← answers_length (H := H) s sent, readMessages_written hresp houts, Option.some.injEq,
    List.append_left_inj, zipWith_received_iff houts.length_eq, lines_small_iff houts]

/-- The responses of the failing handler, as they are printed. -/
def conversationResponses : Json Response := Json.table
  [(.error ['a'], "\x7b\"type\":\"error\",\"message\":\"a\"\x7d".toList),
   (.error "internal error: Handler error: no batch".toList,
    "\x7b\"type\":\"error\",\"message\":\"internal error: Handler error: no batch\"\x7d".toList)]

/-- A status and a batch from a client, and an error of the handler. -/
theorem conversation_sample :
    ∃ lines, List.Forall₂ (fun request line => writeMessage sampleRequests request = .ok line)
        [.getStatus ['a'], .getStatusBatch []] lines ∧
      ∃ out, handleConnection sampleRequests conversationResponses failingHandle 3 () ⟨lines.flatten, true⟩ =
          some (some (.ok ()), out) ∧
        readMessages conversationResponses 3 ⟨out, true⟩ =
          some [.ok (some (.error ['a'])), .ok (some (.error "internal error: Handler error: no batch".toList)),
            .ok none] := by
  have hwrite : List.Forall₂ (fun request line => writeMessage sampleRequests request = .ok line)
      [.getStatus ['a'], .getStatusBatch []] _ := .cons rfl (.cons rfl .nil)
  obtain ⟨out, hrun, hread⟩ := conversation sampleRequests conversationResponses sampleRequests_faithful
    (Json.table_faithful (by decide +kernel)) failingHandle () _ _ hwrite (by decide +kernel)
    (List.forall_mem_cons.2 ⟨⟨_, rfl⟩, List.forall_mem_singleton.2 ⟨_, rfl⟩⟩) 3 (by decide)
  refine ⟨_, hwrite, out, hrun, hread.2 (List.forall_mem_cons.2 ⟨?_, List.forall_mem_singleton.2 ?_⟩)⟩
  · rintro text ⟨⟩
    decide +kernel
  · rintro text ⟨⟩
    decide +kernel

end

end CloudSync.Ipc
