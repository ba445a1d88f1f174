/-
Which response a call of `IpcClient::request` returns. The invariant follows the client's position in
the lines the server has written: one line for each call that was answered, and a lost part of the
next one after a timeout. So a call returns its own response exactly when no call before it timed out;
afterwards every call takes what is left of the response to an earlier one.
-/
import CloudSync.Ipc.Client

namespace CloudSync.Ipc

open LineStream (IsLine ReadTo takeLine offset)

section

variable {requests : Json Request} {responses : Json Response} {handler : Nat → Request → Except Error Response}

namespace Connection

/-! ## The invariant -/

/-- The request lines the client has written, in order: those of the finished calls and of the one
that waits. -/
def sent (c : Connection) : List Bytes := c.calls.map Call.line ++ c.waiting.toList

/-- The number of calls that timed out. -/
def timeouts (calls : List Call) : Nat := calls.countP Call.timedOut

theorem timeouts_append (calls : List Call) (call : Call) :
    timeouts (calls ++ [call]) = timeouts calls + if call.timedOut then 1 else 0 := by
  unfold timeouts
  rw [List.countP_append, List.countP_singleton]

/-- Call `k` took a line: what was left of the response to an earlier call, as many calls before it as
have timed out. -/
def Took (responses : Json Response) (c : Connection) (k : Nat) (call : Call) (r : Response) : Prop :=
  ∃ taken n out, c.written[taken]? = some out ∧ n < out.length ∧ call.start = offset c.written taken + n ∧
    decodeLine responses (out.drop n) = .ok r ∧ taken + timeouts (c.calls.take k) = k ∧
    (timeouts (c.calls.take k) = 0 → n = 0)

variable (requests responses handler) in
/-- The server answers the request lines one by one; the client has read so many responses, and lost
a part of the next only if a call has timed out. -/
structure Inv (c : Connection) : Prop where
  sentLines : ∀ line ∈ c.sent, IsLine newline line
  server : c.toClient.closed = false → ReadTo c.sent c.written.length 0 c.toServer
  answers : ∀ k out, c.written[k]? = some out → ∃ asked response, c.sent[k]? = some asked ∧
    answer requests handler k asked = .respond response ∧ writeMessage responses response = .ok out
  reading : ∃ taken n, ReadTo c.written taken n c.toClient.bytes ∧ c.position = offset c.written taken + n ∧
    (timeouts c.calls = 0 → n = 0) ∧
    (c.waiting ≠ none ∨ c.toClient.closed = false → taken + timeouts c.calls = c.calls.length)
  results : ∀ k call r, c.calls[k]? = some call → call.result = .ok r → Took responses c k call r

theorem inv_start : Inv requests responses handler start where
  sentLines := by intro line hline; cases hline
  server _ := ReadTo.start []
  answers := by intro k out hout; cases hout
  reading := ⟨0, 0, ReadTo.start [], rfl, fun _ => rfl, fun _ => rfl⟩
  results := by intro k call r hcall; cases hcall

theorem Inv.writtenLines {c : Connection} (hresp : responses.Faithful) (h : Inv requests responses handler c) :
    ∀ out ∈ c.written, IsLine newline out := by
  intro out hout
  obtain ⟨k, hk⟩ := List.mem_iff_getElem?.1 hout
  obtain ⟨asked, response, -, -, hwrite⟩ := h.answers k out hk
  exact writeMessage_isLine hresp hwrite

theorem Took.write {c : Connection} {k : Nat} {call : Call} {r : Response} (h : Took responses c k call r)
    (toServer : Bytes) (toClient : Input) (out : Bytes) :
    Took responses { c with toServer := toServer, toClient := toClient, written := c.written ++ [out] } k call r := by
  obtain ⟨taken, n, line, hline, hn, hstart, hdecode, hcount, hclean⟩ := h
  have hlt := (List.getElem?_eq_some_iff.1 hline).1
  refine ⟨taken, n, line, (List.getElem?_append_left hlt).trans hline, hn, ?_, hdecode, hcount, hclean⟩
  rw [LineStream.offset_append (Nat.le_of_lt hlt)]; exact hstart

theorem Took.finish {c : Connection} {k : Nat} {call : Call} {r : Response} (h : Took responses c k call r)
    (hk : k ≤ c.calls.length) (asked : Bytes) (read : Option (Except Error (Option Response))) (rest : Input) :
    Took responses (c.finish asked read rest) k call r := by
  obtain ⟨taken, n, line, hline, hn, hstart, hdecode, hcount, hclean⟩ := h
  have htake : (c.finish asked read rest).calls.take k = c.calls.take k := List.take_append_of_le_length hk
  exact ⟨taken, n, line, hline, hn, hstart, hdecode, by rw [htake]; exact hcount, by rw [htake]; exact hclean⟩

/-- Finishing a call keeps the request lines. -/
theorem sent_finish {c : Connection} {asked : Bytes} (hwait : c.waiting = some asked)
    (read : Option (Except Error (Option Response))) (rest : Input) : (c.finish asked read rest).sent = c.sent := by
  unfold sent finish
  rw [hwait, List.map_append]; simp

/-- The finished calls have taken what they should if the last one has. -/
theorem Inv.finish_results {c : Connection} (h : Inv requests responses handler c) (asked : Bytes)
    (read : Option (Except Error (Option Response))) (rest : Input)
    (hlast : ∀ r, requestResult read = .ok r →
      Took responses (c.finish asked read rest) c.calls.length ⟨asked, c.position, read⟩ r) :
    ∀ k call r, (c.finish asked read rest).calls[k]? = some call → call.result = .ok r →
      Took responses (c.finish asked read rest) k call r := by
  intro k call r hcall hok
  have hcall : (c.calls ++ [⟨asked, c.position, read⟩])[k]? = some call := hcall
  rcases Nat.lt_trichotomy k c.calls.length with hlt | rfl | hgt
  · rw [List.getElem?_append_left hlt] at hcall
    exact (h.results k call r hcall hok).finish (Nat.le_of_lt hlt) asked read rest
  · rw [List.getElem?_concat_length] at hcall
    cases hcall
    exact hlast r hok
  · rw [List.getElem?_eq_none (by rw [List.length_append, List.length_singleton]; omega)] at hcall
    cases hcall

/-! ## What each step keeps -/

theorem Inv.send {c : Connection} (h : Inv requests responses handler c) {line : Bytes} (hidle : c.waiting = none)
    (hopen : c.toClient.closed = false) (hline : IsLine newline line) :
    Inv requests responses handler { c with toServer := c.toServer ++ line, waiting := some line } := by
  have hsent : sent { c with toServer := c.toServer ++ line, waiting := some line } = c.sent ++ [line] := by
    unfold sent; rw [hidle]; simp
  refine ⟨?_, fun _ => ?_, fun k out hout => ?_, ?_, h.results⟩
  · rw [hsent]
    intro l hl
    rcases List.mem_append.1 hl with hl | hl
    · exact h.sentLines l hl
    · rw [List.mem_singleton.1 hl]; exact hline
  · rw [hsent]; exact (h.server hopen).write line
  · obtain ⟨asked, response, hasked, hanswer⟩ := h.answers k out hout
    refine ⟨asked, response, ?_, hanswer⟩
    rw [hsent, List.getElem?_append_left (List.getElem?_eq_some_iff.1 hasked).1]; exact hasked
  · obtain ⟨taken, n, hread, hpos, hclean, hcount⟩ := h.reading
    exact ⟨taken, n, hread, hpos, hclean, fun _ => hcount (.inr hopen)⟩

theorem Inv.serve {c : Connection} (h : Inv requests responses handler c) {line rest out : Bytes} {response : Response}
    (hopen : c.toClient.closed = false) (htake : takeLine newline c.toServer = some (line, rest))
    (hanswer : answer requests handler c.written.length line = .respond response)
    (hout : writeMessage responses response = .ok out) :
    Inv requests responses handler { c with
      toServer := rest
      toClient := { c.toClient with bytes := c.toClient.bytes ++ out }
      written := c.written ++ [out] } := by
  -- the server has answered `written.length` lines, so this is the next one
  obtain ⟨asked, hasked, -, hline, hrest⟩ := (h.server hopen).take h.sentLines htake
  rw [List.drop_zero] at hline
  subst hline
  refine ⟨h.sentLines, fun _ => ?_, fun k out' hout' => ?_, ?_, fun k call r hcall hok =>
    (h.results k call r hcall hok).write rest _ out⟩
  · rw [List.length_append, List.length_singleton]; exact hrest
  · rcases Nat.lt_trichotomy k c.written.length with hlt | rfl | hgt
    · rw [List.getElem?_append_left hlt] at hout'; exact h.answers k out' hout'
    · rw [List.getElem?_concat_length] at hout'
      cases hout'
      exact ⟨line, response, hasked, hanswer, hout⟩
    · rw [List.getElem?_eq_none (by rw [List.length_append, List.length_singleton]; omega)] at hout'
      cases hout'
  · obtain ⟨taken, n, hread, hpos, hclean, hcount⟩ := h.reading
    exact ⟨taken, n, hread.write out, by rw [LineStream.offset_append hread.le]; exact hpos, hclean, hcount⟩

theorem Inv.close {c : Connection} (h : Inv requests responses handler c) (toServer : Bytes) :
    Inv requests responses handler ({ c with toServer := toServer } : Connection).close := by
  refine ⟨h.sentLines, fun hopen => ?_, h.answers, ?_, h.results⟩
  · cases hopen
  · obtain ⟨taken, n, hread, hpos, hclean, hcount⟩ := h.reading
    refine ⟨taken, n, hread, hpos, hclean, ?_⟩
    rintro (hwait | hopen)
    · exact hcount (.inl hwait)
    · cases hopen

/-- A call is over: its read has left the client at a position, and its response has been taken from
the old one. -/
theorem Inv.finish {c : Connection} (h : Inv requests responses handler c) {asked : Bytes}
    (hwait : c.waiting = some asked) (read : Option (Except Error (Option Response))) {rest : Input}
    (hclosed : rest.closed = c.toClient.closed)
    (hreading : ∃ taken n, ReadTo c.written taken n rest.bytes ∧
      c.position + (c.toClient.bytes.length - rest.bytes.length) = offset c.written taken + n ∧
      (timeouts (c.calls ++ [⟨asked, c.position, read⟩]) = 0 → n = 0) ∧
      (rest.closed = false → taken + timeouts (c.calls ++ [⟨asked, c.position, read⟩]) = c.calls.length + 1))
    (hlast : ∀ r, requestResult read = .ok r →
      Took responses (c.finish asked read rest) c.calls.length ⟨asked, c.position, read⟩ r) :
    Inv requests responses handler (c.finish asked read rest) := by
  refine ⟨?_, ?_, ?_, ?_, h.finish_results asked read rest hlast⟩
  · rw [sent_finish hwait]; exact h.sentLines
  · rw [sent_finish hwait]
    intro hopen
    exact h.server (hclosed.symm.trans hopen)
  · rw [sent_finish hwait]; exact h.answers
  · obtain ⟨taken, n, hread, hpos, hclean, hcount⟩ := hreading
    refine ⟨taken, n, hread, hpos, hclean, ?_⟩
    rintro (hwait' | hopen)
    · exact absurd rfl hwait'
    · show _ = (c.calls ++ [_]).length
      rw [List.length_append]; exact hcount hopen

theorem Inv.receive {c : Connection} (hresp : responses.Faithful) (h : Inv requests responses handler c)
    {asked line rest : Bytes} (hwait : c.waiting = some asked)
    (htake : takeLine newline c.toClient.bytes = some (line, rest)) :
    Inv requests responses handler
      (c.finish asked (some ((decodeLine responses line).map some)) { c.toClient with bytes := rest }) := by
  obtain ⟨taken, n, hread, hpos, hclean, hcount⟩ := h.reading
  have hcount := hcount (.inl (by rw [hwait]; exact Option.some_ne_none asked))
  have hbytes := (LineStream.takeLine_eq_some.1 htake).2
  obtain ⟨out, hout, hn, rfl, hrest⟩ := hread.take (h.writtenLines hresp) htake
  refine h.finish hwait _ rfl ⟨taken + 1, 0, hrest, ?_, fun _ => rfl, fun _ => ?_⟩ fun r hr => ?_
  · show c.position + (c.toClient.bytes.length - rest.length) = _
    rw [hpos, LineStream.offset_succ hout, hbytes, List.length_append, List.length_drop]; omega
  · rw [timeouts_append, ← hcount]
    show taken + 1 + (_ + 0) = _
    omega
  · have hdecode : decodeLine responses (out.drop n) = .ok r := by
      cases hd : decodeLine responses (out.drop n) with
      | error e => rw [hd] at hr; cases hr
      | ok r' => rw [hd] at hr; cases hr; rfl
    refine ⟨taken, n, out, hout, hn, hpos, hdecode, ?_⟩
    rw [show (c.finish asked _ _).calls.take c.calls.length = c.calls from List.take_left]
    exact ⟨hcount, hclean⟩

/-- At the end of the server's output nothing is left, since whole lines were written. -/
theorem Inv.receive_end {c : Connection} (hresp : responses.Faithful) (h : Inv requests responses handler c)
    {asked : Bytes} {message : Except Error (Option Response)} {rest : Input} (hwait : c.waiting = some asked)
    (hclosed : rest.closed = true) (hnone : newline ∉ c.toClient.bytes)
    (hend : c.toClient.bytes = [] → message = .ok none ∧ rest = c.toClient) :
    Inv requests responses handler (c.finish asked (some message) rest) := by
  obtain ⟨taken, n, hread, hpos, hclean, hcount⟩ := h.reading
  obtain ⟨rfl, rfl⟩ := hend (hread.eq_nil (h.writtenLines hresp) hnone)
  refine h.finish hwait _ rfl ⟨taken, n, hread, ?_, ?_, fun hopen => ?_⟩ fun r hr => ?_
  · rw [Nat.sub_self, Nat.add_zero]; exact hpos
  · rw [timeouts_append]; exact hclean
  · rw [hclosed] at hopen; cases hopen
  · cases hr

theorem Inv.giveUp {c : Connection} (hresp : responses.Faithful) (h : Inv requests responses handler c)
    {asked : Bytes} {lost : Nat} (hwait : c.waiting = some asked) (hle : lost ≤ c.toClient.bytes.length)
    (hnone : newline ∉ c.toClient.bytes.take lost) :
    Inv requests responses handler
      (c.finish asked none { c.toClient with bytes := c.toClient.bytes.drop lost }) := by
  obtain ⟨taken, n, hread, hpos, hclean, hcount⟩ := h.reading
  have hcount := hcount (.inl (by rw [hwait]; exact Option.some_ne_none asked))
  refine h.finish hwait none rfl
    ⟨taken, n + lost, hread.lose (h.writtenLines hresp) hle hnone, ?_, fun hzero => ?_, fun _ => ?_⟩ fun r hr => ?_
  · rw [hpos, List.length_drop]; omega
  · rw [timeouts_append] at hzero
    exact absurd hzero (Nat.succ_ne_zero _)
  · rw [timeouts_append, ← hcount]
    show taken + (_ + 1) = _
    omega
  · cases hr

theorem Inv.moves {c c' : Connection} (hreq : requests.Faithful) (hresp : responses.Faithful)
    (h : Inv requests responses handler c) (hm : Moves requests responses handler c c') :
    Inv requests responses handler c' := by
  cases hm with
  | refused => exact h
  | sent req line hidle hopen hline => exact h.send hidle hopen (writeMessage_isLine hreq hline)
  | served line rest out response hopen htake hanswer hout => exact h.serve hopen htake hanswer hout
  | closed toServer => exact h.close toServer
  | received asked line rest hwait htake => exact h.receive hresp hwait htake
  | ended asked message rest hwait hclosed hnone hend => exact h.receive_end hresp hwait hclosed hnone hend
  | gaveUp asked lost hwait hle hnone => exact h.giveUp hresp hwait hle hnone

/-! ## Runs -/

theorem run_inv (hreq : requests.Faithful) (hresp : responses.Faithful) {events : List Event} {c : Connection}
    (hrun : run requests responses handler events = some c) : Inv requests responses handler c := by
  suffices h : ∀ (events : List Event) (c₀ : Connection), Inv requests responses handler c₀ →
      events.foldlM (step requests responses handler) c₀ = some c → Inv requests responses handler c from
    h events start inv_start hrun
  intro events
  induction events with
  | nil => intro c₀ h₀ hc; cases hc; exact h₀
  | cons e events ih =>
    intro c₀ h₀ hc
    obtain ⟨c₁, hstep, hrest⟩ := Option.bind_eq_some_iff.1 hc
    exact ih c₁ (h₀.moves hreq hresp (step_moves hstep)) hrest

/-! ## Own responses -/

/-- In every run, a call that returns a response has read from the place where the server wrote the
response to that call's request, and returns that response, if and only if no call before it has timed
out. -/
theorem request_own_response_iff (requests : Json Request) (responses : Json Response)
    (handler : Nat → Request → Except Error Response) (hreq : requests.Faithful) (hresp : responses.Faithful)
    (events : List Event) (c : Connection) (hrun : run requests responses handler events = some c) (k : Nat)
    (call : Call) (r : Response) (hcall : c.calls[k]? = some call) (hok : call.result = .ok r) :
    (call.start = offset c.written k ∧ answer requests handler k call.line = .respond r) ↔
      ∀ earlier ∈ c.calls.take k, earlier.timedOut = false := by
  have h := run_inv hreq hresp hrun
  obtain ⟨taken, n, out, hout, hn, hstart, hdecode, hcount, hclean⟩ := h.results k call r hcall hok
  have hzero : (∀ earlier ∈ c.calls.take k, earlier.timedOut = false) ↔ timeouts (c.calls.take k) = 0 := by
    unfold timeouts
    rw [List.countP_eq_zero]
    simp only [Bool.not_eq_true]
  rw [hzero]
  constructor
  · rintro ⟨hown, -⟩
    by_contra hlate
    have hlt := LineStream.offset_lt hout hn (show taken < k by omega)
    omega
  · intro hnone
    obtain rfl : taken = k := by omega
    have hn0 := hclean hnone
    subst hn0
    refine ⟨hstart, ?_⟩
    obtain ⟨asked, response, hasked, hanswer, hwrite⟩ := h.answers taken out hout
    have hline : call.line = asked := by
      have hlt := (List.getElem?_eq_some_iff.1 hcall).1
      unfold sent at hasked
      rw [List.getElem?_append_left (by rw [List.length_map]; exact hlt), List.getElem?_map, hcall] at hasked
      exact Option.some.inj hasked
    rw [List.drop_zero, decodeLine_written hresp hwrite] at hdecode
    split at hdecode
    · cases hdecode
    · cases hdecode
      rw [hline]; exact hanswer

end Connection

end

/-! ## A late response -/

/-- A handler that knows no file. -/
def sampleHandler : Nat → Request → Except Error Response
  | _, .getStatus path => .ok (.error path)
  | _, .getStatusBatch _ => .ok (.statusBatch [])
  | _, _ => .ok .ok

namespace Connection

/-- Two calls that are answered in time. -/
def promptRun : Option Connection :=
  run sampleRequests sampleResponses sampleHandler
    [.request (.getStatus ['a']), .serve, .receive, .request (.getStatusBatch []), .serve, .receive]

/-- The first of two calls times out before the server answers it. -/
def lateRun : Option Connection :=
  run sampleRequests sampleResponses sampleHandler
    [.request (.getStatus ['a']), .timeout 0, .serve, .request (.getStatusBatch []), .receive]

/-- The second call returns its own response. -/
theorem request_own_response_sample :
    ∃ c call, promptRun = some c ∧ c.calls[1]? = some call ∧ call.result = .ok (.statusBatch []) ∧
      call.start = offset c.written 1 ∧
      answer sampleRequests sampleHandler 1 call.line = .respond (.statusBatch []) := by
  have hrun : promptRun.map (fun c => c.calls.map fun call => (call.result, call.timedOut)) =
      some [(.ok (.error ['a']), false), (.ok (.statusBatch []), false)] := by
    decide +kernel
  obtain ⟨c, hc, hcalls⟩ := Option.map_eq_some_iff.1 hrun
  have hlast := congrArg (fun l => l[1]?) hcalls
  rw [List.getElem?_map] at hlast
  obtain ⟨call, hcall, hpair⟩ := Option.map_eq_some_iff.1 hlast
  have hresult : call.result = .ok (.statusBatch []) := (Prod.mk.inj hpair).1
  refine ⟨c, call, hc, hcall, hresult, (request_own_response_iff sampleRequests sampleResponses sampleHandler
    sampleRequests_faithful sampleResponses_faithful _ c hc 1 call _ hcall hresult).2 fun earlier hearlier => ?_⟩
  have hmem : (earlier.result, earlier.timedOut) ∈ c.calls.map fun call => (call.result, call.timedOut) :=
    List.mem_map_of_mem (List.mem_of_mem_take hearlier)
  rw [hcalls] at hmem
  rcases List.mem_pair.1 hmem with h | h
  · exact (Prod.mk.inj h).2
  · exact (Prod.mk.inj h).2

/-- The second call returns the response to the first. -/
theorem request_late_response :
    ∃ c call, lateRun = some c ∧ c.calls[1]? = some call ∧ call.result = .ok (.error ['a']) ∧
      answer sampleRequests sampleHandler 1 call.line = .respond (.statusBatch []) := by
  have hrun : lateRun.map (fun c => c.calls.map fun call =>
      (call.result, answer sampleRequests sampleHandler 1 call.line)) =
      some [(.error .daemonUnresponsive, .respond (.error ['a'])),
        (.ok (.error ['a']), .respond (.statusBatch []))] := by
    decide +kernel
  obtain ⟨c, hc, hcalls⟩ := Option.map_eq_some_iff.1 hrun
  have hlast := congrArg (fun l => l[1]?) hcalls
  rw [List.getElem?_map] at hlast
  obtain ⟨call, hcall, hpair⟩ := Option.map_eq_some_iff.1 hlast
  obtain ⟨hresult, hanswer⟩ := Prod.mk.inj hpair
  exact ⟨c, call, hc, hcall, hresult, hanswer⟩

end Connection

end CloudSync.Ipc
