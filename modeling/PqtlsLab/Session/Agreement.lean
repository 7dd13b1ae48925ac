import PqtlsLab.Client.Connection
import PqtlsLab.Protocol.MessageReadBack
import PqtlsLab.Server.Connection
import PqtlsLab.Session.Composition

/-!
# Requests and responses agree

Frames are self-delimiting, so what one side takes from its stream are the first frames
that the other has written, however the bytes were cut. Hence the responses of the client
answer its requests one by one, and once both sides have ended well, each has received
everything that the other has sent.
-/

namespace PqtlsLab

/-- A legal payload is legal for the largest limit that a decoder can have. -/
theorem Framing.Legal.absolute {maxFrameSize : ℕ} {payload : Bytes}
    (h : Legal maxFrameSize payload) (hmax : maxFrameSize ≤ kAbsoluteMaxFrameSize) :
    Legal kAbsoluteMaxFrameSize payload :=
  ⟨h.1, h.2.trans hmax⟩

/-- All frames of the two streams belong to one self-delimiting code. -/
theorem Framing.absolute_prefixCode : PrefixCode frame (Legal kAbsoluteMaxFrameSize) :=
  frame_prefixCode (by decide)

/-- A decoder that sees a whole frame at the front does not ask for more bytes. -/
theorem Framing.front_frame_ne_incomplete {payload : Bytes}
    (h : Legal kAbsoluteMaxFrameSize payload) (maxFrameSize : ℕ) (rest : Bytes) :
    front maxFrameSize (frame payload ++ rest) ≠ .incomplete := by
  have hlt : payload.length < 2 ^ 32 := lt_of_le_of_lt h.2 (by decide)
  rw [ne_eq, front_eq_incomplete_iff]
  rintro (hshort | ⟨b₀, b₁, b₂, b₃, body, hsplit, -, -, hbody⟩)
  · simp [frame, kHeaderSize] at hshort
  · have hlength := bigEndian_lengthPrefix hlt
    simp only [frame, lengthPrefix, List.cons_append, List.nil_append, List.cons.injEq] at hsplit
    obtain ⟨h₀, h₁, h₂, h₃, rfl⟩ := hsplit
    rw [h₀, h₁, h₂, h₃] at hlength
    simp only [List.length_append] at hbody
    omega

/-- If all entries but the last one are mapped to something, then the images keep the
places of the entries. -/
theorem getElem?_filterMap_eq_some {α β : Type*} {f : α → Option β} {l : List α}
    (h : ∀ a ∈ l.dropLast, (f a).isSome) {i : ℕ} {b : β} (hi : (l.filterMap f)[i]? = some b) :
    ∃ a, l[i]? = some a ∧ f a = some b := by
  induction l generalizing i with
  | nil => simp at hi
  | cons a l ih =>
    cases ha : f a with
    | some c =>
      rw [List.filterMap_cons_some ha] at hi
      cases i with
      | zero => exact ⟨a, rfl, by simpa [ha] using hi⟩
      | succ i =>
        refine ih (fun x hx => h x ?_) hi
        cases l with
        | nil => simp at hx
        | cons a' l => exact List.mem_cons_of_mem _ hx
    | none =>
      cases l with
      | nil => simp [ha] at hi
      | cons a' l =>
        have hsome := h a (by simp)
        rw [ha] at hsome
        cases hsome

/-- The entries of a list are found in every list that begins with it. -/
theorem getElem?_mono {α : Type*} {l l' : List α} (h : l <+: l') {i : ℕ} {a : α}
    (hi : l[i]? = some a) : l'[i]? = some a := by
  obtain ⟨rest, rfl⟩ := h
  rw [List.getElem?_append_left (List.getElem?_eq_some_iff.mp hi).1, hi]

/-- A reply carries the identifier of the request it answers. -/
theorem handleMessage_messageId {label : Label} {request reply : Message}
    {profile : SecurityProfile} {outcome : HandshakeOutcome}
    (h : handleMessage label request profile outcome = some reply) :
    reply.messageId = request.messageId := by
  unfold handleMessage at h
  cases htype : request.type <;> simp only [htype] at h <;> cases h <;> rfl

namespace ServerLoop

/-- Only the last frame can have been left without a reply, so that the replies keep the
places of the frames. -/
theorem Inv.history_of_payload {cfg : ServerSetting} {s : ServerLoop} (h : s.Inv cfg) {i : ℕ}
    {payload : Bytes} (hi : s.payloads[i]? = some payload) :
    ∃ entry reply wire closing, s.history[i]? = some entry ∧
      handleFrame cfg.ctx (cfg.labels i) entry.frame = .reply reply payload wire closing := by
  have hsome (entry : Handled) (hentry : entry ∈ s.history.dropLast) :
      entry.outcome.payload?.isSome := by
    obtain ⟨message, text, wire, houtcome⟩ := h.front_continues entry hentry
    simp [houtcome, FrameOutcome.payload?]
  obtain ⟨entry, hentry, hpayload⟩ := getElem?_filterMap_eq_some hsome hi
  have houtcome := h.log i entry hentry
  cases hcase : entry.outcome with
  | reply message text wire closing =>
    rw [hcase] at hpayload
    cases hpayload
    exact ⟨entry, message, wire, closing, hentry, by rw [← houtcome, hcase]⟩
  | close => simp [hcase, FrameOutcome.payload?] at hpayload
  | thrown e => simp [hcase, FrameOutcome.payload?] at hpayload

/-- The texts of the replies are legal. -/
theorem Inv.legal_payloads {cfg : ServerSetting} {s : ServerLoop} (h : s.Inv cfg) :
    ∀ payload ∈ s.payloads, Framing.Legal Framing.kAbsoluteMaxFrameSize payload := by
  intro payload hmem
  obtain ⟨i, hi⟩ := List.getElem?_of_mem hmem
  obtain ⟨entry, reply, wire, closing, -, houtcome⟩ := h.history_of_payload hi
  exact (handleFrame_eq_reply houtcome).2.1.absolute cfg.ctx.maxFrameSize_bounds.2

end ServerLoop

namespace Exchange

variable {cfg : ClientSetting} {x : Exchange}

/-- Every request has its place among the messages. -/
theorem Inv.length_requests_le (h : x.Inv cfg) : x.requests.length ≤ cfg.messages.length := by
  by_contra hlt
  obtain ⟨text, htext⟩ : ∃ text, x.requests[cfg.messages.length]? = some text :=
    ⟨_, List.getElem?_eq_getElem (by omega)⟩
  obtain ⟨m, hm, -⟩ := h.requests _ text htext
  simp at hm

/-- An exchange that ends normally has the responses to all messages before the first one
that asks the server to close. -/
theorem Inv.length_responses (h : x.Inv cfg) (hx : x.control = .finished) :
    x.responses.length = (cfg.messages.takeWhile fun m => m.type ≠ .close).length := by
  have hnot : ¬ x.Failing := by simp [Failing, hx]
  have hle : x.responses.length ≤ cfg.messages.length := by
    have hlength := h.requests_length hnot
    have hrequests := h.length_requests_le
    omega
  have hrest : x.pending.takeWhile (fun m => m.type ≠ .close) = [] := by
    rcases h.finished hx with hnil | hclosing
    · rw [hnil, List.takeWhile_nil]
    · cases hpending : x.pending with
      | nil => rw [List.takeWhile_nil]
      | cons m rest =>
        simp only [Closing, hpending, List.head?_cons, Option.map_some, Option.some.injEq]
          at hclosing
        simp [hclosing]
  have hfront : ∀ m ∈ cfg.messages.take x.responses.length, decide (m.type ≠ .close) = true := by
    intro m hm
    simpa using h.answered m hm
  calc x.responses.length
      = (cfg.messages.take x.responses.length).length := by rw [List.length_take_of_le hle]
    _ = ((cfg.messages.take x.responses.length ++ x.pending).takeWhile
          fun m => m.type ≠ .close).length := by
        rw [List.takeWhile_append_of_pos hfront, hrest, List.append_nil]
    _ = (cfg.messages.takeWhile fun m => m.type ≠ .close).length := by
        rw [h.pending, List.take_append_drop]

/-- After a normal exit everything that was to be sent has been sent. -/
theorem Inv.sent_of_finished (h : x.Inv cfg) (hx : x.control = .finished) :
    x.io.sent = x.requests.flatMap Framing.frame := by
  simpa [unwritten, hx] using h.sent (by simp [Failing, hx])

/-- A request without a response asked the server to close. -/
theorem Inv.type_of_unanswered (h : x.Inv cfg) (hx : x.control = .finished) {m : Message}
    (hm : cfg.messages[x.responses.length]? = some m) : m.type = .close := by
  have hhead : x.pending.head? = some m := by rw [h.pending, List.head?_drop, hm]
  rcases h.finished hx with hnil | hclosing
  · simp [hnil] at hhead
  · simpa [Closing, hhead] using hclosing

end Exchange

namespace Session

variable {cfg : SessionSetting} {mayStop : Bool} {s : Session}

/-- The frames that the server has taken are legal. -/
theorem Inv.legal_taken (h : s.Inv cfg mayStop) :
    ∀ frame ∈ s.server.frames, Framing.Legal Framing.kAbsoluteMaxFrameSize frame := by
  intro frame hframe
  exact (h.server.legal frame hframe).absolute cfg.server.ctx.maxFrameSize_bounds.2

/-- The requests of the client are legal. -/
theorem Inv.legal_requests (h : s.Inv cfg mayStop) :
    ∀ text ∈ s.client.requests, Framing.Legal Framing.kAbsoluteMaxFrameSize text := by
  intro text htext
  exact (h.client.legal_requests text htext).absolute cfg.client.maxFrameSize_bounds.2

/-- The frames of the server are the first requests of the client. -/
theorem Inv.frames_prefix (h : s.Inv cfg mayStop) (hclient : ¬ s.client.Failing) :
    s.server.frames <+: s.client.requests := by
  apply Framing.absolute_prefixCode.prefix_of_flatMap_prefix h.legal_taken h.legal_requests
  calc s.server.frames.flatMap Framing.frame
      <+: s.server.io.received := ⟨_, h.server.stream.symm⟩
    _ <+: s.client.io.sent := h.toServer
    _ <+: s.client.requests.flatMap Framing.frame := ⟨_, h.client.sent hclient⟩

/-- The response frames of the client are the first replies of the server. -/
theorem Inv.responses_prefix (h : s.Inv cfg mayStop) : s.client.frames <+: s.server.payloads := by
  have hlegal : ∀ frame ∈ s.client.frames,
      Framing.Legal Framing.kAbsoluteMaxFrameSize frame := by
    intro frame hframe
    exact (h.client.legal_frames frame hframe).absolute cfg.client.maxFrameSize_bounds.2
  apply Framing.absolute_prefixCode.prefix_of_flatMap_prefix hlegal h.server.legal_payloads
  calc s.client.frames.flatMap Framing.frame
      <+: s.client.io.received := ⟨_, h.client.stream.symm⟩
    _ <+: s.server.io.sent := h.toClient
    _ <+: s.server.io.sent ++ s.server.pending := List.prefix_append _ _
    _ <+: s.server.payloads.flatMap Framing.frame := h.server.sent

/-- Whatever the label, the server reads the identifier and the type of the message whose
request it has taken. -/
theorem Inv.request_read (h : s.Inv cfg mayStop) (hlib : cfg.client.lib.ReadsBack)
    (haccepted : ∀ m ∈ cfg.client.messages, m.Accepted cfg.client.lib)
    (hclient : ¬ s.client.Failing) {i : ℕ} {entry : Handled}
    (hi : s.server.history[i]? = some entry) (label : Label) :
    ∃ m r, cfg.client.messages[i]? = some m ∧
      Message.parse cfg.server.ctx.lib label entry.frame = .ok r ∧
      r.messageId = m.messageId ∧ r.type = m.type := by
  have hframe : s.server.frames[i]? = some entry.frame := by
    rw [ServerLoop.frames, List.getElem?_map, hi, Option.map_some]
  have hrequest := getElem?_mono (h.frames_prefix hclient) hframe
  obtain ⟨m, hm, hserialize⟩ := h.client.requests i entry.frame hrequest
  obtain ⟨r, hparse, hsame⟩ :=
    (haccepted m (List.mem_of_getElem? hm)).parse_serialize hlib hserialize label
  rw [← cfg.sameLibrary] at hparse
  exact ⟨m, r, hm, hparse, hsame⟩

/-- Every response answers the message in its place. -/
theorem Inv.messageId_response (h : s.Inv cfg mayStop) (hlib : cfg.client.lib.ReadsBack)
    (haccepted : ∀ m ∈ cfg.client.messages, m.Accepted cfg.client.lib)
    (hclient : ¬ s.client.Failing) {i : ℕ} {m response : Message}
    (hm : cfg.client.messages[i]? = some m) (hresponse : s.client.responses[i]? = some response) :
    response.messageId = m.messageId := by
  obtain ⟨text, htext⟩ : ∃ text, s.client.frames[i]? = some text := by
    have hlt := (List.getElem?_eq_some_iff.mp hresponse).1
    rw [← h.client.frames_length hclient] at hlt
    exact ⟨_, List.getElem?_eq_getElem hlt⟩
  obtain ⟨_, hsame, hparse⟩ := h.client.parsed_of_running hclient htext
  rw [hresponse, Option.some.injEq] at hsame
  subst hsame
  obtain ⟨entry, reply, wire, closing, hentry, houtcome⟩ :=
    h.server.history_of_payload (getElem?_mono h.responses_prefix htext)
  obtain ⟨_, request, hplace, hrequest, hid, -⟩ := h.request_read hlib haccepted hclient hentry
    (cfg.server.labels i).request
  rw [hm, Option.some.injEq] at hplace
  subst hplace
  obtain ⟨hserialize, -, -, hways⟩ := handleFrame_eq_reply houtcome
  rw [hrequest] at hways
  rw [cfg.sameLibrary] at hserialize
  obtain ⟨hreply, -⟩ := Message.parse_serialize hlib hserialize hparse
  rcases hways with ⟨-, _, hok, hhandle⟩ | ⟨-, reason, herror, -⟩
  · cases hok
    rw [hreply, handleMessage_messageId hhandle, hid]
  · cases herror

/-- A server that has closed the connection on its own account was asked to, and has taken
all requests. -/
theorem Inv.length_le_of_closing (h : s.Inv cfg mayStop) (hlib : cfg.client.lib.ReadsBack)
    (haccepted : ∀ m ∈ cfg.client.messages, m.Accepted cfg.client.lib)
    (hclient : s.client.control = .finished) (hclosing : s.server.closing = true) :
    s.client.requests.length ≤ s.server.frames.length := by
  have hnot : ¬ s.client.Failing := by simp [Exchange.Failing, hclient]
  obtain ⟨entry, hlast, hcloses⟩ := h.server.last_closes hclosing
  rw [List.getLast?_eq_getElem?] at hlast
  have hlog := h.server.log _ entry hlast
  obtain ⟨m, request, hm, hrequest, -, htype⟩ := h.request_read hlib haccepted hnot hlast
    (cfg.server.labels (s.server.history.length - 1)).request
  rcases hcloses with hclose | ⟨reply, payload, wire, hreject⟩
  · obtain ⟨_, hparse, hasked⟩ := (handleFrame_eq_close_iff _ _ _).mp (hlog.symm.trans hclose)
    rw [hrequest, Except.ok.injEq] at hparse
    subst hparse
    have hunanswered : s.client.responses.length ≤ s.server.history.length - 1 := by
      by_contra hlt
      have htake : (cfg.client.messages.take s.client.responses.length)[
          s.server.history.length - 1]? = some m := by
        rw [List.getElem?_take_of_lt (by omega), hm]
      exact h.client.answered m (List.mem_of_getElem? htake) (htype.symm.trans hasked)
    have hpos := (List.getElem?_eq_some_iff.mp hlast).1
    have hlength := h.client.requests_length hnot
    simp only [Exchange.unanswered, hclient] at hlength
    rw [ServerLoop.frames, List.length_map]
    omega
  · obtain ⟨-, -, -, hways⟩ := handleFrame_eq_reply (hlog.symm.trans hreject)
    rw [hrequest] at hways
    rcases hways with ⟨hopen, -⟩ | ⟨-, reason, herror, -⟩
    · cases hopen
    · cases herror

/-- A server that has drained the stream of a client has taken all requests. -/
theorem Inv.frames_eq_of_drained (h : s.Inv cfg mayStop) (hclient : s.client.control = .finished)
    (hall : s.server.io.received = s.client.io.sent) (hstarved : s.server.Starved) :
    s.server.frames = s.client.requests := by
  have hbytes : s.server.frames.flatMap Framing.frame ++ s.server.decoder.remainder =
      s.client.requests.flatMap Framing.frame := by
    rw [← h.server.stream, hall, h.client.sent_of_finished hclient]
  obtain ⟨rest, hrest, hremainder⟩ :=
    Framing.absolute_prefixCode.eq_append_of_flatMap h.legal_taken h.legal_requests hbytes
  cases rest with
  | nil => rw [hrest, List.append_nil]
  | cons text rest =>
    rw [ServerLoop.Starved, hremainder, List.flatMap_cons] at hstarved
    have hlegal := h.legal_requests text (by simp [hrest])
    exact absurd hstarved (Framing.front_frame_ne_incomplete hlegal _ _)

/-- Once both sides have ended well, the server has taken all requests, unless there were
more than it may take or it was asked to stop. -/
theorem Inv.frames_eq (h : s.Inv cfg false) (hlib : cfg.client.lib.ReadsBack)
    (haccepted : ∀ m ∈ cfg.client.messages, m.Accepted cfg.client.lib)
    (hclient : s.client.control = .finished) (hserver : s.server.control = .finished)
    (hlimit : s.client.requests.length ≤ cfg.server.maxMessages) :
    s.server.frames = s.client.requests := by
  have hfirst := h.frames_prefix (by simp [Exchange.Failing, hclient])
  rcases h.ended hserver with hclosing | hstop | hfull | ⟨-, hall, hstarved⟩
  · exact hfirst.eq_of_length_le (h.length_le_of_closing hlib haccepted hclient hclosing)
  · cases hstop
  · apply hfirst.eq_of_length_le
    rw [ServerLoop.frames, List.length_map]
    exact hlimit.trans hfull
  · exact h.frames_eq_of_drained hclient hall hstarved

/-- Once both sides have ended well, the client has taken all replies. -/
theorem Inv.payloads_eq (h : s.Inv cfg mayStop) (hlib : cfg.client.lib.ReadsBack)
    (haccepted : ∀ m ∈ cfg.client.messages, m.Accepted cfg.client.lib)
    (hclient : s.client.control = .finished) : s.client.frames = s.server.payloads := by
  have hnot : ¬ s.client.Failing := by simp [Exchange.Failing, hclient]
  apply h.responses_prefix.eq_of_length_le
  rw [h.client.frames_length hnot]
  by_contra hmore
  obtain ⟨payload, hpayload⟩ : ∃ payload,
      s.server.payloads[s.client.responses.length]? = some payload :=
    ⟨_, List.getElem?_eq_getElem (by omega)⟩
  obtain ⟨entry, reply, wire, closing, hentry, houtcome⟩ := h.server.history_of_payload hpayload
  obtain ⟨m, request, hm, hrequest, -, htype⟩ := h.request_read hlib haccepted hnot hentry
    (cfg.server.labels s.client.responses.length).request
  have hclose := (handleFrame_eq_close_iff _ _ _).mpr
    ⟨request, hrequest, htype.trans (h.client.type_of_unanswered hclient hm)⟩
  rw [houtcome] at hclose
  cases hclose

/-- Once both sides have ended well, each has received what the other has sent, and both
have counted the same messages. -/
theorem Inv.traffic_eq (h : s.Inv cfg false) (hlib : cfg.client.lib.ReadsBack)
    (haccepted : ∀ m ∈ cfg.client.messages, m.Accepted cfg.client.lib)
    (hclient : s.client.control = .finished) (hserver : s.server.control = .finished)
    (hlimit : s.client.requests.length ≤ cfg.server.maxMessages) :
    s.server.io.received = s.client.io.sent ∧ s.client.io.received = s.server.io.sent ∧
      s.client.protocolMessageCount = s.server.protocolMessageCount := by
  have hframes := h.frames_eq hlib haccepted hclient hserver hlimit
  have hpayloads := h.payloads_eq hlib haccepted hclient
  have hsent : s.server.io.sent = s.server.payloads.flatMap Framing.frame := by
    simpa [ServerLoop.pending, hserver] using
      h.server.sent_all (by simp [ServerLoop.Failing, hserver])
  refine ⟨h.toServer.eq_of_length_le ?_, h.toClient.eq_of_length_le ?_, ?_⟩
  · rw [h.client.sent_of_finished hclient, ← hframes, h.server.stream, List.length_append]
    exact Nat.le_add_right _ _
  · rw [hsent, ← hpayloads, h.client.stream, List.length_append]
    exact Nat.le_add_right _ _
  · have hrequested := h.client.count (by simp [Exchange.Failing, hclient])
    have hanswered := h.server.count (by simp [ServerLoop.Failing, hserver])
    have hlength := h.client.frames_length (by simp [Exchange.Failing, hclient])
    have hhandled : s.server.handled = s.client.requests.length := by
      rw [← hframes, ServerLoop.frames, List.length_map, ServerLoop.handled]
    simp only [Exchange.inFlight, hclient, UInt32.add_zero] at hrequested
    simp only [ServerLoop.inFlight, hserver, UInt32.add_zero] at hanswered
    rw [hrequested, hanswered, hhandled, ← hpayloads, hlength]

end Session

/-- The settings of a client and a server that have completed their handshake and constructed
their decoders. -/
def SessionSetting.between (a : ClientAttempt) (b : ServerAttempt)
    (clientDecoder serverDecoder : Framing.Decoder) (hlib : b.lib = a.lib) : SessionSetting where
  client := (a.exchangeEnv clientDecoder).setting
  server := (b.loopEnv serverDecoder).setting
  sameLibrary := hlib

/-- A result is returned only after a normal exit, and with the data of the exchange. -/
theorem ClientAttempt.finished_of_result {a : ClientAttempt} {peer : PeerName} {x : Exchange}
    (hx : x.Halted) {r : ClientResult} (hr : a.exchangeResult peer x = .ok r) :
    x.control = .finished ∧ r.responses = x.responses ∧
      r.metrics.applicationBytesSent = x.io.bytesSent ∧
      r.metrics.applicationBytesReceived = x.io.bytesReceived ∧
      r.metrics.protocolMessageCount = x.protocolMessageCount := by
  unfold exchangeResult at hr
  cases hcontrol : x.control with
  | finished =>
    simp only [hcontrol] at hr
    cases hr
    exact ⟨rfl, rfl, rfl, rfl, rfl⟩
  | failed e => simp [hcontrol] at hr
  | _ => simp [Exchange.Halted, hcontrol] at hx

/-- A record of success is made only after a normal exit, and with the data of the loop. -/
theorem ServerAttempt.finished_of_success {b : ServerAttempt} {loop : ServerLoop}
    (hloop : loop.Halted) (h : (b.conclude (b.loopRecord loop)).success = true) :
    loop.control = .finished ∧
      (b.conclude (b.loopRecord loop)).applicationBytesSent = loop.io.bytesSent ∧
      (b.conclude (b.loopRecord loop)).applicationBytesReceived = loop.io.bytesReceived ∧
      (b.conclude (b.loopRecord loop)).protocolMessageCount = loop.protocolMessageCount := by
  unfold loopRecord at h ⊢
  cases hcontrol : loop.control with
  | finished => exact ⟨rfl, rfl, rfl, rfl⟩
  | failed e =>
    simp only [hcontrol] at h
    cases h
  | _ => simp [ServerLoop.Halted, hcontrol] at hloop

/-- Whatever the order of the steps, the pieces in which the bytes arrive and the point at
which the connection breaks: a client that returns a result has got the responses to its
messages, in their order; and if nothing kept the server from taking all of them, the
records of both sides agree on what was exchanged. -/
theorem requests_and_responses_agree (a : ClientAttempt) (b : ServerAttempt) (peer : PeerName)
    (clientDecoder serverDecoder : Framing.Decoder) (hlib : b.lib = a.lib)
    (hreads : a.lib.ReadsBack) (haccepted : ∀ m ∈ a.messages, m.Accepted a.lib) (mayStop : Bool)
    (s : Session)
    (hs : s.Reachable (.between a b clientDecoder serverDecoder hlib) mayStop)
    (hclient : s.client.Halted) (r : ClientResult)
    (hresult : a.exchangeResult peer s.client = .ok r) :
    r.responses.length = (a.messages.takeWhile fun m => m.type ≠ .close).length ∧
      (∀ (i : ℕ) (m response : Message), a.messages[i]? = some m →
        r.responses[i]? = some response → response.messageId = m.messageId) ∧
      (s.client.requests.length ≤ b.config.maxMessagesPerConnection.toNat → mayStop = false →
        s.server.Halted → (b.conclude (b.loopRecord s.server)).success = true →
        let record := b.conclude (b.loopRecord s.server)
        r.metrics.applicationBytesSent = record.applicationBytesReceived ∧
          r.metrics.applicationBytesReceived = record.applicationBytesSent ∧
          r.metrics.protocolMessageCount = record.protocolMessageCount) := by
  have hinv := Session.inv_of_reachable hs
  obtain ⟨hfinished, hresponses, hsent, hreceived, hcount⟩ :=
    ClientAttempt.finished_of_result hclient hresult
  have hnot : ¬ s.client.Failing := by simp [Exchange.Failing, hfinished]
  refine ⟨?_, ?_, ?_⟩
  · rw [hresponses]
    exact hinv.client.length_responses hfinished
  · intro i m response hm hresponse
    rw [hresponses] at hresponse
    exact hinv.messageId_response hreads haccepted hnot hm hresponse
  · rintro hlimit rfl hserver hsuccess
    obtain ⟨hended, hserverSent, hserverReceived, hserverCount⟩ :=
      ServerAttempt.finished_of_success hserver hsuccess
    obtain ⟨htoServer, htoClient, hcounts⟩ :=
      hinv.traffic_eq hreads haccepted hfinished hended hlimit
    refine ⟨?_, ?_, ?_⟩
    · rw [hsent, hserverReceived, Io.bytesSent_eq, Io.bytesReceived_eq, htoServer]
    · rw [hreceived, hserverSent, Io.bytesSent_eq, Io.bytesReceived_eq, htoClient]
    · rw [hcount, hserverCount, hcounts]

namespace Session.Ping

/-- The request of a short session. -/
def request : Message := Message.makeRequest Label.sample .ping JsonValue.emptyObject

/-- The reply of a short session. -/
def reply : Message :=
  { Message.makeAcknowledgement Label.sample request (ascii "accepted") with type := .pong }

/-- A library that knows the texts of the session. -/
def library : JsonLibrary := .ofMessages [request, reply]

/-- The client of the session. -/
def client : ClientAttempt := ClientAttempt.sample library SslView.sample []

/-- The server of the session. -/
def server : ServerAttempt := ServerAttempt.sample library []

/-- A decoder with the default limit. -/
def decoder : Framing.Decoder := .fresh _ (ServerContext.sample library).maxFrameSize_bounds

/-- The setting of the session. -/
def setting : SessionSetting := .between client server decoder decoder rfl

/-- The frame of one of the texts. -/
def wire (m : Message) : Bytes := Framing.frame (m.toJson.val.render fun _ => ascii "0.0")

/-- The frame of the request, as one chunk. -/
def requestChunk : Chunk := ⟨wire request, by decide +kernel, by decide +kernel⟩

/-- The frame of the reply, as one chunk. -/
def replyChunk : Chunk := ⟨wire reply, by decide +kernel, by decide +kernel⟩

/-- A turn of the client that does not read. -/
def clientTurn : Turn := .client ⟨.failed .wantRead, .accepted 99⟩

/-- A turn of the server that does not read. -/
def serverTurn : Turn := .server ⟨false, .failed .wantRead, .accepted 149⟩

/-- The request is written in two pieces and answered; then the client closes the
connection. -/
def turns : List Turn :=
  [clientTurn, clientTurn, serverTurn, clientTurn, clientTurn,
    .server ⟨false, .data requestChunk, .accepted 0⟩, serverTurn, clientTurn, serverTurn,
    serverTurn, serverTurn, .client ⟨.data replyChunk, .accepted 0⟩, clientTurn, clientTurn,
    serverTurn, .server ⟨false, .failed .zeroReturn, .accepted 0⟩]

/-- The session when both sides have ended. -/
def final : Session := (Session.start setting).play setting turns

/-- The session can be reached without the server being asked to stop. -/
theorem reachable_final : final.Reachable setting false :=
  reachable_play .refl (by decide +kernel)

/-- The library of the session reads its texts back. -/
theorem library_readsBack : library.ReadsBack := by
  apply JsonLibrary.ofMessages_readsBack
  intro m hm
  have hid : m.messageId = generateUuidV4 Label.sample.entropy := by
    simp only [List.mem_cons, List.not_mem_nil, or_false] at hm
    rcases hm with rfl | rfl <;> rfl
  rw [hid]
  exact plain_generateUuidV4 _

/-- The request of the session is accepted. -/
theorem accepted_request : request.Accepted library :=
  Message.accepted_of_isOk Label.sample (by decide +kernel)

end Session.Ping

open Session.Ping in
/-- The client of a short session returns one response, with the identifier of the request,
and both sides record the same traffic. -/
theorem requests_and_responses_agree_ping :
    ∃ r, client.exchangeResult .unavailable final.client = .ok r ∧ r.responses.length = 1 ∧
      (∀ response, r.responses[0]? = some response → response.messageId = request.messageId) ∧
      r.metrics.applicationBytesSent =
        (server.conclude (server.loopRecord final.server)).applicationBytesReceived ∧
      r.metrics.applicationBytesReceived =
        (server.conclude (server.loopRecord final.server)).applicationBytesSent ∧
      r.metrics.protocolMessageCount =
        (server.conclude (server.loopRecord final.server)).protocolMessageCount := by
  have hok : (client.exchangeResult .unavailable final.client).isOk = true := by decide +kernel
  cases hresult : client.exchangeResult .unavailable final.client with
  | error e =>
    rw [hresult] at hok
    cases hok
  | ok r =>
    obtain ⟨hlength, hids, hrecords⟩ := requests_and_responses_agree client server .unavailable
      decoder decoder rfl library_readsBack
      (fun m hm => List.mem_singleton.mp hm ▸ accepted_request) false final reachable_final
      (by decide +kernel) r hresult
    exact ⟨r, rfl, hlength, fun response => hids 0 request response rfl,
      hrecords (by decide +kernel) rfl (by decide +kernel) (by decide +kernel)⟩

end PqtlsLab
