import PqtlsLab.Client.ExchangeRuns

/-!
# What holds in every state of the exchange

The messages are sent one at a time: all before the one in progress have been
answered, and none of them asked the server to close. The bytes sent are the frames
of the requests, as far as they have been written, and the bytes received are the
response frames followed by the unread remainder of the decoder.
-/

namespace PqtlsLab

namespace Exchange

/-- The bytes that `ssl_write_all` has not written yet. -/
def unwritten (x : Exchange) : Bytes :=
  match x.control with
  | .writing rest => rest
  | _ => []

/-- An exception is being unwound. -/
def Failing (x : Exchange) : Prop := ∃ e, x.control = .failed e

/-- The requests that are being written. -/
def inFlight (x : Exchange) : UInt32 :=
  match x.control with
  | .writing _ => 1
  | _ => 0

/-- The requests that have been handed to `ssl_write_all` and not been answered. After a
normal exit this can only be the one that asked the server to close. -/
def unanswered (x : Exchange) : ℕ :=
  match x.control with
  | .head => 0
  | .finished => min 1 x.pending.length
  | _ => 1

/-- The message in progress asks the server to close. -/
def Closing (x : Exchange) : Prop := x.pending.head?.map Message.type = some .close

/-- What holds in every state. -/
structure Inv (cfg : ClientSetting) (x : Exchange) : Prop where
  maxFrameSize : x.decoder.maxFrameSize = cfg.maxFrameSize
  stream : x.io.received = x.frames.flatMap Framing.frame ++ x.decoder.remainder
  legal_frames : ∀ frame ∈ x.frames, Framing.Legal cfg.maxFrameSize frame
  legal_requests : ∀ text ∈ x.requests, Framing.Legal cfg.maxFrameSize text
  sent : ¬ x.Failing → x.io.sent ++ x.unwritten = x.requests.flatMap Framing.frame
  pending : x.pending = cfg.messages.drop x.responses.length
  answered : ∀ m ∈ cfg.messages.take x.responses.length, m.type ≠ .close
  requests : ∀ (i : ℕ) (text : Bytes), x.requests[i]? = some text →
    ∃ m : Message, cfg.messages[i]? = some m ∧ m.serialize cfg.lib = .ok text
  requests_length : ¬ x.Failing → x.requests.length = x.responses.length + x.unanswered
  frames_length : ¬ x.Failing → x.frames.length = x.responses.length
  parsed : ∀ (i : ℕ) (frame : Bytes), x.frames[i]? = some frame →
    (∃ r, x.responses[i]? = some r ∧
        Message.parse cfg.lib (cfg.labels i) frame = .ok r) ∨
      ∃ e, x.control = .failed e ∧ Message.parse cfg.lib (cfg.labels i) frame = .error e
  waiting : x.control = .awaiting ∨ x.control = .reading → ¬ x.Closing
  finished : x.control = .finished → x.pending = [] ∨ x.Closing
  count : ¬ x.Failing →
    x.protocolMessageCount + x.inFlight = UInt32.ofNat (x.requests.length + x.responses.length)

/-- The invariant holds before the first iteration. -/
theorem inv_start (cfg : ClientSetting) : (start cfg).Inv cfg where
  maxFrameSize := rfl
  stream := rfl
  legal_frames := by simp [start]
  legal_requests := by simp [start]
  sent := by simp [start, unwritten]
  pending := rfl
  answered := by simp [start]
  requests := by simp [start]
  requests_length := by simp [start, unanswered]
  frames_length := by simp [start]
  parsed := by simp [start]
  waiting := by simp [start]
  finished := by simp [start]
  count := by simp [start, inFlight]

/-- In a running exchange every frame has been parsed into a response. -/
theorem Inv.parsed_of_running {cfg : ClientSetting} {x : Exchange} (h : x.Inv cfg)
    (hx : ¬ x.Failing) {i : ℕ} {frame : Bytes} (hi : x.frames[i]? = some frame) :
    ∃ r, x.responses[i]? = some r ∧ Message.parse cfg.lib (cfg.labels i) frame = .ok r := by
  rcases h.parsed i frame hi with hok | ⟨e, he, -⟩
  · exact hok
  · exact absurd ⟨e, he⟩ hx

/-- An exception that changes nothing else keeps the invariant. -/
theorem Inv.fail {cfg : ClientSetting} {x : Exchange} (h : x.Inv cfg) (hx : ¬ x.Failing)
    (e : Thrown) : Inv cfg { x with control := .failed e } := by
  have hfailing : Failing { x with control := .failed e } := ⟨e, rfl⟩
  refine { h with
    sent := fun hnot => absurd hfailing hnot
    requests_length := fun hnot => absurd hfailing hnot
    frames_length := fun hnot => absurd hfailing hnot
    parsed := fun i frame hi => .inl (h.parsed_of_running hx hi)
    waiting := by simp
    finished := by simp
    count := fun hnot => absurd hfailing hnot }

/-- A change of the control point that neither writes nor answers anything keeps the
invariant. -/
theorem Inv.of_control {cfg : ClientSetting} {x : Exchange} (h : x.Inv cfg) (hx : ¬ x.Failing)
    (control : ClientControl) (count : UInt32) (hgood : ∀ e, control ≠ .failed e)
    (hunwritten : ∀ rest, control ≠ .writing rest) (hwritten : x.unwritten = [])
    (hunanswered : unanswered { x with control := control } = x.unanswered)
    (hwaiting : control = .awaiting ∨ control = .reading → ¬ x.Closing)
    (hfinished : control = .finished → x.pending = [] ∨ x.Closing)
    (hcount : count = x.protocolMessageCount + x.inFlight) :
    Inv cfg { x with control := control, protocolMessageCount := count } := by
  have hnone : unwritten { x with control := control, protocolMessageCount := count } = [] := by
    cases control <;> simp_all [unwritten]
  have hflight : inFlight { x with control := control, protocolMessageCount := count } = 0 := by
    cases control <;> simp_all [inFlight]
  refine { h with
    sent := ?_
    requests_length := ?_
    frames_length := fun _ => h.frames_length hx
    parsed := fun i frame hi => .inl (h.parsed_of_running hx hi)
    waiting := hwaiting
    finished := hfinished
    count := ?_ }
  · intro _
    rw [hnone]
    simpa [hwritten] using h.sent hx
  · intro _
    exact (h.requests_length hx).trans (congrArg _ hunanswered.symm)
  · intro _
    rw [hflight, UInt32.add_zero]
    exact hcount.trans (h.count hx)

/-- Handing a request to `ssl_write_all` keeps the invariant. -/
theorem Inv.send {cfg : ClientSetting} {x : Exchange} (h : x.Inv cfg) (hx : x.control = .head)
    {message : Message} {rest : List Message} {payload : Bytes}
    (hpending : x.pending = message :: rest) (hserialize : message.serialize cfg.lib = .ok payload)
    (hlegal : Framing.Legal cfg.maxFrameSize payload) :
    Inv cfg { x with
      requests := x.requests ++ [payload], control := .writing (Framing.frame payload) } := by
  have hnot : ¬ x.Failing := by simp [Failing, hx]
  have hlength : x.requests.length = x.responses.length := by
    simpa [unanswered, hx] using h.requests_length hnot
  have hnext : cfg.messages[x.requests.length]? = some message := by
    have hhead := congrArg List.head? (h.pending.symm.trans hpending)
    rw [List.head?_drop] at hhead
    rw [hlength, hhead]
    rfl
  refine { h with
    legal_requests := ?_
    sent := ?_
    requests := ?_
    requests_length := ?_
    frames_length := fun _ => h.frames_length hnot
    parsed := fun i frame hi => .inl (h.parsed_of_running hnot hi)
    waiting := by simp
    finished := by simp
    count := ?_ }
  · intro text htext
    rcases List.mem_append.mp htext with htext | htext
    · exact h.legal_requests text htext
    · rwa [List.mem_singleton.mp htext]
  · intro _
    have hsent := h.sent hnot
    simp only [unwritten, hx, List.append_nil] at hsent
    simp [unwritten, hsent]
  · intro i text hi
    rcases getElem?_concat_eq_some hi with hi | ⟨rfl, rfl⟩
    · exact h.requests i text hi
    · exact ⟨message, hnext, hserialize⟩
  · intro _
    simp [unanswered, hlength]
  · intro _
    have hcount := h.count hnot
    simp only [inFlight, hx, UInt32.add_zero] at hcount
    simp only [inFlight, hcount, List.length_append, List.length_singleton, UInt32.ofNat_add]
    ac_rfl

/-- A successful `SSL_write` keeps the invariant. -/
theorem Inv.write {cfg : ClientSetting} {x : Exchange} (h : x.Inv cfg) {rest : Bytes}
    (hx : x.control = .writing rest) (n : ℕ) :
    Inv cfg { x with
      io := x.io.recordSent (rest.take n), control := .writing (rest.drop n) } := by
  have hnot : ¬ x.Failing := by simp [Failing, hx]
  refine { h with
    sent := ?_
    requests_length := ?_
    frames_length := fun _ => h.frames_length hnot
    parsed := fun i frame hi => .inl (h.parsed_of_running hnot hi)
    waiting := by simp
    finished := by simp
    count := ?_ }
  · intro _
    have hsent := h.sent hnot
    simp only [unwritten, hx] at hsent
    simpa [unwritten] using hsent
  · intro _
    simpa [unanswered, hx] using h.requests_length hnot
  · intro _
    simpa [inFlight, hx] using h.count hnot

/-- A successful `SSL_read` keeps the invariant. -/
theorem Inv.read {cfg : ClientSetting} {x : Exchange} (h : x.Inv cfg) {bytes : Bytes}
    {decoder : Framing.Decoder} (hremainder : decoder.remainder = x.decoder.remainder ++ bytes)
    (hmax : decoder.maxFrameSize = x.decoder.maxFrameSize) :
    Inv cfg { x with io := x.io.recordReceived bytes, decoder := decoder } := by
  refine { h with
    maxFrameSize := hmax.trans h.maxFrameSize
    stream := ?_
    sent := h.sent }
  rw [Io.recordReceived_received, h.stream, hremainder, List.append_assoc]

/-- Taking a response frame from the decoder, before it is parsed. -/
theorem Inv.stream_take {cfg : ClientSetting} {x : Exchange} (h : x.Inv cfg) {text rest : Bytes}
    (hfront : Framing.front x.decoder.maxFrameSize x.decoder.remainder = .complete text rest) :
    x.io.received = (x.frames ++ [text]).flatMap Framing.frame ++ rest ∧
      ∀ frame ∈ x.frames ++ [text], Framing.Legal cfg.maxFrameSize frame := by
  rw [h.maxFrameSize] at hfront
  obtain ⟨hlegal, hsplit⟩ :=
    (Framing.front_eq_complete_iff cfg.maxFrameSize_bounds.2).mp hfront
  constructor
  · rw [h.stream, hsplit]
    simp
  · intro frame hframe
    rcases List.mem_append.mp hframe with hframe | hframe
    · exact h.legal_frames frame hframe
    · rwa [List.mem_singleton.mp hframe]

/-- Rejecting a response keeps the invariant. -/
theorem Inv.reject {cfg : ClientSetting} {x : Exchange} (h : x.Inv cfg)
    (hx : x.control = .awaiting) {decoder : Framing.Decoder} {text : Bytes} {e : Thrown}
    (hfront : Framing.front x.decoder.maxFrameSize x.decoder.remainder =
      .complete text decoder.remainder)
    (hmax : decoder.maxFrameSize = x.decoder.maxFrameSize)
    (hparse : Message.parse cfg.lib (cfg.labels x.responses.length) text = .error e) :
    Inv cfg { x with
      decoder := decoder, frames := x.frames ++ [text], control := .failed e } := by
  have hnot : ¬ x.Failing := by simp [Failing, hx]
  have hfailing : Failing { x with
      decoder := decoder, frames := x.frames ++ [text], control := .failed e } := ⟨e, rfl⟩
  obtain ⟨hstream, hlegal⟩ := h.stream_take hfront
  refine { h with
    maxFrameSize := hmax.trans h.maxFrameSize
    stream := hstream
    legal_frames := hlegal
    sent := fun hgood => absurd hfailing hgood
    requests_length := fun hgood => absurd hfailing hgood
    frames_length := fun hgood => absurd hfailing hgood
    parsed := ?_
    waiting := by simp
    finished := by simp
    count := fun hgood => absurd hfailing hgood }
  intro i frame hi
  rcases getElem?_concat_eq_some hi with hi | ⟨rfl, rfl⟩
  · exact .inl (h.parsed_of_running hnot hi)
  · rw [← h.frames_length hnot] at hparse
    exact .inr ⟨e, rfl, hparse⟩

/-- Accepting a response keeps the invariant. -/
theorem Inv.receive {cfg : ClientSetting} {x : Exchange} (h : x.Inv cfg)
    (hx : x.control = .awaiting) {decoder : Framing.Decoder} {text : Bytes} {response : Message}
    (hfront : Framing.front x.decoder.maxFrameSize x.decoder.remainder =
      .complete text decoder.remainder)
    (hmax : decoder.maxFrameSize = x.decoder.maxFrameSize)
    (hparse : Message.parse cfg.lib (cfg.labels x.responses.length) text = .ok response) :
    Inv cfg { x with
      decoder := decoder
      frames := x.frames ++ [text]
      responses := x.responses ++ [response]
      protocolMessageCount := x.protocolMessageCount + 1
      pending := x.pending.tail
      control := .head } := by
  have hnot : ¬ x.Failing := by simp [Failing, hx]
  have hlength := h.frames_length hnot
  obtain ⟨hstream, hlegal⟩ := h.stream_take hfront
  refine { h with
    maxFrameSize := hmax.trans h.maxFrameSize
    stream := hstream
    legal_frames := hlegal
    sent := ?_
    pending := ?_
    answered := ?_
    requests_length := ?_
    frames_length := fun _ => by simp [hlength]
    parsed := ?_
    waiting := by simp
    finished := by simp
    count := ?_ }
  · intro _
    simpa [unwritten, hx] using h.sent hnot
  · simp [h.pending]
  · intro m hm
    rw [List.length_append, List.length_singleton, List.take_add_one] at hm
    rcases List.mem_append.mp hm with hm | hm
    · exact h.answered m hm
    · intro hclose
      have hopen := h.waiting (.inl hx)
      rw [Option.mem_toList] at hm
      rw [Closing, h.pending, List.head?_drop, Option.mem_def.mp hm] at hopen
      exact hopen (by simp [hclose])
  · intro _
    simpa [unanswered, hx] using h.requests_length hnot
  · intro i frame hi
    left
    rcases getElem?_concat_eq_some hi with hi | ⟨rfl, rfl⟩
    · obtain ⟨r, hr, hok⟩ := h.parsed_of_running hnot hi
      have hlt := (List.getElem?_eq_some_iff.mp hr).1
      exact ⟨r, by rwa [List.getElem?_append_left hlt], hok⟩
    · rw [← hlength] at hparse
      exact ⟨response, by simp [hlength], hparse⟩
  · intro _
    have hcount := h.count hnot
    simp only [inFlight, hx, UInt32.add_zero] at hcount
    simp only [inFlight, hcount, List.length_append, List.length_singleton, UInt32.ofNat_add]
    ac_rfl

/-- Every move keeps the invariant. -/
theorem Move.inv {cfg : ClientSetting} {input : ClientInput} {x y : Exchange}
    (hmove : Move cfg input x y) (h : x.Inv cfg) : y.Inv cfg := by
  cases hmove with
  | done hcontrol hpending =>
    exact h.of_control (by simp [Failing, hcontrol]) .finished _ (by simp) (by simp)
      (by simp [unwritten, hcontrol]) (by simp [unanswered, hcontrol, hpending]) (by simp)
      (fun _ => .inl hpending) (by simp [inFlight, hcontrol])
  | unsendable message rest e hcontrol => exact h.fail (by simp [Failing, hcontrol]) e
  | send message rest payload hcontrol hpending hserialize hlegal =>
    exact h.send hcontrol hpending hserialize hlegal
  | sentClose hcontrol hclose =>
    have hone : 1 ≤ x.pending.length := by
      cases hpending : x.pending with
      | nil => simp [hpending] at hclose
      | cons message rest => simp
    exact h.of_control (by simp [Failing, hcontrol]) .finished _ (by simp) (by simp)
      (by simp [unwritten, hcontrol]) (by simp [unanswered, hcontrol, hone]) (by simp)
      (fun _ => .inr hclose) (by simp [inFlight, hcontrol])
  | sent hcontrol hopen =>
    exact h.of_control (by simp [Failing, hcontrol]) .awaiting _ (by simp) (by simp)
      (by simp [unwritten, hcontrol]) (by simp [unanswered, hcontrol]) (fun _ => hopen) (by simp)
      (by simp [inFlight, hcontrol])
  | accepted rest extra hcontrol => exact h.write hcontrol _
  | writeFailed rest failure hcontrol => exact h.fail (by simp [Failing, hcontrol]) _
  | illegal e hcontrol => exact h.fail (by simp [Failing, hcontrol]) e
  | starve hcontrol =>
    exact h.of_control (by simp [Failing, hcontrol]) .reading _ (by simp) (by simp)
      (by simp [unwritten, hcontrol]) (by simp [unanswered, hcontrol])
      (fun _ => h.waiting (.inl hcontrol)) (by simp) (by simp [inFlight, hcontrol])
  | reject decoder text e hcontrol hfront hmax hparse =>
    exact h.reject hcontrol hfront hmax hparse
  | receive decoder text response hcontrol hfront hmax hparse =>
    exact h.receive hcontrol hfront hmax hparse
  | data chunk decoder hcontrol hread hremainder hmax =>
    have hopen := h.waiting (.inr hcontrol)
    exact (h.read hremainder hmax).of_control (by simp [Failing, hcontrol]) .awaiting _ (by simp)
      (by simp) (by simp [unwritten, hcontrol]) (by simp [unanswered, hcontrol]) (fun _ => hopen)
      (by simp) (by simp [inFlight, hcontrol])
  | illegalData chunk decoder e hcontrol hread hremainder hmax =>
    exact (h.read hremainder hmax).fail (by simp [Failing, hcontrol]) e
  | endOfStream hcontrol => exact h.fail (by simp [Failing, hcontrol]) _
  | readFailed failure hcontrol => exact h.fail (by simp [Failing, hcontrol]) _

/-- The invariant survives every step. -/
theorem Inv.step {cfg : ClientSetting} {x : Exchange} (h : x.Inv cfg) (input : ClientInput) :
    (x.step cfg input).Inv cfg := by
  by_cases hx : x.Halted
  · rwa [step_of_halted cfg input hx]
  · exact (step_move cfg input hx).inv h

/-- Where an exception of the exchange can come from. -/
inductive Origin (cfg : ClientSetting) (x : Exchange) (e : Thrown) : Prop where
  | serialize (message : Message) (h : message.serialize cfg.lib = .error e)
  | encode (payload : Bytes) (h : Framing.encode payload cfg.maxFrameSize = .error e)
  | write (failure : SslFailure) (h : e = throwSslError (ascii "SSL_write") failure)
  | read (failure : SslFailure) (h : e = throwSslError (ascii "SSL_read") failure)
  | header (maxFrameSize : ℕ) (stream : Bytes)
      (h : Framing.front maxFrameSize stream = .illegal e)
  | closedEarly (h : e = Exchange.closedEarly)
  | parse (i : ℕ) (frame : Bytes) (hframe : x.frames[i]? = some frame)
      (h : Message.parse cfg.lib (cfg.labels i) frame = .error e)

/-- A move that throws does so for one of these reasons. -/
theorem Move.origin {cfg : ClientSetting} {input : ClientInput} {x y : Exchange}
    (hmove : Move cfg input x y) (h : x.Inv cfg) {e : Thrown} (he : y.control = .failed e) :
    y.Origin cfg e := by
  cases hmove with
  | unsendable message rest e' hcontrol hpending herror =>
    cases he
    rcases herror with hserialize | ⟨payload, -, hencode⟩
    · exact .serialize message hserialize
    · exact .encode payload hencode
  | writeFailed rest failure =>
    cases he
    exact .write failure rfl
  | illegal e' hcontrol hfront =>
    cases he
    exact .header _ _ hfront
  | reject decoder text e' hcontrol hfront hmax hparse =>
    cases he
    rw [← h.frames_length (by simp [Failing, hcontrol])] at hparse
    exact .parse _ text List.getElem?_concat_length hparse
  | illegalData chunk decoder e' hcontrol hread hremainder hmax hfront =>
    cases he
    exact .header _ _ hfront
  | endOfStream =>
    cases he
    exact .closedEarly rfl
  | readFailed failure =>
    cases he
    exact .read failure rfl
  | _ => simp_all

end Exchange

namespace ClientEnv

/-- The invariant holds when the exchange has ended, and an exception that has ended it has
one of the known origins. -/
theorem inv_final (env : ClientEnv) :
    env.final.Inv env.setting ∧
      ∀ e, env.final.control = .failed e → env.final.Origin env.setting e := by
  refine env.program.final_invariant
    (I := fun x => x.Inv env.setting ∧ ∀ e, x.control = .failed e → x.Origin env.setting e)
    (fun x hx hinv => ?_) ⟨Exchange.inv_start _, by simp [Exchange.start]⟩
  exact ⟨hinv.1.step _, fun e he => (Exchange.step_move env.setting _ hx).origin hinv.1 he⟩

end ClientEnv

end PqtlsLab
