import PqtlsLab.Connection.Transport
import PqtlsLab.Protocol.FrameStream
import PqtlsLab.Protocol.Message

/-!
# The application exchange of the client

The loop of `connect_and_exchange` as a state machine: a message is serialised and
written, then the client reads until a response frame is complete, unless the
message asked the server to close. The list of messages still to be sent begins with
the one in progress.
-/

namespace PqtlsLab

/-- Where the exchange is: at the head of the loop over the messages, in
`ssl_write_all`, at the condition of the inner loop, in `ssl_read_some`, after a normal
exit, or unwinding an exception. -/
inductive ClientControl where
  | head
  | writing (rest : Bytes)
  | awaiting
  | reading
  | finished
  | failed (e : Thrown)

/-- The variables of the exchange. -/
structure Exchange where
  control : ClientControl
  /-- The messages whose exchange is not complete. -/
  pending : List Message
  decoder : Framing.Decoder
  /-- `result.responses`. -/
  responses : List Message
  /-- `metrics.protocol_message_count`. -/
  protocolMessageCount : UInt32
  /-- `counters`, and the bytes behind them. -/
  io : Io
  /-- The texts of the messages handed to `ssl_write_all`. -/
  requests : List Bytes
  /-- The response frames taken from the decoder. -/
  frames : List Bytes

/-- What the exchange depends on besides its variables. -/
structure ClientSetting where
  lib : JsonLibrary
  /-- `config_.common.max_frame_size`. -/
  maxFrameSize : ℕ
  /-- The decoder has been constructed with this limit. -/
  maxFrameSize_bounds : 1 ≤ maxFrameSize ∧ maxFrameSize ≤ Framing.kAbsoluteMaxFrameSize
  messages : List Message
  /-- The labels that complete responses, in the order of the responses. -/
  labels : ℕ → Label

/-- What the environment contributes to one step. -/
structure ClientInput where
  read : ReadResult
  write : WriteResult

namespace Exchange

/-- The variables before the first iteration. -/
def start (cfg : ClientSetting) : Exchange where
  control := .head
  pending := cfg.messages
  decoder := Framing.Decoder.fresh cfg.maxFrameSize cfg.maxFrameSize_bounds
  responses := []
  protocolMessageCount := 0
  io := Io.start
  requests := []
  frames := []

/-- The head of the loop: the next message is serialised and framed. -/
def atHead (cfg : ClientSetting) (x : Exchange) : Exchange :=
  match x.pending with
  | [] => { x with control := .finished }
  | message :: _ =>
    match message.serialize cfg.lib with
    | .error e => { x with control := .failed e }
    | .ok payload =>
      match Framing.encode payload cfg.maxFrameSize with
      | .error e => { x with control := .failed e }
      | .ok wire => { x with requests := x.requests ++ [payload], control := .writing wire }

/-- One round of `ssl_write_all`, and what follows its last one. -/
def onWrite (rest : Bytes) (result : WriteResult) (x : Exchange) : Exchange :=
  if rest.isEmpty then
    let x := { x with protocolMessageCount := x.protocolMessageCount + 1 }
    if x.pending.head?.map Message.type = some .close then { x with control := .finished }
    else { x with control := .awaiting }
  else
    match result with
    | .accepted extra =>
      { x with
        io := x.io.recordSent (rest.take (acceptedBytes extra rest))
        control := .writing (rest.drop (acceptedBytes extra rest)) }
    | .failed failure => { x with control := .failed (throwSslError (ascii "SSL_write") failure) }

/-- The condition of the inner loop, and what follows a complete response. -/
def atAwait (cfg : ClientSetting) (x : Exchange) : Exchange :=
  match x.decoder.nextFrame with
  | (decoder, .error e) => { x with decoder, control := .failed e }
  | (decoder, .ok none) => { x with decoder, control := .reading }
  | (decoder, .ok (some text)) =>
    let x := { x with decoder, frames := x.frames ++ [text] }
    match Message.parse cfg.lib (cfg.labels x.responses.length) text with
    | .error e => { x with control := .failed e }
    | .ok response =>
      { x with
        responses := x.responses ++ [response]
        protocolMessageCount := x.protocolMessageCount + 1
        pending := x.pending.tail
        control := .head }

/-- The exception for a connection that the server closes too early. -/
def closedEarly : Thrown :=
  protocolError
    (ascii "the server closed the connection before a complete response frame arrived")

/-- `ssl_read_some` and what follows it. -/
def onRead (result : ReadResult) (x : Exchange) : Exchange :=
  match result with
  | .data chunk =>
    let x := { x with io := x.io.recordReceived chunk.bytes }
    match x.decoder.feed chunk.bytes with
    | (decoder, .error e) => { x with decoder, control := .failed e }
    | (decoder, .ok ()) => { x with decoder, control := .awaiting }
  | .failed .zeroReturn => { x with control := .failed closedEarly }
  | .failed failure => { x with control := .failed (throwSslError (ascii "SSL_read") failure) }

/-- One step of the exchange. -/
def step (cfg : ClientSetting) (input : ClientInput) (x : Exchange) : Exchange :=
  match x.control with
  | .head => x.atHead cfg
  | .writing rest => x.onWrite rest input.write
  | .awaiting => x.atAwait cfg
  | .reading => x.onRead input.read
  | .finished => x
  | .failed _ => x

/-- The exchange has ended. -/
def Halted (x : Exchange) : Prop :=
  match x.control with
  | .finished => True
  | .failed _ => True
  | _ => False

instance : DecidablePred Halted := fun x =>
  match h : x.control with
  | .finished => .isTrue (by simp [Halted, h])
  | .failed _ => .isTrue (by simp [Halted, h])
  | .head => .isFalse (by simp [Halted, h])
  | .writing _ => .isFalse (by simp [Halted, h])
  | .awaiting => .isFalse (by simp [Halted, h])
  | .reading => .isFalse (by simp [Halted, h])

/-- Everything a step of a running exchange can do, with the decoder seen through its
unread remainder. -/
inductive Move (cfg : ClientSetting) (input : ClientInput) (x : Exchange) : Exchange → Prop where
  | done (hcontrol : x.control = .head) (hpending : x.pending = []) :
      Move cfg input x { x with control := .finished }
  | unsendable (message : Message) (rest : List Message) (e : Thrown)
      (hcontrol : x.control = .head) (hpending : x.pending = message :: rest)
      (herror : message.serialize cfg.lib = .error e ∨ ∃ payload,
        message.serialize cfg.lib = .ok payload ∧
          Framing.encode payload cfg.maxFrameSize = .error e) :
      Move cfg input x { x with control := .failed e }
  | send (message : Message) (rest : List Message) (payload : Bytes)
      (hcontrol : x.control = .head) (hpending : x.pending = message :: rest)
      (hserialize : message.serialize cfg.lib = .ok payload)
      (hlegal : Framing.Legal cfg.maxFrameSize payload) :
      Move cfg input x
        { x with
          requests := x.requests ++ [payload]
          control := .writing (Framing.frame payload) }
  | sentClose (hcontrol : x.control = .writing [])
      (hclose : x.pending.head?.map Message.type = some .close) :
      Move cfg input x
        { x with protocolMessageCount := x.protocolMessageCount + 1, control := .finished }
  | sent (hcontrol : x.control = .writing [])
      (hopen : x.pending.head?.map Message.type ≠ some .close) :
      Move cfg input x
        { x with protocolMessageCount := x.protocolMessageCount + 1, control := .awaiting }
  | accepted (rest : Bytes) (extra : ℕ) (hcontrol : x.control = .writing rest) (hrest : rest ≠ [])
      (hwrite : input.write = .accepted extra) :
      Move cfg input x
        { x with
          io := x.io.recordSent (rest.take (acceptedBytes extra rest))
          control := .writing (rest.drop (acceptedBytes extra rest)) }
  | writeFailed (rest : Bytes) (failure : SslFailure) (hcontrol : x.control = .writing rest)
      (hrest : rest ≠ []) (hwrite : input.write = .failed failure) :
      Move cfg input x { x with control := .failed (throwSslError (ascii "SSL_write") failure) }
  | illegal (e : Thrown) (hcontrol : x.control = .awaiting)
      (hfront : Framing.front x.decoder.maxFrameSize x.decoder.remainder = .illegal e) :
      Move cfg input x { x with control := .failed e }
  | starve (hcontrol : x.control = .awaiting)
      (hfront : Framing.front x.decoder.maxFrameSize x.decoder.remainder = .incomplete) :
      Move cfg input x { x with control := .reading }
  | reject (decoder : Framing.Decoder) (text : Bytes) (e : Thrown)
      (hcontrol : x.control = .awaiting)
      (hfront : Framing.front x.decoder.maxFrameSize x.decoder.remainder =
        .complete text decoder.remainder)
      (hmax : decoder.maxFrameSize = x.decoder.maxFrameSize)
      (hparse : Message.parse cfg.lib (cfg.labels x.responses.length) text = .error e) :
      Move cfg input x
        { x with decoder := decoder, frames := x.frames ++ [text], control := .failed e }
  | receive (decoder : Framing.Decoder) (text : Bytes) (response : Message)
      (hcontrol : x.control = .awaiting)
      (hfront : Framing.front x.decoder.maxFrameSize x.decoder.remainder =
        .complete text decoder.remainder)
      (hmax : decoder.maxFrameSize = x.decoder.maxFrameSize)
      (hparse : Message.parse cfg.lib (cfg.labels x.responses.length) text = .ok response) :
      Move cfg input x
        { x with
          decoder := decoder
          frames := x.frames ++ [text]
          responses := x.responses ++ [response]
          protocolMessageCount := x.protocolMessageCount + 1
          pending := x.pending.tail
          control := .head }
  | data (chunk : Chunk) (decoder : Framing.Decoder) (hcontrol : x.control = .reading)
      (hread : input.read = .data chunk)
      (hremainder : decoder.remainder = x.decoder.remainder ++ chunk.bytes)
      (hmax : decoder.maxFrameSize = x.decoder.maxFrameSize) :
      Move cfg input x
        { x with io := x.io.recordReceived chunk.bytes, decoder := decoder, control := .awaiting }
  | illegalData (chunk : Chunk) (decoder : Framing.Decoder) (e : Thrown)
      (hcontrol : x.control = .reading) (hread : input.read = .data chunk)
      (hremainder : decoder.remainder = x.decoder.remainder ++ chunk.bytes)
      (hmax : decoder.maxFrameSize = x.decoder.maxFrameSize)
      (hfront : Framing.front decoder.maxFrameSize decoder.remainder = .illegal e) :
      Move cfg input x
        { x with io := x.io.recordReceived chunk.bytes, decoder := decoder, control := .failed e }
  | endOfStream (hcontrol : x.control = .reading) (hread : input.read = .failed .zeroReturn) :
      Move cfg input x { x with control := .failed closedEarly }
  | readFailed (failure : SslFailure) (hcontrol : x.control = .reading)
      (hread : input.read = .failed failure) (hfailure : failure ≠ .zeroReturn) :
      Move cfg input x { x with control := .failed (throwSslError (ascii "SSL_read") failure) }

/-- A step from the head of the loop is a move. -/
theorem move_atHead (cfg : ClientSetting) (input : ClientInput) {x : Exchange}
    (hcontrol : x.control = .head) : Move cfg input x (x.atHead cfg) := by
  unfold atHead
  split
  · rename_i hpending
    exact .done hcontrol hpending
  · rename_i message rest hpending
    split
    · rename_i e hserialize
      exact .unsendable message rest e hcontrol hpending (.inl hserialize)
    · rename_i payload hserialize
      split
      · rename_i e hencode
        exact .unsendable message rest e hcontrol hpending (.inr ⟨payload, hserialize, hencode⟩)
      · rename_i wire hencode
        obtain ⟨hlegal, rfl⟩ := (Framing.encode_eq_ok_iff cfg.maxFrameSize_bounds.2).mp hencode
        exact .send message rest payload hcontrol hpending hserialize hlegal

/-- A step from a write is a move. -/
theorem move_onWrite (cfg : ClientSetting) (input : ClientInput) {x : Exchange} {rest : Bytes}
    (hcontrol : x.control = .writing rest) : Move cfg input x (x.onWrite rest input.write) := by
  unfold onWrite
  split
  · rename_i hempty
    rw [List.isEmpty_iff] at hempty
    subst hempty
    simp only
    split
    · exact .sentClose hcontrol ‹_›
    · exact .sent hcontrol ‹_›
  · rename_i hrest
    have hne : rest ≠ [] := by simpa using hrest
    cases hwrite : input.write with
    | accepted extra => exact .accepted rest extra hcontrol hne hwrite
    | failed failure => exact .writeFailed rest failure hcontrol hne hwrite

/-- A step from the condition of the inner loop is a move. -/
theorem move_atAwait (cfg : ClientSetting) (input : ClientInput) {x : Exchange}
    (hcontrol : x.control = .awaiting) : Move cfg input x (x.atAwait cfg) := by
  unfold atAwait
  have hspec := x.decoder.nextFrame_spec
  cases hfront : Framing.front x.decoder.maxFrameSize x.decoder.remainder with
  | incomplete =>
    simp only [hfront] at hspec
    simp only [hspec]
    exact .starve hcontrol hfront
  | illegal e =>
    simp only [hfront] at hspec
    simp only [hspec]
    exact .illegal e hcontrol hfront
  | complete text rest =>
    simp only [hfront] at hspec
    obtain ⟨decoder, hnext, rfl, hmax⟩ := hspec
    simp only [hnext]
    cases hparse : Message.parse cfg.lib (cfg.labels x.responses.length) text with
    | error e => exact .reject decoder text e hcontrol hfront hmax hparse
    | ok response => exact .receive decoder text response hcontrol hfront hmax hparse

/-- A step from a read is a move. -/
theorem move_onRead (cfg : ClientSetting) (input : ClientInput) {x : Exchange}
    (hcontrol : x.control = .reading) : Move cfg input x (x.onRead input.read) := by
  cases hread : input.read with
  | failed failure =>
    cases failure with
    | zeroReturn => exact .endOfStream hcontrol hread
    | _ => exact .readFailed _ hcontrol hread (by simp)
  | data chunk =>
    obtain ⟨decoder, hremainder, hmax, hcall⟩ := x.decoder.feed_cases chunk.bytes
    simp only [onRead]
    rcases hcall with ⟨e, hfront, hfeed⟩ | ⟨-, hfeed⟩
    · simp only [hfeed]
      exact .illegalData chunk decoder e hcontrol hread hremainder hmax hfront
    · simp only [hfeed]
      exact .data chunk decoder hcontrol hread hremainder hmax

/-- Every step of a running exchange is one of the moves. -/
theorem step_move (cfg : ClientSetting) (input : ClientInput) {x : Exchange}
    (hx : ¬ x.Halted) : Move cfg input x (x.step cfg input) := by
  unfold step
  cases hcontrol : x.control with
  | head => exact move_atHead cfg input hcontrol
  | writing rest => exact move_onWrite cfg input hcontrol
  | awaiting => exact move_atAwait cfg input hcontrol
  | reading => exact move_onRead cfg input hcontrol
  | finished => simp [Halted, hcontrol] at hx
  | failed e => simp [Halted, hcontrol] at hx

/-- An exchange that has ended does not move. -/
theorem step_of_halted (cfg : ClientSetting) (input : ClientInput) {x : Exchange}
    (hx : x.Halted) : x.step cfg input = x := by
  unfold step
  cases hcontrol : x.control with
  | finished => rfl
  | failed e => rfl
  | _ => simp [Halted, hcontrol] at hx

end Exchange

end PqtlsLab
