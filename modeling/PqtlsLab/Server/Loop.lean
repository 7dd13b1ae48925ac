import PqtlsLab.Connection.Transport
import PqtlsLab.Server.Handler

/-!
# The application loop of the server

The loop of `handle_connection` as a state machine whose control points are the head
of the loop and the calls of `SSL_read` and `SSL_write`. A step from the head drains
one frame from the decoder or asks for more bytes; the frames and what became of
them are kept as a history, whose length is the counter `handled`. What the
environment contributes to a step is an input of it.
-/

namespace PqtlsLab

/-- Where the loop is: at its head, in `ssl_read_some`, in `ssl_write_all` with some
bytes left to write, after a normal exit, or unwinding an exception. -/
inductive ServerControl where
  | head
  | reading
  | writing (rest : Bytes)
  | finished
  | failed (e : Thrown)

/-- A frame that the loop has taken, and what became of it. -/
structure Handled where
  frame : Bytes
  outcome : FrameOutcome

/-- The variables of the loop. -/
structure ServerLoop where
  control : ServerControl
  decoder : Framing.Decoder
  /-- `closing`. -/
  closing : Bool
  /-- `metrics.protocol_message_count`. -/
  protocolMessageCount : UInt32
  /-- `counters`, and the bytes behind them. -/
  io : Io
  /-- The frames handled so far. -/
  history : List Handled
  /-- The number of times the loop condition has been evaluated. -/
  polls : ℕ

/-- What the loop depends on besides its variables. -/
structure ServerSetting where
  ctx : ServerContext
  /-- `config_.max_messages_per_connection`. -/
  maxMessages : ℕ
  /-- The labels for the frames, in the order in which they are handled. -/
  labels : ℕ → FrameLabels

/-- The setting of an unexceptional connection with the default limits. -/
def ServerSetting.sample (lib : JsonLibrary) : ServerSetting where
  ctx := ServerContext.sample lib
  maxMessages := 1024
  labels _ := ⟨Label.sample, Label.sample⟩

/-- What the environment contributes to one step: the value of `stopping_` and the
result of the call the step makes, if it makes one. -/
structure ServerInput where
  stopping : Bool
  read : ReadResult
  write : WriteResult

namespace ServerLoop

/-- The variables before the first iteration. -/
def start (cfg : ServerSetting) : ServerLoop where
  control := .head
  decoder := Framing.Decoder.fresh cfg.ctx.maxFrameSize cfg.ctx.maxFrameSize_bounds
  closing := false
  protocolMessageCount := 0
  io := Io.start
  history := []
  polls := 0

/-- `handled`. -/
def handled (s : ServerLoop) : ℕ := s.history.length

/-- The frames taken so far. -/
def frames (s : ServerLoop) : List Bytes := s.history.map Handled.frame

/-- The replies handed to `ssl_write_all` so far. -/
def replies (s : ServerLoop) : List Message := s.history.filterMap fun h => h.outcome.message?

/-- The texts of the replies handed to `ssl_write_all` so far. -/
def payloads (s : ServerLoop) : List Bytes := s.history.filterMap fun h => h.outcome.payload?

/-- The part of an iteration that follows a complete frame. -/
def answer (cfg : ServerSetting) (s : ServerLoop) (frame : Bytes) : ServerLoop :=
  let outcome := handleFrame cfg.ctx (cfg.labels s.handled) frame
  let s := { s with
    protocolMessageCount := s.protocolMessageCount + 1
    history := s.history ++ [Handled.mk frame outcome] }
  match outcome with
  | .reply _ _ wire closing =>
    { s with closing := s.closing || closing, control := .writing wire }
  | .close => { s with closing := true, control := .head }
  | .thrown e => { s with control := .failed e }

/-- The head of the loop, up to the next call. -/
def atHead (cfg : ServerSetting) (stopping : Bool) (s : ServerLoop) : ServerLoop :=
  let polls := s.polls + 1
  if s.closing = true ∨ stopping = true ∨ cfg.maxMessages ≤ s.handled then
    { s with polls, control := .finished }
  else
    match s.decoder.nextFrame with
    | (decoder, .error e) => { s with polls, decoder, control := .failed e }
    | (decoder, .ok none) => { s with polls, decoder, control := .reading }
    | (decoder, .ok (some frame)) => answer cfg { s with polls, decoder } frame

/-- `ssl_read_some` and what follows it. -/
def onRead (result : ReadResult) (s : ServerLoop) : ServerLoop :=
  match result with
  | .data chunk =>
    let s := { s with io := s.io.recordReceived chunk.bytes }
    match s.decoder.feed chunk.bytes with
    | (decoder, .error e) => { s with decoder, control := .failed e }
    | (decoder, .ok ()) => { s with decoder, control := .head }
  | .failed .zeroReturn => { s with control := .finished }
  | .failed failure => { s with control := .failed (throwSslError (ascii "SSL_read") failure) }

/-- One round of `ssl_write_all`, and what follows its last one. -/
def onWrite (rest : Bytes) (result : WriteResult) (s : ServerLoop) : ServerLoop :=
  if rest.isEmpty then
    { s with protocolMessageCount := s.protocolMessageCount + 1, control := .head }
  else
    match result with
    | .accepted extra =>
      { s with
        io := s.io.recordSent (rest.take (acceptedBytes extra rest))
        control := .writing (rest.drop (acceptedBytes extra rest)) }
    | .failed failure => { s with control := .failed (throwSslError (ascii "SSL_write") failure) }

/-- One step of the loop. -/
def step (cfg : ServerSetting) (input : ServerInput) (s : ServerLoop) : ServerLoop :=
  match s.control with
  | .head => s.atHead cfg input.stopping
  | .reading => s.onRead input.read
  | .writing rest => s.onWrite rest input.write
  | .finished => s
  | .failed _ => s

/-- The loop has been left. -/
def Halted (s : ServerLoop) : Prop :=
  match s.control with
  | .finished => True
  | .failed _ => True
  | _ => False

instance : DecidablePred Halted := fun s =>
  match h : s.control with
  | .finished => .isTrue (by simp [Halted, h])
  | .failed _ => .isTrue (by simp [Halted, h])
  | .head => .isFalse (by simp [Halted, h])
  | .reading => .isFalse (by simp [Halted, h])
  | .writing _ => .isFalse (by simp [Halted, h])

/-- The state after a frame has been taken, and before its outcome takes effect. -/
def taken (cfg : ServerSetting) (s : ServerLoop) (decoder : Framing.Decoder) (frame : Bytes) :
    ServerLoop :=
  { s with
    decoder := decoder
    polls := s.polls + 1
    protocolMessageCount := s.protocolMessageCount + 1
    history := s.history ++
      [Handled.mk frame (handleFrame cfg.ctx (cfg.labels s.handled) frame)] }

/-- Everything a step of a running loop can do, with the decoder seen through its unread
remainder. -/
inductive Move (cfg : ServerSetting) (input : ServerInput) (s : ServerLoop) :
    ServerLoop → Prop where
  | leave (hcontrol : s.control = .head)
      (hexit : s.closing = true ∨ input.stopping = true ∨ cfg.maxMessages ≤ s.handled) :
      Move cfg input s { s with polls := s.polls + 1, control := .finished }
  | illegal (e : Thrown) (hcontrol : s.control = .head) (hopen : s.closing = false)
      (hlimit : s.handled < cfg.maxMessages)
      (hfront : Framing.front s.decoder.maxFrameSize s.decoder.remainder = .illegal e) :
      Move cfg input s { s with polls := s.polls + 1, control := .failed e }
  | starve (hcontrol : s.control = .head) (hopen : s.closing = false)
      (hlimit : s.handled < cfg.maxMessages)
      (hfront : Framing.front s.decoder.maxFrameSize s.decoder.remainder = .incomplete) :
      Move cfg input s { s with polls := s.polls + 1, control := .reading }
  | reply (decoder : Framing.Decoder) (frame : Bytes) (message : Message) (payload wire : Bytes)
      (closing : Bool) (hcontrol : s.control = .head) (hopen : s.closing = false)
      (hgo : input.stopping = false) (hlimit : s.handled < cfg.maxMessages)
      (hfront : Framing.front s.decoder.maxFrameSize s.decoder.remainder =
        .complete frame decoder.remainder)
      (hmax : decoder.maxFrameSize = s.decoder.maxFrameSize)
      (houtcome : handleFrame cfg.ctx (cfg.labels s.handled) frame =
        .reply message payload wire closing) :
      Move cfg input s
        { s.taken cfg decoder frame with closing := closing, control := .writing wire }
  | close (decoder : Framing.Decoder) (frame : Bytes)
      (hcontrol : s.control = .head) (hopen : s.closing = false)
      (hgo : input.stopping = false) (hlimit : s.handled < cfg.maxMessages)
      (hfront : Framing.front s.decoder.maxFrameSize s.decoder.remainder =
        .complete frame decoder.remainder)
      (hmax : decoder.maxFrameSize = s.decoder.maxFrameSize)
      (houtcome : handleFrame cfg.ctx (cfg.labels s.handled) frame = .close) :
      Move cfg input s { s.taken cfg decoder frame with closing := true, control := .head }
  | thrown (decoder : Framing.Decoder) (frame : Bytes) (e : Thrown)
      (hcontrol : s.control = .head) (hopen : s.closing = false)
      (hgo : input.stopping = false) (hlimit : s.handled < cfg.maxMessages)
      (hfront : Framing.front s.decoder.maxFrameSize s.decoder.remainder =
        .complete frame decoder.remainder)
      (hmax : decoder.maxFrameSize = s.decoder.maxFrameSize)
      (houtcome : handleFrame cfg.ctx (cfg.labels s.handled) frame = .thrown e) :
      Move cfg input s { s.taken cfg decoder frame with control := .failed e }
  | data (chunk : Chunk) (decoder : Framing.Decoder) (hcontrol : s.control = .reading)
      (hread : input.read = .data chunk)
      (hremainder : decoder.remainder = s.decoder.remainder ++ chunk.bytes)
      (hmax : decoder.maxFrameSize = s.decoder.maxFrameSize)
      (hlegal : ∀ e, Framing.front decoder.maxFrameSize decoder.remainder ≠ .illegal e) :
      Move cfg input s
        { s with io := s.io.recordReceived chunk.bytes, decoder := decoder, control := .head }
  | illegalData (chunk : Chunk) (decoder : Framing.Decoder) (e : Thrown)
      (hcontrol : s.control = .reading) (hread : input.read = .data chunk)
      (hremainder : decoder.remainder = s.decoder.remainder ++ chunk.bytes)
      (hmax : decoder.maxFrameSize = s.decoder.maxFrameSize)
      (hfront : Framing.front decoder.maxFrameSize decoder.remainder = .illegal e) :
      Move cfg input s
        { s with io := s.io.recordReceived chunk.bytes, decoder := decoder, control := .failed e }
  | endOfStream (hcontrol : s.control = .reading) (hread : input.read = .failed .zeroReturn) :
      Move cfg input s { s with control := .finished }
  | readFailed (failure : SslFailure) (hcontrol : s.control = .reading)
      (hread : input.read = .failed failure) (hfailure : failure ≠ .zeroReturn) :
      Move cfg input s { s with control := .failed (throwSslError (ascii "SSL_read") failure) }
  | written (hcontrol : s.control = .writing []) :
      Move cfg input s
        { s with protocolMessageCount := s.protocolMessageCount + 1, control := .head }
  | accepted (rest : Bytes) (extra : ℕ) (hcontrol : s.control = .writing rest) (hrest : rest ≠ [])
      (hwrite : input.write = .accepted extra) :
      Move cfg input s
        { s with
          io := s.io.recordSent (rest.take (acceptedBytes extra rest))
          control := .writing (rest.drop (acceptedBytes extra rest)) }
  | writeFailed (rest : Bytes) (failure : SslFailure) (hcontrol : s.control = .writing rest)
      (hrest : rest ≠ []) (hwrite : input.write = .failed failure) :
      Move cfg input s { s with control := .failed (throwSslError (ascii "SSL_write") failure) }

/-- A step from the head of the loop is a move. -/
theorem move_atHead (cfg : ServerSetting) (input : ServerInput) {s : ServerLoop}
    (hcontrol : s.control = .head) : Move cfg input s (s.atHead cfg input.stopping) := by
  unfold atHead
  by_cases hexit : s.closing = true ∨ input.stopping = true ∨ cfg.maxMessages ≤ s.handled
  · rw [if_pos hexit]
    exact .leave hcontrol hexit
  · rw [if_neg hexit]
    simp only [not_or, Bool.not_eq_true, not_le] at hexit
    obtain ⟨hopen, hgo, hlimit⟩ := hexit
    have hspec := s.decoder.nextFrame_spec
    cases hfront : Framing.front s.decoder.maxFrameSize s.decoder.remainder with
    | incomplete =>
      simp only [hfront] at hspec
      simp only [hspec]
      exact .starve hcontrol hopen hlimit hfront
    | illegal e =>
      simp only [hfront] at hspec
      simp only [hspec]
      exact .illegal e hcontrol hopen hlimit hfront
    | complete frame rest =>
      simp only [hfront] at hspec
      obtain ⟨decoder, hnext, rfl, hmax⟩ := hspec
      simp only [hnext, answer, handled]
      cases houtcome : handleFrame cfg.ctx (cfg.labels s.history.length) frame with
      | reply message payload wire closing =>
        have hmove := Move.reply decoder frame message payload wire closing hcontrol hopen hgo
          hlimit hfront hmax houtcome
        simpa [taken, handled, houtcome, hopen] using hmove
      | close =>
        have hmove := Move.close decoder frame hcontrol hopen hgo hlimit hfront hmax houtcome
        simpa [taken, handled, houtcome] using hmove
      | thrown e =>
        have hmove := Move.thrown decoder frame e hcontrol hopen hgo hlimit hfront hmax houtcome
        simpa [taken, handled, houtcome] using hmove

/-- A step from a read is a move. -/
theorem move_onRead (cfg : ServerSetting) (input : ServerInput) {s : ServerLoop}
    (hcontrol : s.control = .reading) : Move cfg input s (s.onRead input.read) := by
  cases hread : input.read with
  | failed failure =>
    cases failure with
    | zeroReturn => exact .endOfStream hcontrol hread
    | _ => exact .readFailed _ hcontrol hread (by simp)
  | data chunk =>
    obtain ⟨decoder, hremainder, hmax, hcall⟩ := s.decoder.feed_cases chunk.bytes
    simp only [onRead]
    rcases hcall with ⟨e, hfront, hfeed⟩ | ⟨hlegal, hfeed⟩
    · simp only [hfeed]
      exact .illegalData chunk decoder e hcontrol hread hremainder hmax hfront
    · simp only [hfeed]
      exact .data chunk decoder hcontrol hread hremainder hmax hlegal

/-- A step from a write is a move. -/
theorem move_onWrite (cfg : ServerSetting) (input : ServerInput) {s : ServerLoop} {rest : Bytes}
    (hcontrol : s.control = .writing rest) :
    Move cfg input s (s.onWrite rest input.write) := by
  unfold onWrite
  split
  · rename_i hempty
    rw [List.isEmpty_iff] at hempty
    subst hempty
    exact .written hcontrol
  · rename_i hrest
    have hne : rest ≠ [] := by simpa using hrest
    cases hwrite : input.write with
    | accepted extra => exact .accepted rest extra hcontrol hne hwrite
    | failed failure => exact .writeFailed rest failure hcontrol hne hwrite

/-- Every step of a running loop is one of the moves. -/
theorem step_move (cfg : ServerSetting) (input : ServerInput) {s : ServerLoop}
    (hs : ¬ s.Halted) : Move cfg input s (s.step cfg input) := by
  unfold step
  cases hcontrol : s.control with
  | head => exact move_atHead cfg input hcontrol
  | reading => exact move_onRead cfg input hcontrol
  | writing rest => exact move_onWrite cfg input hcontrol
  | finished => simp [Halted, hcontrol] at hs
  | failed e => simp [Halted, hcontrol] at hs

/-- A loop that has been left does not move. -/
theorem step_of_halted (cfg : ServerSetting) (input : ServerInput) {s : ServerLoop}
    (hs : s.Halted) : s.step cfg input = s := by
  unfold step
  cases hcontrol : s.control with
  | finished => rfl
  | failed e => rfl
  | _ => simp [Halted, hcontrol] at hs

end ServerLoop

end PqtlsLab
