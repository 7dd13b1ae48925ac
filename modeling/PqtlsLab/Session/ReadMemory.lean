import PqtlsLab.Client.ExchangeRuns
import PqtlsLab.Protocol.DecoderMemory
import PqtlsLab.Server.LoopRuns

/-!
# The memory of a connection

The application loop of the server and the exchange of the client use their decoder as the read loop
does: they read into it only after it has asked for more. So both keep the decoder within two frames
and a chunk in every state of every run, whatever the peer sends.
-/

namespace PqtlsLab

/-- The loop waits for bytes that its decoder has asked for. -/
def ServerControl.isReading : ServerControl → Bool
  | .reading => true
  | _ => false

/-- The exchange waits for bytes that its decoder has asked for. -/
def ClientControl.isReading : ClientControl → Bool
  | .reading => true
  | _ => false

/-- The decoder of the server keeps to its memory. -/
def ServerLoop.MemoryBounded (s : ServerLoop) : Prop :=
  s.decoder.MemoryBounded kReadChunk s.control.isReading

/-- The decoder of the client keeps to its memory. -/
def Exchange.MemoryBounded (x : Exchange) : Prop :=
  x.decoder.MemoryBounded kReadChunk x.control.isReading

/-- What is known of a decoder holds also if it is not known that it has asked for more. -/
theorem Framing.Decoder.MemoryBounded.weaken {chunkSize : ℕ} {d : Framing.Decoder} {starved : Bool}
    (h : d.MemoryBounded chunkSize starved) : d.MemoryBounded chunkSize false where
  buffered := h.buffered
  unread hfalse := by cases hfalse

namespace ServerLoop

variable {cfg : ServerSetting} {s : ServerLoop}

/-- Answering a frame does not touch the decoder and is not followed by a read. -/
theorem answer_memoryBounded (hs : s.decoder.MemoryBounded kReadChunk false) (frame : Bytes) :
    (answer cfg s frame).MemoryBounded := by
  unfold answer MemoryBounded
  cases handleFrame cfg.ctx (cfg.labels s.handled) frame with
  | reply message payload wire closing => exact hs
  | close => exact hs
  | thrown e => exact hs

/-- At the head of the loop the decoder is asked for a frame. -/
theorem atHead_memoryBounded (hs : s.MemoryBounded) (stopping : Bool) :
    (s.atHead cfg stopping).MemoryBounded := by
  have hdecoder : s.decoder.MemoryBounded kReadChunk s.control.isReading := hs
  unfold atHead
  split
  · exact hdecoder.weaken
  · rcases hcall : s.decoder.nextFrame with ⟨decoder, _ | _ | frame⟩
    · exact hdecoder.nextFrame hcall (by simp [ServerControl.isReading])
    · exact hdecoder.nextFrame hcall (fun _ => rfl)
    · exact answer_memoryBounded (hdecoder.nextFrame hcall (by simp)) frame

/-- A chunk is read after the decoder has asked for more. -/
theorem onRead_memoryBounded (hs : s.decoder.MemoryBounded kReadChunk true)
    (result : ReadResult) : (s.onRead result).MemoryBounded := by
  cases result with
  | data chunk =>
    unfold onRead
    rcases hcall : s.decoder.feed chunk.bytes with ⟨decoder, _ | _⟩
    · simp only [hcall]
      exact hs.feed chunk.length_le hcall
    · simp only [hcall]
      exact hs.feed chunk.length_le hcall
  | failed failure => cases failure <;> exact hs.weaken

/-- A step of the loop keeps the decoder within its memory. -/
theorem step_memoryBounded (hs : s.MemoryBounded) (input : ServerInput) :
    (s.step cfg input).MemoryBounded := by
  unfold step
  cases hcontrol : s.control with
  | head => exact atHead_memoryBounded hs input.stopping
  | reading =>
    rw [MemoryBounded, hcontrol] at hs
    exact onRead_memoryBounded hs input.read
  | writing rest =>
    have hweak := Framing.Decoder.MemoryBounded.weaken hs
    simp only [onWrite]
    split
    · exact hweak
    · cases input.write <;> exact hweak
  | finished => exact hs
  | failed e => exact hs

end ServerLoop

/-- In every state of every run of the server's application loop the buffer of the decoder holds at
most two frames and a chunk. -/
theorem server_memory_bounded (env : ServerEnv) (n : ℕ) :
    (env.state n).decoder.bufferedBytes ≤
      2 * (env.state n).decoder.maxFrameSize + kReadChunk + 7 := by
  have hstart : (ServerLoop.start env.setting).MemoryBounded :=
    Framing.Decoder.memoryBounded_fresh _ env.setting.ctx.maxFrameSize_bounds kReadChunk false
  have hbounded : (env.state n).MemoryBounded :=
    env.program.iterate_invariant (fun s _ hs => s.step_memoryBounded hs _) hstart n
  exact hbounded.buffered

namespace Exchange

variable {cfg : ClientSetting} {x : Exchange}

/-- While it waits for a response, the client asks the decoder for a frame. -/
theorem atAwait_memoryBounded (hx : x.MemoryBounded) : (x.atAwait cfg).MemoryBounded := by
  have hdecoder : x.decoder.MemoryBounded kReadChunk x.control.isReading := hx
  unfold atAwait
  rcases hcall : x.decoder.nextFrame with ⟨decoder, _ | _ | text⟩
  · exact hdecoder.nextFrame hcall (by simp [ClientControl.isReading])
  · exact hdecoder.nextFrame hcall (fun _ => rfl)
  · simp only
    cases Message.parse cfg.lib (cfg.labels x.responses.length) text with
    | error e => exact hdecoder.nextFrame hcall (by simp [ClientControl.isReading])
    | ok response => exact hdecoder.nextFrame hcall (by simp [ClientControl.isReading])

/-- A chunk is read after the decoder has asked for more. -/
theorem onRead_memoryBounded (hx : x.decoder.MemoryBounded kReadChunk true)
    (result : ReadResult) : (x.onRead result).MemoryBounded := by
  cases result with
  | data chunk =>
    unfold onRead
    rcases hcall : x.decoder.feed chunk.bytes with ⟨decoder, _ | _⟩
    · simp only [hcall]
      exact hx.feed chunk.length_le hcall
    · simp only [hcall]
      exact hx.feed chunk.length_le hcall
  | failed failure => cases failure <;> exact hx.weaken

/-- A step of the exchange keeps the decoder within its memory. -/
theorem step_memoryBounded (hx : x.MemoryBounded) (input : ClientInput) :
    (x.step cfg input).MemoryBounded := by
  have hweak := Framing.Decoder.MemoryBounded.weaken hx
  unfold step
  cases hcontrol : x.control with
  | head =>
    simp only [atHead]
    split
    · exact hweak
    · split
      · exact hweak
      · split
        · exact hweak
        · exact hweak
  | writing rest =>
    simp only [onWrite]
    split
    · split
      · exact hweak
      · exact hweak
    · cases input.write <;> exact hweak
  | awaiting => exact atAwait_memoryBounded hx
  | reading =>
    rw [MemoryBounded, hcontrol] at hx
    exact onRead_memoryBounded hx input.read
  | finished => exact hx
  | failed e => exact hx

end Exchange

/-- In every state of every run of the client's exchange the buffer of the decoder holds at most two
frames and a chunk. -/
theorem client_memory_bounded (env : ClientEnv) (n : ℕ) :
    (env.state n).decoder.bufferedBytes ≤
      2 * (env.state n).decoder.maxFrameSize + kReadChunk + 7 := by
  have hstart : (Exchange.start env.setting).MemoryBounded :=
    Framing.Decoder.memoryBounded_fresh _ env.setting.maxFrameSize_bounds kReadChunk false
  have hbounded : (env.state n).MemoryBounded :=
    env.program.iterate_invariant (fun x _ hx => x.step_memoryBounded hx _) hstart n
  exact hbounded.buffered

end PqtlsLab
