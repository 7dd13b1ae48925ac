import PqtlsLab.Foundation.Machine
import PqtlsLab.Protocol.DecoderRuns

/-!
# The memory of a decoder

Client and server feed a decoder only when it has just asked for more, one chunk at a time. The
unread bytes are then fewer than a frame, and `feed` gives the bytes before them back unless they
are at most a frame as well. So the buffer never exceeds two frames and a chunk, on any byte stream
and for any number of frames.
-/

namespace PqtlsLab.Framing

/-- The owner of a decoder between two calls. -/
structure ReadLoop where
  decoder : Decoder
  /-- The last call was `nextFrame`, and it asked for more. -/
  starved : Bool
  /-- A call threw, and the loop was left. -/
  left : Bool

namespace ReadLoop

/-- One call of the read loop: bytes are fed only after the decoder has asked for more, and not more
than a chunk of them. -/
def step (chunkSize : ℕ) (s : ReadLoop) : Call → Option ReadLoop
  | .nextFrame =>
    if s.left then none
    else
      match s.decoder.nextFrame with
      | (decoder, .ok none) => some ⟨decoder, true, false⟩
      | (decoder, .ok (some _)) => some ⟨decoder, false, false⟩
      | (decoder, .error _) => some ⟨decoder, false, true⟩
  | .feed data =>
    if s.left ∨ s.starved = false ∨ chunkSize < data.length then none
    else
      match s.decoder.feed data with
      | (decoder, .ok ()) => some ⟨decoder, false, false⟩
      | (decoder, .error _) => some ⟨decoder, false, true⟩

end ReadLoop

/-- The read loop of client and server, as a machine that makes calls on a decoder. -/
def readLoop (maxFrameSize : ℕ) (hmax : 1 ≤ maxFrameSize ∧ maxFrameSize ≤ kAbsoluteMaxFrameSize)
    (chunkSize : ℕ) : Machine ReadLoop Call where
  start := ⟨Decoder.fresh maxFrameSize hmax, false, false⟩
  step := ReadLoop.step chunkSize

namespace Decoder

/-- `buffered_bytes`. -/
def bufferedBytes (d : Decoder) : ℕ := d.buffer.length

/-- The decoder keeps to its memory: two frames and a chunk, and while it asks for more, less than
one frame is unread. -/
structure MemoryBounded (chunkSize : ℕ) (d : Decoder) (starved : Bool) : Prop where
  buffered : d.bufferedBytes ≤ 2 * d.maxFrameSize + chunkSize + 7
  unread : starved = true → d.remainder.length ≤ d.maxFrameSize + 3

variable {chunkSize : ℕ} {d : Decoder} {starved : Bool}

/-- A fresh decoder holds nothing. -/
theorem memoryBounded_fresh (maxFrameSize : ℕ)
    (hmax : 1 ≤ maxFrameSize ∧ maxFrameSize ≤ kAbsoluteMaxFrameSize) (chunkSize : ℕ)
    (starved : Bool) : (fresh maxFrameSize hmax).MemoryBounded chunkSize starved := by
  constructor
  · exact Nat.zero_le _
  · intro _
    exact Nat.zero_le _

/-- Moving the offset does not make the buffer longer. -/
theorem bufferedBytes_consume_le (d : Decoder) (count : ℕ)
    (h : count ≤ d.buffer.length - d.consumed) :
    (d.consume count h).bufferedBytes ≤ d.bufferedBytes := by
  unfold consume bufferedBytes
  split
  · exact Nat.zero_le _
  · exact le_rfl

/-- `nextFrame` does not make the buffer longer. -/
theorem bufferedBytes_nextFrame_le (d : Decoder) :
    d.nextFrame.1.bufferedBytes ≤ d.bufferedBytes := by
  simp only [nextFrame]
  split
  · exact le_rfl
  · split
    · exact le_rfl
    · split
      · exact le_rfl
      · rename_i hbody
        exact bufferedBytes_consume_le d _ (Nat.le_of_not_lt hbody)

/-- After `nextFrame` the decoder keeps to its memory; if it asks for more, then less than one frame
is unread. -/
theorem MemoryBounded.nextFrame {starved' : Bool} {d' : Decoder}
    {result : Except Thrown (Option Bytes)} (h : d.MemoryBounded chunkSize starved)
    (hcall : d.nextFrame = (d', result)) (hstarved : starved' = true → result = .ok none) :
    d'.MemoryBounded chunkSize starved' := by
  obtain rfl : d.nextFrame.1 = d' := by rw [hcall]
  obtain rfl : d.nextFrame.2 = result := by rw [hcall]
  have hmax : d.nextFrame.1.maxFrameSize = d.maxFrameSize := by
    have hspec := d.nextFrame_spec
    cases hfront : front d.maxFrameSize d.remainder with
    | incomplete =>
      rw [hfront] at hspec
      rw [hspec]
    | illegal e =>
      rw [hfront] at hspec
      rw [hspec]
    | complete payload rest =>
      rw [hfront] at hspec
      obtain ⟨d', hd', -, hmax⟩ := hspec
      rw [hd', hmax]
  constructor
  · have hle := d.bufferedBytes_nextFrame_le
    have hbuffered := h.buffered
    omega
  · intro htrue
    have hincomplete := (d.nextFrame_iff.2.1).mp (hstarved htrue)
    have hfront := front_eq_incomplete_iff.mpr hincomplete
    have hspec := d.nextFrame_spec
    rw [hfront] at hspec
    have hlength := length_of_front_incomplete hfront
    have hheader : kHeaderSize = 4 := rfl
    rw [hspec]
    show d.remainder.length ≤ d.maxFrameSize + 3
    omega

/-- What is kept before new bytes are added: the unread bytes alone, or at most a frame before
them. -/
theorem bufferedBytes_reclaim_le (d : Decoder) :
    d.reclaim.bufferedBytes ≤ d.remainder.length + (d.maxFrameSize + 4) := by
  have hlength := d.length_remainder
  have hconsumed := d.consumed_le
  have hheader : kHeaderSize = 4 := rfl
  unfold reclaim bufferedBytes
  split
  · exact Nat.zero_le _
  · split
    · have hdrop : (d.buffer.drop d.consumed).length = d.remainder.length := rfl
      simp only [hdrop]
      omega
    · omega

/-- A decoder that has asked for more keeps to its memory when it is fed a chunk. -/
theorem MemoryBounded.feed (h : d.MemoryBounded chunkSize true) {data : Bytes}
    (hdata : data.length ≤ chunkSize) {d' : Decoder} {result : Except Thrown Unit}
    (hcall : d.feed data = (d', result)) : d'.MemoryBounded chunkSize false := by
  obtain rfl : (d.feed data).1 = d' := by rw [hcall]
  obtain ⟨-, hmax, -⟩ := d.feed_spec data
  have hdecoder : (d.feed data).1 = d.reclaim.append data := by
    unfold Decoder.feed
    simp only
    split
    · split <;> rfl
    · rfl
  constructor
  · have hkept := d.bufferedBytes_reclaim_le
    have hunread := h.unread rfl
    have hbuffered : (d.feed data).1.bufferedBytes = d.reclaim.bufferedBytes + data.length := by
      rw [hdecoder]
      exact List.length_append
    omega
  · intro hfalse
    cases hfalse

end Decoder

/-- One call of the read loop keeps the decoder within its memory. -/
theorem ReadLoop.step_memoryBounded {chunkSize : ℕ} {s t : ReadLoop} {c : Call}
    (hs : s.decoder.MemoryBounded chunkSize s.starved) (hstep : s.step chunkSize c = some t) :
    t.decoder.MemoryBounded chunkSize t.starved ∧
      t.decoder.maxFrameSize = s.decoder.maxFrameSize := by
  have hmax := (s.decoder.call_stream c).1
  cases c with
  | nextFrame =>
    simp only [ReadLoop.step] at hstep
    simp only [Decoder.call] at hmax
    split at hstep
    · cases hstep
    · rcases hcall : s.decoder.nextFrame with ⟨d, _ | _ | payload⟩
      · rw [hcall] at hstep hmax
        cases hstep
        exact ⟨hs.nextFrame hcall (by simp), hmax⟩
      · rw [hcall] at hstep hmax
        cases hstep
        exact ⟨hs.nextFrame hcall (by simp), hmax⟩
      · rw [hcall] at hstep hmax
        cases hstep
        exact ⟨hs.nextFrame hcall (by simp), hmax⟩
  | feed data =>
    simp only [ReadLoop.step] at hstep
    simp only [Decoder.call] at hmax
    split at hstep
    · cases hstep
    · rename_i hguard
      simp only [not_or, not_lt, Bool.not_eq_false] at hguard
      obtain ⟨-, hstarved, hdata⟩ := hguard
      rw [hstarved] at hs
      rcases hcall : s.decoder.feed data with ⟨d, _ | _⟩
      · rw [hcall] at hstep hmax
        cases hstep
        exact ⟨hs.feed hdata hcall, hmax⟩
      · rw [hcall] at hstep hmax
        cases hstep
        exact ⟨hs.feed hdata hcall, hmax⟩

/-- For every limit, every chunk size and every run of the read loop, on any bytes, the buffer never
exceeds two frames and a chunk; and whenever the decoder asks for more, less than one frame is
unread. -/
theorem decoder_memory_bounded (maxFrameSize : ℕ)
    (hmax : 1 ≤ maxFrameSize ∧ maxFrameSize ≤ kAbsoluteMaxFrameSize) (chunkSize : ℕ)
    (calls : List Call) (s : ReadLoop)
    (hrun : (readLoop maxFrameSize hmax chunkSize).run calls = some s) :
    s.decoder.bufferedBytes ≤ 2 * maxFrameSize + chunkSize + 7 ∧
      (s.starved = true → s.decoder.remainder.length ≤ maxFrameSize + 3) := by
  have hinvariant : s.decoder.MemoryBounded chunkSize s.starved ∧
      s.decoder.maxFrameSize = maxFrameSize := by
    refine Machine.run_induction (readLoop maxFrameSize hmax chunkSize)
      (I := fun _ s => s.decoder.MemoryBounded chunkSize s.starved ∧
        s.decoder.maxFrameSize = maxFrameSize) ?_ ?_ hrun
    · exact ⟨Decoder.memoryBounded_fresh maxFrameSize hmax chunkSize false, rfl⟩
    · rintro _ s c t _ ⟨hbounded, hsize⟩ hstep
      obtain ⟨hbounded', hsize'⟩ := ReadLoop.step_memoryBounded hbounded hstep
      exact ⟨hbounded', hsize'.trans hsize⟩
  obtain ⟨hbounded, hsize⟩ := hinvariant
  rw [← hsize]
  exact ⟨hbounded.buffered, hbounded.unread⟩

/-- A frame in two chunks, with the beginning of another one in the second. -/
theorem decoder_memory_bounded_two_chunks :
    ∃ s, (readLoop 16 (by decide) 8).run
        [.nextFrame, .feed [0, 0, 0, 2, 7], .nextFrame, .feed [8, 0, 0], .nextFrame, .nextFrame] =
          some s ∧
      s.decoder.bufferedBytes ≤ 47 ∧ s.decoder.remainder.length ≤ 19 := by
  obtain ⟨s, hrun, hstarved⟩ := Machine.exists_of_run_any (readLoop 16 (by decide) 8)
    [.nextFrame, .feed [0, 0, 0, 2, 7], .nextFrame, .feed [8, 0, 0], .nextFrame, .nextFrame]
    (fun s => s.starved = true) (by decide)
  obtain ⟨hbuffered, hunread⟩ := decoder_memory_bounded 16 (by decide) 8 _ s hrun
  exact ⟨s, hrun, hbuffered, hunread hstarved⟩

end PqtlsLab.Framing
