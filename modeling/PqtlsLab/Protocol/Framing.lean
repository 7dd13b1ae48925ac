import PqtlsLab.Error
import PqtlsLab.Foundation.PrefixCode
import Mathlib.Data.Nat.Bitwise

/-!
# Length-prefixed frames

The wire format of the application protocol: a payload is preceded by its length,
written as four bytes in network order. `encode` and `decodeLength` are the two
halves of the format and `Decoder` reassembles frames from a byte stream. The
decoder keeps an offset into a buffer from which frames already handed out are
only now and then removed; that the offset stays inside the buffer is part of
its type.
-/

namespace PqtlsLab.Framing

/-- `kHeaderSize`. -/
def kHeaderSize : ℕ := 4

/-- `kDefaultMaxFrameSize`, 1 MiB. -/
def kDefaultMaxFrameSize : ℕ := 1024 * 1024

/-- `kAbsoluteMaxFrameSize`, 64 MiB. -/
def kAbsoluteMaxFrameSize : ℕ := 64 * 1024 * 1024

theorem kDefaultMaxFrameSize_bounds :
    1 ≤ kDefaultMaxFrameSize ∧ kDefaultMaxFrameSize ≤ kAbsoluteMaxFrameSize := by
  decide

/-- The four bytes of a length, most significant first. -/
def lengthPrefix (length : ℕ) : Bytes :=
  [UInt8.ofNat ((length >>> 24) &&& 0xFF), UInt8.ofNat ((length >>> 16) &&& 0xFF),
    UInt8.ofNat ((length >>> 8) &&& 0xFF), UInt8.ofNat (length &&& 0xFF)]

/-- `framing::encode`. -/
def encode (payload : Bytes) (maxFrameSize : ℕ) : Except Thrown Bytes :=
  if maxFrameSize > kAbsoluteMaxFrameSize then
    .error (protocolError (ascii "configured maximum frame size exceeds the absolute ceiling of " ++
      decimal kAbsoluteMaxFrameSize ++ ascii " bytes"))
  else if payload.isEmpty then
    .error (protocolError (ascii "refusing to encode a zero-length frame"))
  else if payload.length > maxFrameSize then
    .error (protocolError (ascii "payload of " ++ decimal payload.length ++
      ascii " bytes exceeds the maximum frame size of " ++ decimal maxFrameSize ++
      ascii " bytes"))
  else
    .ok (lengthPrefix payload.length ++ payload)

/-- The number that four bytes in network order denote. -/
def bigEndian (b₀ b₁ b₂ b₃ : UInt8) : ℕ :=
  (b₀.toNat <<< 24) ||| (b₁.toNat <<< 16) ||| (b₂.toNat <<< 8) ||| b₃.toNat

/-- `framing::decode_length`. -/
def decodeLength (header : Bytes) (maxFrameSize : ℕ) : Except Thrown ℕ :=
  match header with
  | [b₀, b₁, b₂, b₃] =>
    let length := bigEndian b₀ b₁ b₂ b₃
    if length = 0 then
      .error (protocolError (ascii "frame announces a zero-length payload, which is never valid"))
    else if length > maxFrameSize then
      .error (protocolError (ascii "frame announces " ++ decimal length ++
        ascii " bytes, exceeding the maximum frame size of " ++ decimal maxFrameSize ++
        ascii " bytes"))
    else
      .ok length
  | _ =>
    .error (protocolError (ascii "frame header must be exactly " ++ decimal kHeaderSize ++
      ascii " bytes, got " ++ decimal header.length))

/-- `framing::Decoder`: the bytes received and the number of them that belong to
frames already handed out. -/
structure Decoder where
  /-- `max_frame_size_`. -/
  maxFrameSize : ℕ
  /-- `buffer_`. -/
  buffer : Bytes
  /-- `consumed_`. -/
  consumed : ℕ
  /-- The bounds the constructor enforces. -/
  maxFrameSize_bounds : 1 ≤ maxFrameSize ∧ maxFrameSize ≤ kAbsoluteMaxFrameSize
  /-- The offset never passes the end of the buffer. -/
  consumed_le : consumed ≤ buffer.length

namespace Decoder

/-- A decoder that has seen nothing yet. -/
def fresh (maxFrameSize : ℕ) (h : 1 ≤ maxFrameSize ∧ maxFrameSize ≤ kAbsoluteMaxFrameSize) :
    Decoder :=
  ⟨maxFrameSize, [], 0, h, Nat.zero_le _⟩

/-- A decoder with the default limit. -/
def standard : Decoder := fresh kDefaultMaxFrameSize kDefaultMaxFrameSize_bounds

/-- `Decoder::Decoder`. -/
def create (maxFrameSize : ℕ) : Except Thrown Decoder :=
  if h : 1 ≤ maxFrameSize ∧ maxFrameSize ≤ kAbsoluteMaxFrameSize then
    .ok (fresh maxFrameSize h)
  else
    .error (protocolError (ascii "invalid maximum frame size " ++ decimal maxFrameSize ++
      ascii "; must be in [1, " ++ decimal kAbsoluteMaxFrameSize ++ ascii "]"))

/-- A decoder that has been constructed keeps its limit. -/
theorem maxFrameSize_of_create {maxFrameSize : ℕ} {d : Decoder}
    (h : create maxFrameSize = .ok d) : d.maxFrameSize = maxFrameSize := by
  unfold create at h
  split at h
  · cases h
    rfl
  · cases h

/-- The bytes received and not yet handed out. -/
def remainder (d : Decoder) : Bytes := d.buffer.drop d.consumed

/-- The first half of `Decoder::feed`: space taken by frames already handed out is
given back once the buffer holds nothing else, or once it exceeds a whole frame. -/
def reclaim (d : Decoder) : Decoder :=
  if d.consumed > 0 ∧ d.consumed = d.buffer.length then
    { d with buffer := [], consumed := 0, consumed_le := Nat.zero_le _ }
  else if d.consumed > kHeaderSize + d.maxFrameSize then
    { d with buffer := d.buffer.drop d.consumed, consumed := 0, consumed_le := Nat.zero_le _ }
  else d

/-- The insertion in `Decoder::feed`. -/
def append (d : Decoder) (data : Bytes) : Decoder :=
  { d with
    buffer := d.buffer ++ data
    consumed_le := by
      have := d.consumed_le
      simp only [List.length_append]
      omega }

/-- `Decoder::feed`. The bytes are in the buffer even when the header check throws. -/
def feed (d : Decoder) (data : Bytes) : Decoder × Except Thrown Unit :=
  let d := d.reclaim.append data
  if d.buffer.length - d.consumed ≥ kHeaderSize then
    match decodeLength (d.remainder.take kHeaderSize) d.maxFrameSize with
    | .error e => (d, .error e)
    | .ok _ => (d, .ok ())
  else (d, .ok ())

/-- The bookkeeping at the end of `Decoder::next_frame`: the offset moves past a
frame, and a buffer that holds nothing else is cleared. -/
def consume (d : Decoder) (count : ℕ) (h : count ≤ d.buffer.length - d.consumed) : Decoder :=
  if d.consumed + count = d.buffer.length then
    { d with buffer := [], consumed := 0, consumed_le := Nat.zero_le _ }
  else
    { d with
      consumed := d.consumed + count
      consumed_le := by
        have := d.consumed_le
        omega }

/-- `Decoder::next_frame`. -/
def nextFrame (d : Decoder) : Decoder × Except Thrown (Option Bytes) :=
  let available := d.buffer.length - d.consumed
  if available < kHeaderSize then (d, .ok none)
  else
    match decodeLength (d.remainder.take kHeaderSize) d.maxFrameSize with
    | .error e => (d, .error e)
    | .ok length =>
      if h : available < kHeaderSize + length then (d, .ok none)
      else
        (d.consume (kHeaderSize + length) (Nat.le_of_not_lt h),
          .ok (some ((d.remainder.drop kHeaderSize).take length)))

/-- `Decoder::reset`. -/
def reset (d : Decoder) : Decoder :=
  { d with buffer := [], consumed := 0, consumed_le := Nat.zero_le _ }

end Decoder

end PqtlsLab.Framing
