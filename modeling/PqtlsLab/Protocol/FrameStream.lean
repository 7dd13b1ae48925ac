import PqtlsLab.Protocol.Framing

/-!
# Byte streams as sequences of frames

The frame format read off the byte stream alone: a stream begins with a complete
legal frame, with an illegal header, or with something that more bytes may turn
into either. `front` computes which. The operations of the decoder are determined
by the front of its unread remainder, so everything else about the buffer, the
offset and the moments at which space is reclaimed is invisible from outside.
-/

namespace PqtlsLab.Framing

/-- A payload with its length in front, as it appears on the wire. -/
def frame (payload : Bytes) : Bytes := lengthPrefix payload.length ++ payload

/-- The payloads a frame may carry under a given maximum. -/
def Legal (maxFrameSize : ℕ) (payload : Bytes) : Prop :=
  1 ≤ payload.length ∧ payload.length ≤ maxFrameSize

/-- The stream begins with a legal header and its complete body. -/
def StartsWithFrame (maxFrameSize : ℕ) (stream payload : Bytes) : Prop :=
  Legal maxFrameSize payload ∧ frame payload <+: stream

/-- The stream begins with a header that announces no byte or too many. -/
def StartsIllegal (maxFrameSize : ℕ) (stream : Bytes) : Prop :=
  ∃ b₀ b₁ b₂ b₃, [b₀, b₁, b₂, b₃] <+: stream ∧
    (bigEndian b₀ b₁ b₂ b₃ = 0 ∨ maxFrameSize < bigEndian b₀ b₁ b₂ b₃)

/-- The stream is shorter than a header, or its header is legal and its body has not
arrived completely. -/
def Incomplete (maxFrameSize : ℕ) (stream : Bytes) : Prop :=
  stream.length < kHeaderSize ∨ ∃ b₀ b₁ b₂ b₃ body, stream = [b₀, b₁, b₂, b₃] ++ body ∧
    1 ≤ bigEndian b₀ b₁ b₂ b₃ ∧ bigEndian b₀ b₁ b₂ b₃ ≤ maxFrameSize ∧
    body.length < bigEndian b₀ b₁ b₂ b₃

/-- What a stream begins with. -/
inductive Front where
  | incomplete
  | illegal (e : Thrown)
  | complete (payload rest : Bytes)

/-- The front of a stream. -/
def front (maxFrameSize : ℕ) (stream : Bytes) : Front :=
  if stream.length < kHeaderSize then .incomplete
  else
    match decodeLength (stream.take kHeaderSize) maxFrameSize with
    | .error e => .illegal e
    | .ok length =>
      if stream.length < kHeaderSize + length then .incomplete
      else .complete ((stream.drop kHeaderSize).take length) (stream.drop (kHeaderSize + length))

/-- A length prefix occupies a header. -/
@[simp] theorem length_lengthPrefix (n : ℕ) : (lengthPrefix n).length = kHeaderSize := rfl

/-- Four bytes denote the number whose base-256 digits they are. -/
theorem bigEndian_eq (b₀ b₁ b₂ b₃ : UInt8) :
    bigEndian b₀ b₁ b₂ b₃ =
      b₀.toNat * 2 ^ 24 + b₁.toNat * 2 ^ 16 + b₂.toNat * 2 ^ 8 + b₃.toNat := by
  have h₁ := b₁.toNat_lt
  have h₂ := b₂.toNat_lt
  have h₃ := b₃.toNat_lt
  have hlow : b₂.toNat <<< 8 ||| b₃.toNat = b₂.toNat * 2 ^ 8 + b₃.toNat := by
    rw [← Nat.shiftLeft_add_eq_or_of_lt (by omega), Nat.shiftLeft_eq]
  have hmid : b₁.toNat <<< 16 ||| (b₂.toNat * 2 ^ 8 + b₃.toNat) =
      b₁.toNat * 2 ^ 16 + (b₂.toNat * 2 ^ 8 + b₃.toNat) := by
    rw [← Nat.shiftLeft_add_eq_or_of_lt (by omega), Nat.shiftLeft_eq]
  unfold bigEndian
  rw [Nat.or_assoc, hlow, Nat.or_assoc, hmid, ← Nat.shiftLeft_add_eq_or_of_lt (by omega),
    Nat.shiftLeft_eq]
  omega

/-- The prefix of a 32-bit length denotes that length. -/
theorem bigEndian_lengthPrefix {n : ℕ} (hn : n < 2 ^ 32) :
    bigEndian (UInt8.ofNat ((n >>> 24) &&& 0xFF)) (UInt8.ofNat ((n >>> 16) &&& 0xFF))
      (UInt8.ofNat ((n >>> 8) &&& 0xFF)) (UInt8.ofNat (n &&& 0xFF)) = n := by
  have hmask (m : ℕ) : (UInt8.ofNat (m &&& 0xFF)).toNat = m % 256 := by
    rw [show (0xFF : ℕ) = 2 ^ 8 - 1 by rfl, Nat.and_two_pow_sub_one_eq_mod]
    simp
  rw [bigEndian_eq, hmask, hmask, hmask, hmask]
  simp only [Nat.shiftRight_eq_div_pow]
  omega

/-- Every four bytes are the prefix of the number they denote. -/
theorem lengthPrefix_bigEndian (b₀ b₁ b₂ b₃ : UInt8) :
    lengthPrefix (bigEndian b₀ b₁ b₂ b₃) = [b₀, b₁, b₂, b₃] := by
  have h₀ := b₀.toNat_lt
  have h₁ := b₁.toNat_lt
  have h₂ := b₂.toNat_lt
  have h₃ := b₃.toNat_lt
  have hbyte {m : ℕ} {b : UInt8} (h : m % 256 = b.toNat) : UInt8.ofNat (m &&& 0xFF) = b := by
    apply UInt8.toNat_inj.mp
    rw [show (0xFF : ℕ) = 2 ^ 8 - 1 by rfl, Nat.and_two_pow_sub_one_eq_mod]
    simpa using h
  unfold lengthPrefix
  rw [bigEndian_eq]
  simp only [Nat.shiftRight_eq_div_pow, List.cons.injEq, and_true]
  refine ⟨hbyte ?_, hbyte ?_, hbyte ?_, hbyte ?_⟩ <;> omega

/-- A stream that is long enough begins with four bytes. -/
theorem exists_header {stream : Bytes} (h : ¬ stream.length < kHeaderSize) :
    ∃ b₀ b₁ b₂ b₃ body, stream = [b₀, b₁, b₂, b₃] ++ body := by
  match stream, h with
  | b₀ :: b₁ :: b₂ :: b₃ :: body, _ => exact ⟨b₀, b₁, b₂, b₃, body, rfl⟩
  | [], h => simp [kHeaderSize] at h
  | [_], h => simp [kHeaderSize] at h
  | [_, _], h => simp [kHeaderSize] at h
  | [_, _, _], h => simp [kHeaderSize] at h

/-- The length check accepts exactly the numbers from one to the maximum. -/
theorem decodeLength_cons (b₀ b₁ b₂ b₃ : UInt8) (maxFrameSize : ℕ) :
    (∃ e, decodeLength [b₀, b₁, b₂, b₃] maxFrameSize = .error e ∧
      (bigEndian b₀ b₁ b₂ b₃ = 0 ∨ maxFrameSize < bigEndian b₀ b₁ b₂ b₃)) ∨
    (decodeLength [b₀, b₁, b₂, b₃] maxFrameSize = .ok (bigEndian b₀ b₁ b₂ b₃) ∧
      1 ≤ bigEndian b₀ b₁ b₂ b₃ ∧ bigEndian b₀ b₁ b₂ b₃ ≤ maxFrameSize) := by
  simp only [decodeLength]
  split
  · exact .inl ⟨_, rfl, .inl ‹_›⟩
  · split
    · exact .inl ⟨_, rfl, .inr ‹_›⟩
    · exact .inr ⟨rfl, by omega, by omega⟩

/-- A length check that fails throws a `ProtocolError`. -/
theorem decodeLength_error {header : Bytes} {maxFrameSize : ℕ} {e : Thrown}
    (h : decodeLength header maxFrameSize = .error e) : ∃ message, e = protocolError message := by
  unfold decodeLength at h
  split at h
  · simp only at h
    split at h
    · cases h
      exact ⟨_, rfl⟩
    · split at h
      · cases h
        exact ⟨_, rfl⟩
      · cases h
  · cases h
    exact ⟨_, rfl⟩

/-- A stream beginning with four given bytes, by the number they denote. -/
theorem front_cons (maxFrameSize : ℕ) (b₀ b₁ b₂ b₃ : UInt8) (body : Bytes) :
    front maxFrameSize ([b₀, b₁, b₂, b₃] ++ body) =
      match decodeLength [b₀, b₁, b₂, b₃] maxFrameSize with
      | .error e => .illegal e
      | .ok length =>
        if body.length < length then .incomplete
        else .complete (body.take length) (body.drop length) := by
  have hlength : ¬ ([b₀, b₁, b₂, b₃] ++ body).length < kHeaderSize := by simp [kHeaderSize]
  unfold front
  rw [if_neg hlength]
  simp only [kHeaderSize, List.cons_append, List.nil_append, List.take_succ_cons, List.take_zero,
    List.drop_succ_cons, List.drop_zero, List.length_cons]
  cases decodeLength [b₀, b₁, b₂, b₃] maxFrameSize with
  | error e => rfl
  | ok length =>
    have hdrop : (b₀ :: b₁ :: b₂ :: b₃ :: body).drop (4 + length) = body.drop length := by
      rw [Nat.add_comm]
      rfl
    have hiff : body.length + 1 + 1 + 1 + 1 < 4 + length ↔ body.length < length := by omega
    simp only [hdrop, hiff]

/-- A stream without a complete header is incomplete. -/
theorem front_of_short {maxFrameSize : ℕ} {stream : Bytes} (h : stream.length < kHeaderSize) :
    front maxFrameSize stream = .incomplete := by
  rw [front, if_pos h]

/-- The front of a stream with a complete header, by the number that the header denotes. -/
theorem front_header_cases (maxFrameSize : ℕ) (b₀ b₁ b₂ b₃ : UInt8) (body : Bytes) :
    (∃ e, front maxFrameSize ([b₀, b₁, b₂, b₃] ++ body) = .illegal e ∧
      (bigEndian b₀ b₁ b₂ b₃ = 0 ∨ maxFrameSize < bigEndian b₀ b₁ b₂ b₃)) ∨
    1 ≤ bigEndian b₀ b₁ b₂ b₃ ∧ bigEndian b₀ b₁ b₂ b₃ ≤ maxFrameSize ∧
      (body.length < bigEndian b₀ b₁ b₂ b₃ ∧
          front maxFrameSize ([b₀, b₁, b₂, b₃] ++ body) = .incomplete ∨
        bigEndian b₀ b₁ b₂ b₃ ≤ body.length ∧
          front maxFrameSize ([b₀, b₁, b₂, b₃] ++ body) =
            .complete (body.take (bigEndian b₀ b₁ b₂ b₃))
              (body.drop (bigEndian b₀ b₁ b₂ b₃))) := by
  rw [front_cons]
  rcases decodeLength_cons b₀ b₁ b₂ b₃ maxFrameSize with ⟨e, he, hbad⟩ | ⟨hok, hpos, hle⟩
  · exact .inl ⟨e, by rw [he], hbad⟩
  · rw [hok]
    refine .inr ⟨hpos, hle, ?_⟩
    by_cases hbody : body.length < bigEndian b₀ b₁ b₂ b₃
    · exact .inl ⟨hbody, if_pos hbody⟩
    · exact .inr ⟨Nat.le_of_not_lt hbody, if_neg hbody⟩

/-- The front of a stream is a complete frame exactly when a legal frame and the
rest make up the stream. -/
theorem front_eq_complete_iff {maxFrameSize : ℕ} (hmax : maxFrameSize ≤ kAbsoluteMaxFrameSize)
    {stream payload rest : Bytes} :
    front maxFrameSize stream = .complete payload rest ↔
      Legal maxFrameSize payload ∧ stream = frame payload ++ rest := by
  have habs : kAbsoluteMaxFrameSize < 2 ^ 32 := by decide
  constructor
  · intro h
    by_cases hshort : stream.length < kHeaderSize
    · cases (front_of_short hshort).symm.trans h
    · obtain ⟨b₀, b₁, b₂, b₃, body, rfl⟩ := exists_header hshort
      rcases front_header_cases maxFrameSize b₀ b₁ b₂ b₃ body with
        ⟨e, hfront, -⟩ | ⟨hpos, hle, ⟨-, hfront⟩ | ⟨hbody, hfront⟩⟩
      · cases hfront.symm.trans h
      · cases hfront.symm.trans h
      · obtain ⟨rfl, rfl⟩ := Front.complete.inj (hfront.symm.trans h)
        have hlen : (body.take (bigEndian b₀ b₁ b₂ b₃)).length = bigEndian b₀ b₁ b₂ b₃ :=
          List.length_take_of_le hbody
        refine ⟨⟨by omega, by omega⟩, ?_⟩
        rw [frame, hlen, lengthPrefix_bigEndian, List.append_assoc, List.take_append_drop]
  · rintro ⟨⟨hpos, hle⟩, rfl⟩
    have hdecode := bigEndian_lengthPrefix (n := payload.length) (by omega)
    rw [frame, lengthPrefix, List.append_assoc]
    rcases front_header_cases maxFrameSize _ _ _ _ (payload ++ rest) with
      ⟨e, -, hbad⟩ | ⟨-, -, ⟨hbody, -⟩ | ⟨-, hfront⟩⟩
    · rw [hdecode] at hbad
      omega
    · rw [hdecode, List.length_append] at hbody
      omega
    · rw [hfront, hdecode, List.take_left, List.drop_left]

/-- The front of a stream is illegal exactly when its header is. -/
theorem front_eq_illegal_iff {maxFrameSize : ℕ} {stream : Bytes} :
    (∃ e, front maxFrameSize stream = .illegal e) ↔ StartsIllegal maxFrameSize stream := by
  constructor
  · rintro ⟨e, h⟩
    by_cases hshort : stream.length < kHeaderSize
    · cases (front_of_short hshort).symm.trans h
    · obtain ⟨b₀, b₁, b₂, b₃, body, rfl⟩ := exists_header hshort
      rcases front_header_cases maxFrameSize b₀ b₁ b₂ b₃ body with
        ⟨e', -, hbad⟩ | ⟨-, -, ⟨-, hfront⟩ | ⟨-, hfront⟩⟩
      · exact ⟨b₀, b₁, b₂, b₃, List.prefix_append _ _, hbad⟩
      · cases hfront.symm.trans h
      · cases hfront.symm.trans h
  · rintro ⟨b₀, b₁, b₂, b₃, ⟨body, rfl⟩, hbad⟩
    rcases front_header_cases maxFrameSize b₀ b₁ b₂ b₃ body with ⟨e, hfront, -⟩ | ⟨hpos, hle, -⟩
    · exact ⟨e, hfront⟩
    · omega

/-- The front of a stream is incomplete exactly when more bytes are needed. -/
theorem front_eq_incomplete_iff {maxFrameSize : ℕ} {stream : Bytes} :
    front maxFrameSize stream = .incomplete ↔ Incomplete maxFrameSize stream := by
  constructor
  · intro h
    by_cases hshort : stream.length < kHeaderSize
    · exact .inl hshort
    · obtain ⟨b₀, b₁, b₂, b₃, body, rfl⟩ := exists_header hshort
      rcases front_header_cases maxFrameSize b₀ b₁ b₂ b₃ body with
        ⟨e, hfront, -⟩ | ⟨hpos, hle, ⟨hbody, -⟩ | ⟨-, hfront⟩⟩
      · cases hfront.symm.trans h
      · exact .inr ⟨b₀, b₁, b₂, b₃, body, rfl, hpos, hle, hbody⟩
      · cases hfront.symm.trans h
  · rintro (hshort | ⟨b₀, b₁, b₂, b₃, body, rfl, hpos, hle, hbody⟩)
    · exact front_of_short hshort
    · rcases front_header_cases maxFrameSize b₀ b₁ b₂ b₃ body with
        ⟨e, -, hbad⟩ | ⟨-, -, ⟨-, hfront⟩ | ⟨hlong, -⟩⟩
      · omega
      · exact hfront
      · omega

/-- An illegal front throws a `ProtocolError`. -/
theorem front_illegal_error {maxFrameSize : ℕ} {stream : Bytes} {e : Thrown}
    (h : front maxFrameSize stream = .illegal e) : ∃ message, e = protocolError message := by
  unfold front at h
  split at h
  · cases h
  · split at h
    · rename_i hdecode
      cases h
      exact decodeLength_error hdecode
    · split at h <;> cases h

/-- Bytes that arrive later do not repair an illegal header. -/
theorem front_append_of_illegal {maxFrameSize : ℕ} {stream : Bytes} {e : Thrown}
    (h : front maxFrameSize stream = .illegal e) (more : Bytes) :
    front maxFrameSize (stream ++ more) = .illegal e := by
  by_cases hshort : stream.length < kHeaderSize
  · simp [front, hshort] at h
  · obtain ⟨b₀, b₁, b₂, b₃, body, rfl⟩ := exists_header hshort
    rw [List.append_assoc]
    rw [front_cons] at h ⊢
    rcases decodeLength_cons b₀ b₁ b₂ b₃ maxFrameSize with ⟨e', he, _⟩ | ⟨hok, -, -⟩
    · simpa only [he] using h
    · simp only [hok] at h
      split at h <;> cases h

/-- Bytes that arrive later come after a complete frame. -/
theorem front_append_of_complete {maxFrameSize : ℕ} (hmax : maxFrameSize ≤ kAbsoluteMaxFrameSize)
    {stream payload rest : Bytes} (h : front maxFrameSize stream = .complete payload rest)
    (more : Bytes) : front maxFrameSize (stream ++ more) = .complete payload (rest ++ more) := by
  rw [front_eq_complete_iff hmax] at h ⊢
  exact ⟨h.1, by rw [h.2, List.append_assoc]⟩

/-- A stream whose front is incomplete is shorter than the longest frame. -/
theorem length_of_front_incomplete {maxFrameSize : ℕ} {stream : Bytes}
    (h : front maxFrameSize stream = .incomplete) :
    stream.length < kHeaderSize + maxFrameSize := by
  rw [front_eq_incomplete_iff] at h
  rcases h with h | ⟨b₀, b₁, b₂, b₃, body, rfl, -, hle, hbody⟩
  · omega
  · simp only [List.length_append, List.length_cons, List.length_nil, kHeaderSize]
    omega

/-- Frames are self-delimiting. -/
theorem frame_prefixCode {maxFrameSize : ℕ} (hmax : maxFrameSize < 2 ^ 32) :
    PrefixCode frame (Legal maxFrameSize) where
  nonempty := by
    intro payload _ hnil
    have hlen := congrArg List.length hnil
    simp [frame, kHeaderSize] at hlen
  split := by
    rintro a b r s ⟨-, ha⟩ ⟨-, hb⟩ h
    simp only [frame, List.append_assoc] at h
    obtain ⟨hheader, htail⟩ := List.append_inj h rfl
    have hlength : a.length = b.length := by
      have hda := bigEndian_lengthPrefix (n := a.length) (by omega)
      have hdb := bigEndian_lengthPrefix (n := b.length) (by omega)
      simp only [lengthPrefix, List.cons.injEq, and_true] at hheader
      obtain ⟨h₀, h₁, h₂, h₃⟩ := hheader
      rw [← hda, ← hdb, h₀, h₁, h₂, h₃]
    exact List.append_inj htail hlength

/-- The encoder produces the frame of every legal payload, and nothing else. -/
theorem encode_eq_ok_iff {payload out : Bytes} {maxFrameSize : ℕ}
    (hmax : maxFrameSize ≤ kAbsoluteMaxFrameSize) :
    encode payload maxFrameSize = .ok out ↔ Legal maxFrameSize payload ∧ out = frame payload := by
  unfold encode Legal
  rw [if_neg (by omega)]
  cases payload with
  | nil => simp
  | cons b payload =>
    rw [if_neg (by simp)]
    split
    · rename_i hlong
      simp only [reduceCtorEq, false_iff, not_and]
      intro hle
      omega
    · rename_i hshort
      constructor
      · intro h
        cases h
        exact ⟨⟨by simp, by omega⟩, rfl⟩
      · rintro ⟨-, rfl⟩
        rfl

namespace Decoder

/-- Reclaiming space leaves the unread remainder as it is. -/
@[simp] theorem reclaim_remainder (d : Decoder) : d.reclaim.remainder = d.remainder := by
  unfold reclaim remainder
  split
  · rename_i h
    simp [h.2]
  · split <;> simp

/-- Reclaiming space does not change the limit. -/
@[simp] theorem reclaim_maxFrameSize (d : Decoder) :
    d.reclaim.maxFrameSize = d.maxFrameSize := by
  unfold reclaim
  split
  · rfl
  · split <;> rfl

/-- Bytes are appended to the unread remainder. -/
@[simp] theorem append_remainder (d : Decoder) (data : Bytes) :
    (d.append data).remainder = d.remainder ++ data := by
  simp [append, remainder, List.drop_append_of_le_length d.consumed_le]

/-- Appending does not change the limit. -/
@[simp] theorem append_maxFrameSize (d : Decoder) (data : Bytes) :
    (d.append data).maxFrameSize = d.maxFrameSize := rfl

/-- The number of unread bytes. -/
theorem length_remainder (d : Decoder) : d.remainder.length = d.buffer.length - d.consumed := by
  simp [remainder]

/-- Handing out a frame drops it from the unread remainder. -/
@[simp] theorem consume_remainder (d : Decoder) (count : ℕ)
    (h : count ≤ d.buffer.length - d.consumed) :
    (d.consume count h).remainder = d.remainder.drop count := by
  unfold consume remainder
  split
  · rename_i hall
    simp [hall]
  · simp

/-- Handing out a frame does not change the limit. -/
@[simp] theorem consume_maxFrameSize (d : Decoder) (count : ℕ)
    (h : count ≤ d.buffer.length - d.consumed) :
    (d.consume count h).maxFrameSize = d.maxFrameSize := by
  unfold consume
  split <;> rfl

/-- A fresh decoder has nothing to hand out. -/
@[simp] theorem fresh_remainder (maxFrameSize : ℕ)
    (h : 1 ≤ maxFrameSize ∧ maxFrameSize ≤ kAbsoluteMaxFrameSize) :
    (fresh maxFrameSize h).remainder = [] := rfl

/-- What `feed` does, in terms of the stream. -/
theorem feed_spec (d : Decoder) (data : Bytes) :
    (d.feed data).1.remainder = d.remainder ++ data ∧
    (d.feed data).1.maxFrameSize = d.maxFrameSize ∧
    (d.feed data).2 = match front d.maxFrameSize (d.remainder ++ data) with
      | .illegal e => .error e
      | _ => .ok () := by
  have hrem : (d.reclaim.append data).remainder = d.remainder ++ data := by simp
  have hmax : (d.reclaim.append data).maxFrameSize = d.maxFrameSize := by simp
  have hlen := length_remainder (d.reclaim.append data)
  rw [hrem] at hlen
  unfold feed front
  simp only [hrem, hmax, ← hlen, ge_iff_le]
  by_cases hshort : (d.remainder ++ data).length < kHeaderSize
  · rw [if_neg (Nat.not_le_of_lt hshort), if_pos hshort]
    exact ⟨hrem, hmax, rfl⟩
  · rw [if_pos (Nat.le_of_not_lt hshort), if_neg hshort]
    cases decodeLength ((d.remainder ++ data).take kHeaderSize) d.maxFrameSize with
    | error e => exact ⟨hrem, hmax, rfl⟩
    | ok length =>
      refine ⟨hrem, hmax, ?_⟩
      by_cases hbody : (d.remainder ++ data).length < kHeaderSize + length
      · simp only [if_pos hbody]
      · simp only [if_neg hbody]

/-- `feed` throws exactly if the stream then starts with an illegal frame, and adds the bytes in
either case. -/
theorem feed_cases (d : Decoder) (data : Bytes) :
    ∃ d', d'.remainder = d.remainder ++ data ∧ d'.maxFrameSize = d.maxFrameSize ∧
      ((∃ e, front d'.maxFrameSize d'.remainder = .illegal e ∧ d.feed data = (d', .error e)) ∨
        (∀ e, front d'.maxFrameSize d'.remainder ≠ .illegal e) ∧ d.feed data = (d', .ok ())) := by
  obtain ⟨hremainder, hmax, hresult⟩ := d.feed_spec data
  rw [← hremainder, ← hmax] at hresult
  refine ⟨(d.feed data).1, hremainder, hmax, ?_⟩
  cases hfront : front (d.feed data).1.maxFrameSize (d.feed data).1.remainder with
  | illegal e =>
    rw [hfront] at hresult
    exact .inl ⟨e, rfl, Prod.ext rfl hresult⟩
  | incomplete =>
    rw [hfront] at hresult
    exact .inr ⟨fun _ => by simp, Prod.ext rfl hresult⟩
  | complete payload rest =>
    rw [hfront] at hresult
    exact .inr ⟨fun _ => by simp, Prod.ext rfl hresult⟩

/-- What `nextFrame` does, in terms of the stream. -/
theorem nextFrame_spec (d : Decoder) :
    match front d.maxFrameSize d.remainder with
    | .incomplete => d.nextFrame = (d, .ok none)
    | .illegal e => d.nextFrame = (d, .error e)
    | .complete payload rest => ∃ d', d.nextFrame = (d', .ok (some payload)) ∧
        d'.remainder = rest ∧ d'.maxFrameSize = d.maxFrameSize := by
  have hlen := length_remainder d
  unfold nextFrame front
  simp only [← hlen]
  by_cases hshort : d.remainder.length < kHeaderSize
  · simp [hshort]
  · simp only [hshort, if_false]
    cases decodeLength (d.remainder.take kHeaderSize) d.maxFrameSize with
    | error e => simp
    | ok length =>
      by_cases hbody : d.remainder.length < kHeaderSize + length
      · simp [hbody]
      · simp only [hbody, if_false, dite_false]
        exact ⟨_, rfl, by simp, by simp⟩

end Decoder

end PqtlsLab.Framing
