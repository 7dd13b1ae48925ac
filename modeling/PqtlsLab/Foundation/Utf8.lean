import PqtlsLab.Foundation.Bytes

/-!
# Recognising UTF-8 byte by byte

A decoder that reads one byte at a time has to remember how many continuation
bytes the current character still owes and which values the next one may take.
The bounds on the second byte exclude overlong forms, surrogates and code points
above U+10FFFF. A text is valid when the last byte leaves nothing owed.
-/

namespace PqtlsLab.Utf8

/-- What the rest of the current character has to look like. -/
structure Expect where
  /-- The number of continuation bytes still owed. -/
  owed : ℕ
  /-- The least value of the next byte. -/
  low : UInt8
  /-- The greatest value of the next byte. -/
  high : UInt8
  deriving DecidableEq, Repr

/-- Nothing is owed: the next byte starts a character. -/
def Expect.idle : Expect := ⟨0, 0x80, 0xBF⟩

/-- What a byte in leading position announces; `none` for a byte that cannot lead. -/
def lead (b : UInt8) : Option Expect :=
  if b < 0x80 then some Expect.idle
  else if 0xC2 ≤ b ∧ b ≤ 0xDF then some ⟨1, 0x80, 0xBF⟩
  else if b = 0xE0 then some ⟨2, 0xA0, 0xBF⟩
  else if b = 0xED then some ⟨2, 0x80, 0x9F⟩
  else if 0xE1 ≤ b ∧ b ≤ 0xEF then some ⟨2, 0x80, 0xBF⟩
  else if b = 0xF0 then some ⟨3, 0x90, 0xBF⟩
  else if b = 0xF4 then some ⟨3, 0x80, 0x8F⟩
  else if 0xF1 ≤ b ∧ b ≤ 0xF3 then some ⟨3, 0x80, 0xBF⟩
  else none

/-- One byte; `none` when no text can continue with it. -/
def next (e : Expect) (b : UInt8) : Option Expect :=
  match e.owed with
  | 0 => lead b
  | owed + 1 => if e.low ≤ b ∧ b ≤ e.high then some ⟨owed, 0x80, 0xBF⟩ else none

/-- The whole text is read and the last character is complete. -/
def valid (text : Bytes) : Bool :=
  match text.foldlM next Expect.idle with
  | some e => e = Expect.idle
  | none => false

/-- A text is valid exactly when reading it leads back to the idle state. -/
theorem valid_iff (text : Bytes) :
    valid text = true ↔ text.foldlM next Expect.idle = some Expect.idle := by
  unfold valid
  cases text.foldlM next Expect.idle <;> simp

/-- The empty text is valid. -/
@[simp] theorem valid_nil : valid [] = true := rfl

/-- After a valid text the decoder is where it started. -/
theorem valid_append_of_valid {left : Bytes} (hleft : valid left = true) (right : Bytes) :
    valid (left ++ right) = valid right := by
  rw [valid_iff] at hleft
  simp [valid, List.foldlM_append, hleft]

/-- Valid texts can be concatenated. -/
theorem valid_append {left right : Bytes} (hleft : valid left = true)
    (hright : valid right = true) : valid (left ++ right) = true := by
  rw [valid_append_of_valid hleft, hright]

/-- A text of bytes below `0x80` is valid. -/
theorem valid_of_ascii {text : Bytes} (h : ∀ b ∈ text, b < 0x80) : valid text = true := by
  induction text with
  | nil => rfl
  | cons b text ih =>
    have hb : valid [b] = true := by
      have hlead : lead b = some Expect.idle := by simp [lead, h b (by simp)]
      simp [valid, next, Expect.idle, hlead]
    have happend := valid_append_of_valid hb text
    rw [List.singleton_append] at happend
    rw [happend]
    exact ih fun c hc => h c (by simp [hc])

/-- Decimal renderings are valid. -/
theorem valid_decimal (n : ℕ) : valid (decimal n) = true := by
  apply valid_of_ascii
  intro b hb
  exact UInt8.lt_of_le_of_lt (mem_decimal_bounds hb).2 (by decide)

end PqtlsLab.Utf8
