import Mathlib.Data.Int.Notation
import Mathlib.Data.List.Basic
import Mathlib.Tactic.Common

/-!
# Byte strings

The C++ sources hold text in `std::string`, a sequence of bytes without an
encoding. Every text of the model is therefore a list of bytes; a literal is
entered through `ascii` and a number through the decimal renderings that
`std::to_string` produces.
-/

namespace PqtlsLab

/-- A byte string: the contents of a `std::string` or of a byte buffer. -/
abbrev Bytes := List UInt8

/-- Whether a byte string is one of several can be decided. -/
instance decidableMemBytes (text : Bytes) (texts : List Bytes) : Decidable (text ∈ texts) :=
  List.instDecidableMemOfLawfulBEq text texts

/-- The bytes of a text literal, one for each character as long as all of them are ASCII. -/
def ascii (text : String) : Bytes := text.toByteArray.data.toList

/-- The decimal rendering of a natural number. -/
def decimal (n : ℕ) : Bytes := (Nat.toDigits 10 n).map fun c => UInt8.ofNat c.toNat

/-- The decimal rendering of an integer, with a leading minus sign if negative. -/
def decimalInt (i : ℤ) : Bytes :=
  if i < 0 then 0x2D :: decimal i.natAbs else decimal i.natAbs

/-- An entry of a list that has grown by one is an old entry or the new one. -/
theorem getElem?_concat_eq_some {α : Type*} {l : List α} {a b : α} {i : ℕ}
    (h : (l ++ [a])[i]? = some b) : l[i]? = some b ∨ i = l.length ∧ b = a := by
  rcases Nat.lt_trichotomy i l.length with hlt | rfl | hgt
  · rw [List.getElem?_append_left hlt] at h
    exact .inl h
  · rw [List.getElem?_concat_length, Option.some.injEq] at h
    exact .inr ⟨rfl, h.symm⟩
  · have hlength : (l ++ [a]).length ≤ i := by
      rw [List.length_append, List.length_singleton]
      omega
    rw [List.getElem?_eq_none hlength] at h
    cases h

/-- A property of all bytes can be checked one by one. -/
theorem forall_byte {P : UInt8 → Prop} (h : ∀ n : Fin 256, P (UInt8.ofNat n)) (b : UInt8) :
    P b := by
  have hb := h ⟨b.toNat, b.toNat_lt⟩
  rwa [UInt8.ofNat_toNat] at hb

/-- A decimal rendering is never empty. -/
theorem decimal_ne_nil (n : ℕ) : decimal n ≠ [] := by
  simp [decimal, Nat.toDigits_ne_nil]

/-- The codes of the decimal digits. -/
theorem toNat_bounds_of_isDigit {c : Char} (hc : c.isDigit = true) :
    48 ≤ c.toNat ∧ c.toNat ≤ 57 := by
  simpa [Char.isDigit, UInt32.le_iff_toNat_le] using hc

/-- The code of a decimal digit fits into a byte. -/
theorem toNat_digit_byte {c : Char} (hc : c.isDigit = true) :
    (UInt8.ofNat c.toNat).toNat = c.toNat := by
  have hbounds := toNat_bounds_of_isDigit hc
  rw [UInt8.toNat_ofNat']
  omega

/-- The character of a decimal digit, as a byte, lies between `'0'` and `'9'`. -/
theorem digit_byte_bounds {c : Char} (hc : c.isDigit = true) :
    0x30 ≤ UInt8.ofNat c.toNat ∧ UInt8.ofNat c.toNat ≤ 0x39 := by
  have hbounds := toNat_bounds_of_isDigit hc
  have hval := toNat_digit_byte hc
  constructor
  · rw [UInt8.le_iff_toNat_le, hval]
    exact hbounds.1
  · rw [UInt8.le_iff_toNat_le, hval]
    exact hbounds.2

/-- Every byte of a decimal rendering is the code of a decimal digit. -/
theorem mem_decimal_bounds {n : ℕ} {b : UInt8} (hb : b ∈ decimal n) : 0x30 ≤ b ∧ b ≤ 0x39 := by
  obtain ⟨c, hc, rfl⟩ := List.mem_map.mp hb
  exact digit_byte_bounds (Nat.isDigit_of_mem_toDigits (by decide) (by decide) hc)

/-- The digits can be read back from the bytes. -/
theorem map_ofNat_decimal (n : ℕ) :
    (decimal n).map (fun b => Char.ofNat b.toNat) = Nat.toDigits 10 n := by
  have hid : ∀ c ∈ Nat.toDigits 10 n, Char.ofNat (UInt8.ofNat c.toNat).toNat = c := by
    intro c hc
    have hdigit := Nat.isDigit_of_mem_toDigits (by decide) (by decide) hc
    rw [toNat_digit_byte hdigit, Char.ofNat_toNat]
  rw [decimal, List.map_map]
  exact (List.map_congr_left hid).trans (List.map_id _)

/-- A number is determined by its decimal rendering. -/
theorem decimal_injective : Function.Injective decimal := by
  intro m n h
  have hdigits : Nat.toDigits 10 m = Nat.toDigits 10 n := by
    rw [← map_ofNat_decimal m, ← map_ofNat_decimal n, h]
  have hvalue := congrArg (fun digits => Nat.ofDigitChars 10 digits 0) hdigits
  simpa only [Nat.ofDigitChars_ten_toDigits] using hvalue

/-- Every byte of the rendering of an integer is a minus sign or the code of a decimal digit. -/
theorem mem_decimalInt_bounds {i : ℤ} {b : UInt8} (hb : b ∈ decimalInt i) :
    b = 0x2D ∨ 0x30 ≤ b ∧ b ≤ 0x39 := by
  unfold decimalInt at hb
  split at hb
  · rcases List.mem_cons.mp hb with rfl | hb
    · exact .inl rfl
    · exact .inr (mem_decimal_bounds hb)
  · exact .inr (mem_decimal_bounds hb)

/-- No minus sign begins the rendering of a natural number. -/
theorem cons_ne_decimal (s : Bytes) (n : ℕ) : 0x2D :: s ≠ decimal n := by
  intro h
  have hbounds : (0x30 : UInt8) ≤ 0x2D ∧ (0x2D : UInt8) ≤ 0x39 :=
    mem_decimal_bounds (h ▸ List.mem_cons_self)
  exact absurd hbounds.1 (by decide)

/-- An integer is determined by its decimal rendering. -/
theorem decimalInt_injective : Function.Injective decimalInt := by
  intro i j h
  unfold decimalInt at h
  split at h <;> split at h
  · have habs := decimal_injective (List.cons.inj h).2
    omega
  · exact absurd h (cons_ne_decimal _ _)
  · exact absurd h.symm (cons_ne_decimal _ _)
  · have habs := decimal_injective h
    omega

end PqtlsLab
