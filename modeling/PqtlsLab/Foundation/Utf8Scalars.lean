import PqtlsLab.Foundation.PrefixCode
import PqtlsLab.Foundation.Utf8

/-!
# UTF-8 texts as sequences of scalar values

A character of Lean is a Unicode scalar value, and `String.utf8EncodeChar` is its shortest
encoding. The decoder that reads byte by byte accepts exactly the concatenations of such
encodings, and a text determines the scalar values that it encodes.
-/

namespace PqtlsLab.Utf8

/-- The bytes of a sequence of scalar values. -/
def encode (scalars : List Char) : Bytes := scalars.flatMap String.utf8EncodeChar

/-- A continuation byte. -/
def IsTail (b : UInt8) : Prop := 0x80 ≤ b.toNat ∧ b.toNat ≤ 0xBF

/-- The number `v` is written with the given bytes. The bounds on the second byte exclude longer
encodings of smaller numbers, surrogates and numbers above U+10FFFF. -/
inductive Form (v : ℕ) : Bytes → Prop where
  /-- One byte. -/
  | one {b : UInt8} (value : v = b.toNat) (lead : b.toNat < 0x80) : Form v [b]
  /-- Two bytes. -/
  | two {b c : UInt8} (value : v = (b.toNat - 0xC0) * 64 + (c.toNat - 0x80))
      (lead : 0xC2 ≤ b.toNat ∧ b.toNat ≤ 0xDF) (second : IsTail c) : Form v [b, c]
  /-- Three bytes. -/
  | three {b c d : UInt8}
      (value : v = (b.toNat - 0xE0) * 4096 + (c.toNat - 0x80) * 64 + (d.toNat - 0x80))
      (lead : 0xE0 ≤ b.toNat ∧ b.toNat ≤ 0xEF) (second : IsTail c)
      (low : b.toNat = 0xE0 → 0xA0 ≤ c.toNat) (high : b.toNat = 0xED → c.toNat ≤ 0x9F)
      (third : IsTail d) : Form v [b, c, d]
  /-- Four bytes. -/
  | four {b c d e : UInt8}
      (value : v = (b.toNat - 0xF0) * 262144 + (c.toNat - 0x80) * 4096 +
        (d.toNat - 0x80) * 64 + (e.toNat - 0x80))
      (lead : 0xF0 ≤ b.toNat ∧ b.toNat ≤ 0xF4) (second : IsTail c)
      (low : b.toNat = 0xF0 → 0x90 ≤ c.toNat) (high : b.toNat = 0xF4 → c.toNat ≤ 0x8F)
      (third : IsTail d) (fourth : IsTail e) : Form v [b, c, d, e]

/-- A byte is determined by its number. -/
theorem ofNat_eq {n : ℕ} {b : UInt8} (h : n = b.toNat) : UInt8.ofNat n = b := by
  rw [h, UInt8.ofNat_toNat]

/-- The number of a byte that is given by a number below 256. -/
theorem toNat_ofNat {n : ℕ} (h : n < 256) : (UInt8.ofNat n).toNat = n := by
  rw [UInt8.toNat_ofNat']
  omega

/-- Only scalar values are written. -/
theorem Form.isValidChar {v : ℕ} {bytes : Bytes} (h : Form v bytes) : v.isValidChar := by
  unfold Nat.isValidChar
  cases h with
  | one => omega
  | two value lead second =>
    unfold IsTail at second
    omega
  | three value lead second low high third =>
    unfold IsTail at second third
    omega
  | four value lead second low high third fourth =>
    unfold IsTail at second third fourth
    omega

/-- A scalar value is written only as its encoding. -/
theorem Form.eq_utf8EncodeChar {s : Char} {bytes : Bytes} (h : Form s.val.toNat bytes) :
    String.utf8EncodeChar s = bytes := by
  cases h with
  | one value lead =>
    have h1 : s.val.toNat ≤ 0x7F := by omega
    simp only [String.utf8EncodeChar, if_pos h1]
    rw [ofNat_eq value]
  | two value lead second =>
    unfold IsTail at second
    have h1 : ¬ s.val.toNat ≤ 0x7F := by omega
    have h2 : s.val.toNat ≤ 0x7FF := by omega
    simp only [String.utf8EncodeChar, if_neg h1, if_pos h2]
    congr 1
    · exact ofNat_eq (by omega)
    · congr 1
      exact ofNat_eq (by omega)
  | three value lead second low high third =>
    unfold IsTail at second third
    have h1 : ¬ s.val.toNat ≤ 0x7F := by omega
    have h2 : ¬ s.val.toNat ≤ 0x7FF := by omega
    have h3 : s.val.toNat ≤ 0xFFFF := by omega
    simp only [String.utf8EncodeChar, if_neg h1, if_neg h2, if_pos h3]
    congr 1
    · exact ofNat_eq (by omega)
    · congr 1
      · exact ofNat_eq (by omega)
      · congr 1
        exact ofNat_eq (by omega)
  | four value lead second low high third fourth =>
    unfold IsTail at second third fourth
    have h1 : ¬ s.val.toNat ≤ 0x7F := by omega
    have h2 : ¬ s.val.toNat ≤ 0x7FF := by omega
    have h3 : ¬ s.val.toNat ≤ 0xFFFF := by omega
    simp only [String.utf8EncodeChar, if_neg h1, if_neg h2, if_neg h3]
    congr 1
    · exact ofNat_eq (by omega)
    · congr 1
      · exact ofNat_eq (by omega)
      · congr 1
        · exact ofNat_eq (by omega)
        · congr 1
          exact ofNat_eq (by omega)

/-- Whatever is written is the encoding of a scalar value. -/
theorem Form.exists_scalar {v : ℕ} {bytes : Bytes} (h : Form v bytes) :
    ∃ s : Char, s.val.toNat = v ∧ String.utf8EncodeChar s = bytes := by
  let s := Char.ofNatAux v h.isValidChar
  have hs : s.val.toNat = v := rfl
  refine ⟨s, hs, ?_⟩
  rw [← hs] at h
  exact h.eq_utf8EncodeChar

/-- The encoding of a scalar value has one of the four forms. -/
theorem form_utf8EncodeChar (s : Char) : Form s.val.toNat (String.utf8EncodeChar s) := by
  have hvalid : s.val.toNat < 0xD800 ∨ 0xDFFF < s.val.toNat ∧ s.val.toNat < 0x110000 := s.valid
  unfold String.utf8EncodeChar
  by_cases h1 : s.val.toNat ≤ 0x7F
  · simp only [if_pos h1]
    have hb := toNat_ofNat (n := s.val.toNat) (by omega)
    exact .one hb.symm (by omega)
  · by_cases h2 : s.val.toNat ≤ 0x7FF
    · simp only [if_neg h1, if_pos h2]
      have hb := toNat_ofNat (n := s.val.toNat / 64 % 0x20 + 0xC0) (by omega)
      have hc := toNat_ofNat (n := s.val.toNat % 0x40 + 0x80) (by omega)
      apply Form.two <;> simp only [IsTail, hb, hc] <;> omega
    · have hc := toNat_ofNat (n := s.val.toNat / 64 % 0x40 + 0x80) (by omega)
      have hd := toNat_ofNat (n := s.val.toNat % 0x40 + 0x80) (by omega)
      by_cases h3 : s.val.toNat ≤ 0xFFFF
      · simp only [if_neg h1, if_neg h2, if_pos h3]
        have hb := toNat_ofNat (n := s.val.toNat / 4096 % 0x10 + 0xE0) (by omega)
        apply Form.three <;> simp only [IsTail, hb, hc, hd] <;> omega
      · simp only [if_neg h1, if_neg h2, if_neg h3]
        have ha := toNat_ofNat (n := s.val.toNat / 262144 % 0x08 + 0xF0) (by omega)
        have hb := toNat_ofNat (n := s.val.toNat / 4096 % 0x40 + 0x80) (by omega)
        apply Form.four <;> simp only [IsTail, ha, hb, hc, hd] <;> omega

/-- Bytes of a longer character are at least `0x80`. -/
theorem Form.ascii_or_high {v : ℕ} {bytes : Bytes} (h : Form v bytes) :
    (∃ b, bytes = [b] ∧ b < 0x80) ∨ ∀ b ∈ bytes, 0x80 ≤ b := by
  have hbound {b : UInt8} (hb : 0x80 ≤ b.toNat) : 0x80 ≤ b := by
    rw [UInt8.le_iff_toNat_le]
    exact hb
  cases h with
  | one value lead =>
    left
    refine ⟨_, rfl, ?_⟩
    rw [UInt8.lt_iff_toNat_lt]
    exact lead
  | two value lead second =>
    right
    intro b hb
    simp only [List.mem_cons, List.not_mem_nil, or_false] at hb
    rcases hb with rfl | rfl
    · exact hbound (by omega)
    · exact hbound second.1
  | three value lead second low high third =>
    right
    intro b hb
    simp only [List.mem_cons, List.not_mem_nil, or_false] at hb
    rcases hb with rfl | rfl | rfl
    · exact hbound (by omega)
    · exact hbound second.1
    · exact hbound third.1
  | four value lead second low high third fourth =>
    right
    intro b hb
    simp only [List.mem_cons, List.not_mem_nil, or_false] at hb
    rcases hb with rfl | rfl | rfl | rfl
    · exact hbound (by omega)
    · exact hbound second.1
    · exact hbound third.1
    · exact hbound fourth.1

/-- The number and the rest of a text are determined by the text. -/
theorem Form.split {v w : ℕ} {left right r s : Bytes} (hv : Form v left) (hw : Form w right)
    (h : left ++ r = right ++ s) : v = w ∧ r = s := by
  cases hv <;> cases hw <;>
    simp only [List.cons_append, List.nil_append, List.cons.injEq] at h <;>
    obtain ⟨rfl, h⟩ := h
  all_goals first | omega | skip
  · exact ⟨by omega, h⟩
  · obtain ⟨rfl, h⟩ := h
    exact ⟨by omega, h⟩
  · obtain ⟨rfl, rfl, h⟩ := h
    exact ⟨by omega, h⟩
  · obtain ⟨rfl, rfl, rfl, h⟩ := h
    exact ⟨by omega, h⟩

/-- The encodings of scalar values are a self-delimiting code. -/
theorem utf8EncodeChar_prefixCode :
    PrefixCode String.utf8EncodeChar (fun _ => True) where
  nonempty _ := String.utf8EncodeChar_ne_nil
  split := by
    intro s t r r' _ _ h
    obtain ⟨hvalue, hrest⟩ := (form_utf8EncodeChar s).split (form_utf8EncodeChar t) h
    exact ⟨Char.ext (UInt32.toNat_inj.mp hvalue), hrest⟩

/-- A text determines its scalar values. -/
theorem encode_injective : Function.Injective encode := by
  intro scalars others h
  exact utf8EncodeChar_prefixCode.flatMap_injective (by simp) (by simp) h

/-- The leading bytes by the number of bytes that they announce. -/
theorem lead_eq (b : UInt8) : lead b =
    if b.toNat < 0x80 then some Expect.idle
    else if 0xC2 ≤ b.toNat ∧ b.toNat ≤ 0xDF then some ⟨1, 0x80, 0xBF⟩
    else if 0xE0 ≤ b.toNat ∧ b.toNat ≤ 0xEF then
      some ⟨2, if b.toNat = 0xE0 then 0xA0 else 0x80, if b.toNat = 0xED then 0x9F else 0xBF⟩
    else if 0xF0 ≤ b.toNat ∧ b.toNat ≤ 0xF4 then
      some ⟨3, if b.toNat = 0xF0 then 0x90 else 0x80, if b.toNat = 0xF4 then 0x8F else 0xBF⟩
    else none := by
  revert b
  exact forall_byte (by decide +kernel)

/-- The decoder comes to rest only if a byte that is owed follows within its bounds. -/
theorem rest_iff (owed : ℕ) (low high : UInt8) (text : Bytes) :
    text.foldlM next ⟨owed + 1, low, high⟩ = some Expect.idle ↔
      ∃ c rest, text = c :: rest ∧ (low.toNat ≤ c.toNat ∧ c.toNat ≤ high.toNat) ∧
        rest.foldlM next ⟨owed, 0x80, 0xBF⟩ = some Expect.idle := by
  cases text with
  | nil => simp [Expect.idle]
  | cons c rest =>
    simp only [List.foldlM_cons, next, UInt8.le_iff_toNat_le, List.cons.injEq,
      exists_eq_left', ↓existsAndEq, and_true]
    split
    · rename_i hbounds
      simp [hbounds]
    · rename_i hbounds
      simp [hbounds]

/-- The decoder comes to rest on a text that is not empty exactly when it does so from what the
first byte announces. -/
theorem valid_cons_iff (b : UInt8) (text : Bytes) : valid (b :: text) = true ↔
    ∃ e, lead b = some e ∧ text.foldlM next e = some Expect.idle := by
  rw [valid_iff, List.foldlM_cons]
  exact Option.bind_eq_some_iff

/-- The bounds on the byte after a leading byte: it is a continuation byte, and after the first and
the last of the leading bytes of its kind it is bounded further. -/
theorem second_iff {b c low high : UInt8} {first last : ℕ} (hlow : 0x80 ≤ low.toNat)
    (hhigh : high.toNat ≤ 0xBF) :
    ((if b.toNat = first then low else 0x80).toNat ≤ c.toNat ∧
      c.toNat ≤ (if b.toNat = last then high else 0xBF).toNat) ↔
    IsTail c ∧ (b.toNat = first → low.toNat ≤ c.toNat) ∧
      (b.toNat = last → c.toNat ≤ high.toNat) := by
  have hleast : (0x80 : UInt8).toNat = 0x80 := rfl
  have hgreatest : (0xBF : UInt8).toNat = 0xBF := rfl
  unfold IsTail
  split <;> split <;> omega

/-- The decoder passes over a form. -/
theorem Form.valid {v : ℕ} {bytes : Bytes} (h : Form v bytes) : valid bytes = true := by
  cases h with
  | one value lead =>
    rw [valid_cons_iff, lead_eq, if_pos lead]
    exact ⟨_, rfl, rfl⟩
  | two value lead second =>
    rw [valid_cons_iff, lead_eq, if_neg (by omega), if_pos lead]
    refine ⟨_, rfl, ?_⟩
    rw [rest_iff]
    exact ⟨_, _, rfl, second, rfl⟩
  | three value lead second low high third =>
    rw [valid_cons_iff, lead_eq, if_neg (by omega), if_neg (by omega), if_pos lead]
    refine ⟨_, rfl, ?_⟩
    rw [rest_iff]
    refine ⟨_, _, rfl, (second_iff (by decide) (by decide)).mpr ⟨second, low, high⟩, ?_⟩
    rw [rest_iff]
    exact ⟨_, _, rfl, third, rfl⟩
  | four value lead second low high third fourth =>
    rw [valid_cons_iff, lead_eq, if_neg (by omega), if_neg (by omega), if_neg (by omega),
      if_pos lead]
    refine ⟨_, rfl, ?_⟩
    rw [rest_iff]
    refine ⟨_, _, rfl, (second_iff (by decide) (by decide)).mpr ⟨second, low, high⟩, ?_⟩
    rw [rest_iff]
    refine ⟨_, _, rfl, third, ?_⟩
    rw [rest_iff]
    exact ⟨_, _, rfl, fourth, rfl⟩

/-- A valid text that is not empty begins with a form. -/
theorem exists_form_of_valid {b : UInt8} {text : Bytes} (h : valid (b :: text) = true) :
    ∃ v bytes rest, Form v bytes ∧ b :: text = bytes ++ rest := by
  obtain ⟨e, hlead, hrest⟩ := (valid_cons_iff b text).mp h
  rw [lead_eq] at hlead
  split at hlead
  · rename_i hone
    exact ⟨_, [b], text, .one rfl hone, rfl⟩
  split at hlead
  · rename_i htwo
    obtain rfl := Option.some.inj hlead
    obtain ⟨c, rest, rfl, hc, hrest⟩ := (rest_iff _ _ _ _).mp hrest
    exact ⟨_, [b, c], rest, .two rfl htwo hc, rfl⟩
  split at hlead
  · rename_i hthree
    obtain rfl := Option.some.inj hlead
    obtain ⟨c, _, rfl, hc, hrest⟩ := (rest_iff _ _ _ _).mp hrest
    obtain ⟨d, rest, rfl, hd, hrest⟩ := (rest_iff _ _ _ _).mp hrest
    obtain ⟨hsecond, hlow, hhigh⟩ := (second_iff (by decide) (by decide)).mp hc
    exact ⟨_, [b, c, d], rest, .three rfl hthree hsecond hlow hhigh hd, rfl⟩
  split at hlead
  · rename_i hfour
    obtain rfl := Option.some.inj hlead
    obtain ⟨c, _, rfl, hc, hrest⟩ := (rest_iff _ _ _ _).mp hrest
    obtain ⟨d, _, rfl, hd, hrest⟩ := (rest_iff _ _ _ _).mp hrest
    obtain ⟨e, rest, rfl, he, hrest⟩ := (rest_iff _ _ _ _).mp hrest
    obtain ⟨hsecond, hlow, hhigh⟩ := (second_iff (by decide) (by decide)).mp hc
    exact ⟨_, [b, c, d, e], rest, .four rfl hfour hsecond hlow hhigh hd he, rfl⟩
  · cases hlead

/-- The decoder recognises the encodings of scalar values. -/
theorem valid_recognizes : Recognizes valid String.utf8EncodeChar where
  nil := rfl
  word s r := valid_append_of_valid (form_utf8EncodeChar s).valid r
  cut := by
    intro b r h
    obtain ⟨v, bytes, rest, hform, hsplit⟩ := exists_form_of_valid h
    obtain ⟨s, _, rfl⟩ := hform.exists_scalar
    exact ⟨s, rest, String.utf8EncodeChar_ne_nil, hsplit⟩

end PqtlsLab.Utf8
