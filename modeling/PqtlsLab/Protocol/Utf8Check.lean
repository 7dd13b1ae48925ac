import PqtlsLab.Foundation.Utf8Scalars
import PqtlsLab.Protocol.Message

/-!
# The UTF-8 check on incoming text

`is_valid_utf8` walks over the bytes with a pointer, collects a code point with masks and shifts,
and looks at its range afterwards. Each round of the loop removes exactly the encoding of one
scalar value, so the check accepts exactly the encodings of sequences of scalar values. The walk is
modelled a second time with its reads made explicit: a read outside of the text would show as a
missing result.
-/

namespace PqtlsLab

open Utf8 (Form IsTail)

/-- The inner loop of `is_valid_utf8` at position `p`, from `p[i]` on; no result stands for a read
past the end. -/
def utf8ContinueAt (bytes : Bytes) (p : ℕ) : ℕ → ℕ → ℕ → Option (Option ℕ)
  | 0, _, codePoint => some (some codePoint)
  | rounds + 1, i, codePoint =>
    match bytes[p + i]? with
    | none => none
    | some cont =>
      if cont &&& 0xC0 ≠ 0x80 then some none
      else utf8ContinueAt bytes p rounds (i + 1) ((codePoint <<< 6) ||| (cont &&& 0x3F).toNat)

/-- The outer loop of `is_valid_utf8` at position `p`; no result stands for a read past the end. -/
def utf8LoopAt (bytes : Bytes) : ℕ → ℕ → Option Bool
  | fuel, p =>
    if p < bytes.length then
      match fuel with
      | 0 => some false
      | fuel + 1 =>
        match bytes[p]? with
        | none => none
        | some first =>
          if first < 0x80 then utf8LoopAt bytes fuel (p + 1)
          else
            match utf8Lead first with
            | none => some false
            | some (extra, codePoint) =>
              if p + extra ≥ bytes.length then some false
              else
                match utf8ContinueAt bytes p extra 1 codePoint with
                | none => none
                | some none => some false
                | some (some codePoint) =>
                  if utf8Rejected extra codePoint then some false
                  else utf8LoopAt bytes fuel (p + (extra + 1))
    else some true

/-- `is_valid_utf8` with its reads made explicit. -/
def isValidUtf8At (bytes : Bytes) : Option Bool := utf8LoopAt bytes bytes.length 0

/-- The inner loop reads within the text as long as the announced bytes lie within it. -/
theorem utf8ContinueAt_eq (bytes : Bytes) (p rounds i codePoint : ℕ)
    (h : p + i + rounds ≤ bytes.length) :
    utf8ContinueAt bytes p rounds i codePoint =
      some (utf8Continue codePoint ((bytes.drop (p + i)).take rounds)) := by
  induction rounds generalizing i codePoint with
  | zero => simp [utf8ContinueAt, utf8Continue]
  | succ rounds ih =>
    have hlt : p + i < bytes.length := by omega
    rw [List.drop_eq_getElem_cons hlt, List.take_succ_cons]
    simp only [utf8ContinueAt, utf8Continue, List.getElem?_eq_getElem hlt]
    split
    · rfl
    · exact ih (i + 1) _ (by omega)

/-- The outer loop reads within the text and computes what the loop over the rest computes. -/
theorem utf8LoopAt_eq (bytes : Bytes) (fuel p : ℕ) :
    utf8LoopAt bytes fuel p = some (utf8Loop fuel (bytes.drop p)) := by
  induction fuel generalizing p with
  | zero =>
    unfold utf8LoopAt
    split
    · rename_i hlt
      rw [List.drop_eq_getElem_cons hlt]
      rfl
    · rename_i hge
      rw [List.drop_eq_nil_of_le (by omega)]
      rfl
  | succ fuel ih =>
    unfold utf8LoopAt
    split
    · rename_i hlt
      rw [List.drop_eq_getElem_cons hlt]
      simp only [List.getElem?_eq_getElem hlt, utf8Loop]
      split
      · exact ih (p + 1)
      · cases hlead : utf8Lead bytes[p] with
        | none => rfl
        | some announced =>
          obtain ⟨extra, codePoint⟩ := announced
          simp only [List.length_drop]
          by_cases htruncated : p + extra ≥ bytes.length
          · rw [if_pos htruncated, if_pos (by omega)]
          · rw [if_neg htruncated, if_neg (by omega), utf8ContinueAt_eq _ _ _ _ _ (by omega)]
            cases utf8Continue codePoint ((bytes.drop (p + 1)).take extra) with
            | none => rfl
            | some codePoint =>
              simp only [List.drop_drop, ih]
              split
              · rfl
              · congr 3
                omega
    · rename_i hge
      rw [List.drop_eq_nil_of_le (by omega)]
      rfl

/-- One round of the outer loop: what is left of the text, or nothing if it is rejected. -/
def utf8Round (first : UInt8) (rest : Bytes) : Option Bytes :=
  if first < 0x80 then some rest
  else
    match utf8Lead first with
    | none => none
    | some (extra, codePoint) =>
      if rest.length < extra then none
      else
        match utf8Continue codePoint (rest.take extra) with
        | none => none
        | some codePoint => if utf8Rejected extra codePoint then none else some (rest.drop extra)

/-- The outer loop is a sequence of rounds. -/
theorem utf8Loop_succ (fuel : ℕ) (first : UInt8) (rest : Bytes) :
    utf8Loop (fuel + 1) (first :: rest) =
      match utf8Round first rest with
      | none => false
      | some rest => utf8Loop fuel rest := by
  rw [utf8Loop, utf8Round]
  by_cases hone : first < 0x80
  · simp only [if_pos hone]
  · simp only [if_neg hone]
    cases utf8Lead first with
    | none => rfl
    | some announced =>
      obtain ⟨extra, codePoint⟩ := announced
      by_cases hshort : rest.length < extra
      · simp only [if_pos hshort]
      · simp only [if_neg hshort]
        cases utf8Continue codePoint (rest.take extra) with
        | none => rfl
        | some codePoint =>
          by_cases hrejected : utf8Rejected extra codePoint = true
          · simp only [if_pos hrejected]
          · simp only [if_neg hrejected]

/-- What a leading byte announces, by its number. -/
theorem utf8Lead_eq (b : UInt8) : utf8Lead b =
    if 0xC0 ≤ b.toNat ∧ b.toNat ≤ 0xDF then some (1, b.toNat - 0xC0)
    else if 0xE0 ≤ b.toNat ∧ b.toNat ≤ 0xEF then some (2, b.toNat - 0xE0)
    else if 0xF0 ≤ b.toNat ∧ b.toNat ≤ 0xF7 then some (3, b.toNat - 0xF0)
    else none := by
  revert b
  exact forall_byte (by decide +kernel)

/-- A continuation byte adds its six bits to the code point. -/
theorem utf8Continue_cons (codePoint : ℕ) (c : UInt8) (rest : Bytes) :
    utf8Continue codePoint (c :: rest) =
      if 0x80 ≤ c.toNat ∧ c.toNat ≤ 0xBF then
        utf8Continue (codePoint * 64 + (c.toNat - 0x80)) rest
      else none := by
  have hmask : ∀ c : UInt8, c &&& 0xC0 ≠ 0x80 ↔ ¬ (0x80 ≤ c.toNat ∧ c.toNat ≤ 0xBF) :=
    forall_byte (by decide +kernel)
  have hbits : ∀ c : UInt8, 0x80 ≤ c.toNat ∧ c.toNat ≤ 0xBF →
      (c &&& 0x3F).toNat = c.toNat - 0x80 := forall_byte (by decide +kernel)
  rw [utf8Continue]
  by_cases htail : 0x80 ≤ c.toNat ∧ c.toNat ≤ 0xBF
  · rw [if_neg (by simpa [hmask] using htail), if_pos htail, hbits c htail,
      ← Nat.shiftLeft_add_eq_or_of_lt (by omega), Nat.shiftLeft_eq]
  · rw [if_pos ((hmask c).mpr htail), if_neg htail]

/-- The continuation bytes are accepted exactly when they are all in range. -/
theorem utf8Continue_eq_some_cons {codePoint result : ℕ} {c : UInt8} {rest : Bytes} :
    utf8Continue codePoint (c :: rest) = some result ↔
      IsTail c ∧ utf8Continue (codePoint * 64 + (c.toNat - 0x80)) rest = some result := by
  rw [utf8Continue_cons]
  unfold IsTail
  split <;> simp [*]

/-- A round over several bytes: the announced continuation bytes are there, they are in range and
their code point is not rejected. -/
theorem utf8Round_eq_some_of_lead {first : UInt8} {rest left : Bytes} (hfirst : ¬ first < 0x80) :
    utf8Round first rest = some left ↔
      ∃ tail start v, utf8Lead first = some (tail.length, start) ∧ rest = tail ++ left ∧
        utf8Continue start tail = some v ∧ utf8Rejected tail.length v = false := by
  unfold utf8Round
  rw [if_neg hfirst]
  constructor
  · intro h
    cases hlead : utf8Lead first with
    | none => simp [hlead] at h
    | some announced =>
      obtain ⟨extra, start⟩ := announced
      simp only [hlead] at h
      split at h
      · cases h
      · rename_i hlength
        have htail : (rest.take extra).length = extra := by
          rw [List.length_take]
          omega
        cases hcontinue : utf8Continue start (rest.take extra) with
        | none => simp [hcontinue] at h
        | some v =>
          simp only [hcontinue] at h
          split at h
          · cases h
          · rename_i hrejected
            obtain rfl := Option.some.inj h
            refine ⟨rest.take extra, start, v, by rw [htail], ?_, hcontinue, ?_⟩
            · exact (List.take_append_drop extra rest).symm
            · rw [htail]
              simpa using hrejected
  · rintro ⟨tail, start, v, hlead, rfl, hcontinue, hrejected⟩
    have hlength : ¬ (tail ++ left).length < tail.length := by
      rw [List.length_append]
      omega
    simp only [hlead, if_neg hlength, List.take_left', List.drop_left', hcontinue, hrejected]
    rfl

/-- The code points that pass the checks after the inner loop. -/
theorem utf8Rejected_eq_false_iff (extra v : ℕ) : utf8Rejected extra v = false ↔
    (extra = 1 → 0x80 ≤ v) ∧ (extra = 2 → 0x800 ≤ v) ∧ (extra = 3 → 0x10000 ≤ v) ∧
      v ≤ 0x10FFFF ∧ (0xD800 ≤ v → 0xDFFF < v) := by
  simp only [utf8Rejected, Bool.or_eq_false_iff, Bool.and_eq_false_imp, beq_iff_eq,
    decide_eq_false_iff_not, decide_eq_true_eq, Nat.not_lt, ge_iff_le, gt_iff_lt, Nat.not_le,
    and_assoc]

/-- A byte that is not below `0x80`. -/
theorem not_lt_of_toNat {b : UInt8} (h : 0x80 ≤ b.toNat) : ¬ b < 0x80 := by
  have h80 : (0x80 : UInt8).toNat = 0x80 := rfl
  rw [UInt8.lt_iff_toNat_lt, h80]
  omega

/-- The code point of a form is the one that the loop collects, and it is not rejected. -/
theorem utf8Round_of_form {v : ℕ} {first : UInt8} {tail : Bytes} (h : Form v (first :: tail))
    (left : Bytes) : utf8Round first (tail ++ left) = some left := by
  cases h with
  | one value lead =>
    have hfirst : first < 0x80 := by
      rw [UInt8.lt_iff_toNat_lt]
      exact lead
    simp [utf8Round, hfirst]
  | two value lead second =>
    rw [utf8Round_eq_some_of_lead (not_lt_of_toNat (by omega))]
    refine ⟨_, first.toNat - 0xC0, v, ?_, rfl, ?_, ?_⟩
    · rw [utf8Lead_eq, if_pos (by omega)]
      rfl
    · rw [utf8Continue_eq_some_cons]
      exact ⟨second, by rw [utf8Continue, value]⟩
    · unfold IsTail at second
      rw [utf8Rejected_eq_false_iff]
      simp only [List.length_cons, List.length_nil]
      omega
  | three value lead second low high third =>
    rw [utf8Round_eq_some_of_lead (not_lt_of_toNat (by omega))]
    refine ⟨_, first.toNat - 0xE0, v, ?_, rfl, ?_, ?_⟩
    · rw [utf8Lead_eq, if_neg (by omega), if_pos (by omega)]
      rfl
    · rw [utf8Continue_eq_some_cons, utf8Continue_eq_some_cons]
      refine ⟨second, third, ?_⟩
      rw [utf8Continue, value]
      exact congrArg some (by omega)
    · unfold IsTail at second third
      rw [utf8Rejected_eq_false_iff]
      simp only [List.length_cons, List.length_nil]
      omega
  | four value lead second low high third fourth =>
    rw [utf8Round_eq_some_of_lead (not_lt_of_toNat (by omega))]
    refine ⟨_, first.toNat - 0xF0, v, ?_, rfl, ?_, ?_⟩
    · rw [utf8Lead_eq, if_neg (by omega), if_neg (by omega), if_pos (by omega)]
      rfl
    · rw [utf8Continue_eq_some_cons, utf8Continue_eq_some_cons, utf8Continue_eq_some_cons]
      refine ⟨second, third, fourth, ?_⟩
      rw [utf8Continue, value]
      exact congrArg some (by omega)
    · unfold IsTail at second third fourth
      rw [utf8Rejected_eq_false_iff]
      simp only [List.length_cons, List.length_nil]
      omega

/-- A round removes a form from the front of the text. -/
theorem exists_form_of_utf8Round {first : UInt8} {rest left : Bytes}
    (h : utf8Round first rest = some left) :
    ∃ v tail, Form v (first :: tail) ∧ rest = tail ++ left := by
  by_cases hone : first < 0x80
  · have hleft : rest = left := by simpa [utf8Round, hone] using h
    exact ⟨_, [], .one rfl (by simpa [UInt8.lt_iff_toNat_lt] using hone), hleft⟩
  · obtain ⟨tail, start, v, hlead, rfl, hcontinue, hrejected⟩ :=
      (utf8Round_eq_some_of_lead hone).mp h
    refine ⟨v, tail, ?_, rfl⟩
    rw [utf8Lead_eq] at hlead
    split at hlead
    · rename_i htwo
      obtain ⟨hlength, rfl⟩ := Prod.mk.inj (Option.some.inj hlead)
      obtain ⟨c, rfl⟩ := List.length_eq_one_iff.mp hlength.symm
      obtain ⟨hc, hvalue⟩ := utf8Continue_eq_some_cons.mp hcontinue
      obtain rfl := Option.some.inj hvalue
      rw [utf8Rejected_eq_false_iff, ← hlength] at hrejected
      exact .two rfl (by unfold IsTail at hc; omega) hc
    split at hlead
    · rename_i hthree
      obtain ⟨hlength, rfl⟩ := Prod.mk.inj (Option.some.inj hlead)
      obtain ⟨c, d, rfl⟩ := List.length_eq_two.mp hlength.symm
      obtain ⟨hc, hvalue⟩ := utf8Continue_eq_some_cons.mp hcontinue
      obtain ⟨hd, hvalue⟩ := utf8Continue_eq_some_cons.mp hvalue
      obtain rfl := Option.some.inj hvalue
      rw [utf8Rejected_eq_false_iff, ← hlength] at hrejected
      have hbounds := And.intro hc hd
      unfold IsTail at hbounds
      refine .three ?_ hthree hc ?_ ?_ hd <;> omega
    split at hlead
    · rename_i hfour
      obtain ⟨hlength, rfl⟩ := Prod.mk.inj (Option.some.inj hlead)
      obtain ⟨c, d, e, rfl⟩ := List.length_eq_three.mp hlength.symm
      obtain ⟨hc, hvalue⟩ := utf8Continue_eq_some_cons.mp hcontinue
      obtain ⟨hd, hvalue⟩ := utf8Continue_eq_some_cons.mp hvalue
      obtain ⟨he, hvalue⟩ := utf8Continue_eq_some_cons.mp hvalue
      obtain rfl := Option.some.inj hvalue
      rw [utf8Rejected_eq_false_iff, ← hlength] at hrejected
      have hbounds := And.intro hc (And.intro hd he)
      unfold IsTail at hbounds
      refine .four ?_ ?_ hc ?_ ?_ hd he <;> omega
    · cases hlead

/-- More rounds than bytes make no difference. -/
theorem utf8Loop_fuel {fuel more : ℕ} {text : Bytes} (h : text.length ≤ fuel)
    (hmore : text.length ≤ more) : utf8Loop fuel text = utf8Loop more text := by
  induction fuel generalizing more text with
  | zero =>
    have hnil : text = [] := List.eq_nil_of_length_eq_zero (by omega)
    simp [hnil, utf8Loop]
  | succ fuel ih =>
    cases text with
    | nil => simp [utf8Loop]
    | cons first rest =>
      obtain ⟨more, rfl⟩ : ∃ n, more = n + 1 := Nat.exists_eq_add_one.mpr (by simp at hmore; omega)
      rw [utf8Loop_succ, utf8Loop_succ]
      cases hround : utf8Round first rest with
      | none => rfl
      | some left =>
        obtain ⟨v, tail, _, rfl⟩ := exists_form_of_utf8Round hround
        rw [List.length_cons, List.length_append] at h hmore
        exact ih (by omega) (by omega)

/-- The check passes over a form. -/
theorem isValidUtf8_form {v : ℕ} {bytes : Bytes} (h : Form v bytes) (rest : Bytes) :
    isValidUtf8 (bytes ++ rest) = isValidUtf8 rest := by
  obtain ⟨first, tail, rfl⟩ : ∃ first tail, bytes = first :: tail := by
    cases h <;> exact ⟨_, _, rfl⟩
  have hlength : rest.length ≤ (tail ++ rest).length := by
    rw [List.length_append]
    omega
  unfold isValidUtf8
  rw [List.cons_append, List.length_cons, utf8Loop_succ, utf8Round_of_form h]
  exact utf8Loop_fuel hlength le_rfl

/-- A text that passes the check and is not empty begins with a form. -/
theorem exists_form_of_isValidUtf8 {first : UInt8} {rest : Bytes}
    (h : isValidUtf8 (first :: rest) = true) :
    ∃ v bytes left, Form v bytes ∧ first :: rest = bytes ++ left := by
  unfold isValidUtf8 at h
  rw [List.length_cons, utf8Loop_succ] at h
  cases hround : utf8Round first rest with
  | none => simp [hround] at h
  | some left =>
    obtain ⟨v, tail, hform, rfl⟩ := exists_form_of_utf8Round hround
    exact ⟨v, first :: tail, left, hform, rfl⟩

/-- The check recognises the encodings of scalar values. -/
theorem isValidUtf8_recognizes : Recognizes isValidUtf8 String.utf8EncodeChar where
  nil := rfl
  word s r := isValidUtf8_form (Utf8.form_utf8EncodeChar s) r
  cut := by
    intro b r h
    obtain ⟨v, bytes, left, hform, hsplit⟩ := exists_form_of_isValidUtf8 h
    obtain ⟨s, _, rfl⟩ := hform.exists_scalar
    exact ⟨s, left, String.utf8EncodeChar_ne_nil, hsplit⟩

/-- The check of the source agrees with the decoder that reads byte by byte. -/
theorem isValidUtf8_eq_valid (text : Bytes) : isValidUtf8 text = Utf8.valid text := by
  rw [Bool.eq_iff_iff, isValidUtf8_recognizes.iff, Utf8.valid_recognizes.iff]

/-- For every byte string `is_valid_utf8` stays within the string and accepts it exactly when it is
the encoding of a sequence of scalar values, and there is only one such sequence. -/
theorem isValidUtf8_exact (bytes : Bytes) :
    isValidUtf8At bytes = some (isValidUtf8 bytes) ∧
      (isValidUtf8 bytes = true ↔ ∃ scalars : List Char, bytes = Utf8.encode scalars) ∧
      ∀ scalars others : List Char, bytes = Utf8.encode scalars → bytes = Utf8.encode others →
        scalars = others := by
  refine ⟨utf8LoopAt_eq bytes bytes.length 0, isValidUtf8_recognizes.iff bytes, ?_⟩
  intro scalars others hscalars hothers
  exact Utf8.encode_injective (hscalars.symm.trans hothers)

end PqtlsLab
