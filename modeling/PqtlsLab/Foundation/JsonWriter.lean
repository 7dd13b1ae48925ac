import PqtlsLab.Foundation.Json
import PqtlsLab.Foundation.Utf8Scalars

/-!
# The text of a JSON value is UTF-8

Escaping replaces single bytes below `0x80` by such bytes and copies the others, so it leaves every
longer character as it is. A value whose strings and keys are UTF-8 therefore has a text that is
UTF-8, provided the decimal forms of its numbers are.
-/

namespace PqtlsLab.Json

/-- A byte below `0x80` is rendered with such bytes. -/
theorem escape_ascii : ∀ b : UInt8, b < 0x80 → ∀ c ∈ escape b, c < 0x80 := by
  have hall : ∀ b : UInt8, b < 0x80 → ((escape b).all fun c => decide (c < 0x80)) = true :=
    forall_byte (by decide +kernel)
  intro b hb c hc
  exact of_decide_eq_true (List.all_eq_true.mp (hall b hb) c hc)

/-- A byte from `0x80` on is copied. -/
theorem escape_high : ∀ b : UInt8, 0x80 ≤ b → escape b = [b] :=
  forall_byte (by decide +kernel)

/-- Escaping keeps UTF-8. -/
theorem valid_flatMap_escape {s : Bytes} (h : Utf8.valid s = true) :
    Utf8.valid (s.flatMap escape) = true := by
  obtain ⟨scalars, rfl⟩ := (Utf8.valid_recognizes.iff s).mp h
  clear h
  induction scalars with
  | nil => rfl
  | cons scalar scalars ih =>
    rw [List.flatMap_cons, List.flatMap_append]
    refine Utf8.valid_append ?_ ih
    have hform := Utf8.form_utf8EncodeChar scalar
    rcases hform.ascii_or_high with ⟨b, hbytes, hb⟩ | hhigh
    · rw [hbytes, List.flatMap_singleton]
      exact Utf8.valid_of_ascii (escape_ascii b hb)
    · have hcopy : (String.utf8EncodeChar scalar).flatMap escape =
          (String.utf8EncodeChar scalar).flatMap (fun b => [b]) :=
        List.flatMap_congr fun b hb => escape_high b (hhigh b hb)
      rw [hcopy, List.flatMap_singleton']
      exact hform.valid

/-- A literal of a UTF-8 string is UTF-8. -/
theorem valid_quote {s : Bytes} (h : Utf8.valid s = true) : Utf8.valid (quote s) = true :=
  @Utf8.valid_append [0x22] _ (by decide)
    (Utf8.valid_append (valid_flatMap_escape h) (by decide))

/-- A comma-separated list of UTF-8 texts is UTF-8. -/
theorem valid_intercalate {texts : List Bytes} (h : ∀ text ∈ texts, Utf8.valid text = true) :
    Utf8.valid (List.intercalate [0x2C] texts) = true := by
  induction texts with
  | nil => rfl
  | cons first rest ih =>
    have hfirst := h first (by simp)
    have hrest := ih fun text htext => h text (by simp [htext])
    cases rest with
    | nil => simpa using hfirst
    | cons second rest =>
      rw [List.intercalate_cons_cons]
      exact Utf8.valid_append (Utf8.valid_append hfirst (by decide)) hrest

/-- A decimal integer is UTF-8. -/
theorem valid_decimalInt (i : ℤ) : Utf8.valid (decimalInt i) = true := by
  unfold decimalInt
  split
  · exact @Utf8.valid_append [0x2D] _ (by decide) (Utf8.valid_decimal _)
  · exact Utf8.valid_decimal _

section

variable {floatText : UInt64 → Bytes}

mutual

/-- The text of a value whose texts are UTF-8 is UTF-8. -/
theorem valid_render
    (hfloat : ∀ bits, finiteBits bits = true → Utf8.valid (floatText bits) = true) :
    ∀ j : Json, j.textValid = true → Utf8.valid (j.render floatText) = true
  | .null, _ => by
    simp only [render]
    decide
  | .bool b, _ => by
    simp only [render]
    cases b <;> decide
  | .int i, _ => by
    simp only [render]
    exact valid_decimalInt i
  | .float bits, _ => by
    simp only [render]
    split
    · rename_i hfinite
      exact hfloat bits hfinite
    · decide
  | .string s, h => by
    simp only [textValid] at h
    simp only [render]
    exact valid_quote h
  | .array xs, h => by
    simp only [textValid] at h
    simp only [render]
    exact @Utf8.valid_append [0x5B] _ (by decide)
      (Utf8.valid_append (valid_intercalate (valid_renderList hfloat xs h)) (by decide))
  | .object ms, h => by
    simp only [textValid] at h
    simp only [render]
    exact @Utf8.valid_append [0x7B] _ (by decide)
      (Utf8.valid_append (valid_intercalate (valid_renderMembers hfloat ms h)) (by decide))

/-- The texts of elements whose texts are UTF-8 are UTF-8. -/
theorem valid_renderList
    (hfloat : ∀ bits, finiteBits bits = true → Utf8.valid (floatText bits) = true) :
    ∀ xs : List Json, textValidList xs = true →
      ∀ text ∈ renderList floatText xs, Utf8.valid text = true
  | [], _ => by simp [renderList]
  | x :: xs, h => by
    simp only [textValidList, Bool.and_eq_true] at h
    simp only [renderList, List.mem_cons, forall_eq_or_imp]
    exact ⟨valid_render hfloat x h.1, valid_renderList hfloat xs h.2⟩

/-- The texts of members whose texts are UTF-8 are UTF-8. -/
theorem valid_renderMembers
    (hfloat : ∀ bits, finiteBits bits = true → Utf8.valid (floatText bits) = true) :
    ∀ ms : List (Bytes × Json), textValidMembers ms = true →
      ∀ text ∈ renderMembers floatText ms, Utf8.valid text = true
  | [], _ => by simp [renderMembers]
  | (k, v) :: ms, h => by
    simp only [textValidMembers, Bool.and_eq_true] at h
    simp only [renderMembers, List.mem_cons, forall_eq_or_imp]
    refine ⟨?_, valid_renderMembers hfloat ms h.2⟩
    exact Utf8.valid_append (valid_quote h.1.1)
      (@Utf8.valid_append [0x3A] _ (by decide) (valid_render hfloat v h.1.2))

end

end

end PqtlsLab.Json
