import PqtlsLab.Connection.MetricsFile
import PqtlsLab.Foundation.JsonWriter
import PqtlsLab.Foundation.PythonText
import PqtlsLab.Validator.RecordRead

/-!
# Lines of records in Python

What a Python program sees of a file into which records have been written: each record on a line of
its own, which is read back as the record, and possibly a part of one more, which is not read as
anything.
-/

namespace PqtlsLab

/-- The text of a record, which is put on a line of its own. -/
def ConnectionMetrics.text (lib : JsonLibrary) (m : ConnectionMetrics) : Bytes :=
  m.toJson.val.render lib.floatText

namespace RecordLines

open Python MetricsFile

section Reading

variable {json : JsonModule} {lib : JsonLibrary}

/-- The text of a record is that of an object. -/
theorem text_eq_render (m : ConnectionMetrics) :
    m.text lib = (Json.object m.toJson.members).render lib.floatText := by
  have hobject : m.toJson.val = .object m.toJson.members :=
    JsonValue.foldl_set_eq_object (List.cons_ne_nil _ _) JsonValue.null
  rw [ConnectionMetrics.text, hobject]

/-- The text of a record stands between braces. -/
theorem exists_text_eq_braces (m : ConnectionMetrics) :
    ∃ inner, m.text lib = 0x7B :: inner ++ [0x7D] := by
  rw [text_eq_render, Json.render]
  exact ⟨_, rfl⟩

/-- The line of a record is its text and a newline. -/
theorem line_eq_text_append (m : ConnectionMetrics) : line lib m = m.text lib ++ [0x0A] := rfl

/-- The lines of records consist of their texts. -/
theorem flatMap_line (records : List ConnectionMetrics) :
    records.flatMap (line lib) =
      (records.map fun m => m.text lib).flatMap fun text => text ++ [0x0A] := by
  rw [List.flatMap_map]
  rfl

variable (hnumbers : ReadsNumbers json.toFloat lib.floatText)

include hnumbers

/-- The text of a record that can be written is UTF-8. -/
theorem valid_text {m : ConnectionMetrics} (h : m.TextValid) :
    Utf8.valid (m.text lib) = true := by
  have hascii : ∀ b : UInt8, JsonReader.isNumberByte b = true → b < 0x80 :=
    forall_byte (by decide +kernel)
  exact Json.valid_render
    (fun bits hfinite => Utf8.valid_of_ascii fun b hb =>
      hascii b (hnumbers.writesNumbers bits hfinite b hb))
    _ (m.textValid_toJson_iff.mpr h)

/-- The lines of records that can be written are UTF-8. -/
theorem valid_flatMap_line {records : List ConnectionMetrics} (h : ∀ m ∈ records, m.TextValid) :
    Utf8.valid (records.flatMap (line lib)) = true := by
  induction records with
  | nil => rfl
  | cons m records ih =>
    rw [List.flatMap_cons, line_eq_text_append]
    exact Utf8.valid_append (Utf8.valid_append (valid_text hnumbers (h m (by simp))) rfl)
      (ih fun m' hm' => h m' (by simp [hm']))

/-- The text of a record is on one line. -/
theorem oneLine_text (m : ConnectionMetrics) : OneLine (m.text lib) :=
  oneLine_render hnumbers.writesNumbers _

/-- A record is read back from its text. -/
theorem load_text (m : ConnectionMetrics) :
    json.load (m.text lib) = some (.object m.loadedRecord) := by
  have hread := JsonReader.read_render hnumbers.understands m.toJson.wellFormed
  rw [m.loaded_toJson] at hread
  exact hread

/-- The beginning of the text of a record is not the text of a value. -/
theorem load_torn {m : ConnectionMetrics} {part : Bytes} (hpart : part <+: m.text lib)
    (hne : part ≠ m.text lib) : json.load part = none := by
  rw [text_eq_render] at hpart hne
  exact JsonReader.read_torn hnumbers.writesNumbers _ hpart hne

/-- The text of a record is not the text of a value together with a part of another one before
it. -/
theorem load_torn_append {m : ConnectionMetrics} (m' : ConnectionMetrics) {part : Bytes}
    (hne : part ≠ []) (hpart : part <+: m.text lib) : json.load (part ++ m'.text lib) = none := by
  have hobject : m.toJson.val = .object m.toJson.members :=
    JsonValue.foldl_set_eq_object (List.cons_ne_nil _ _) JsonValue.null
  rw [text_eq_render] at hpart ⊢
  exact JsonReader.read_torn_append hnumbers.understands hnumbers.writesNumbers
    (hobject ▸ m.toJson.wellFormed) _ hne hpart

/-- The numbered lines of a file that begins with the lines of records. -/
theorem strippedLines_flatMap_line (records : List ConnectionMetrics) (n : ℕ) (rest : Bytes) :
    strippedLines n (lines (records.flatMap (line lib) ++ rest)) =
      ((records.map fun m => m.text lib).zipIdx n).map Prod.swap ++
        strippedLines (n + records.length) (lines rest) := by
  have htexts : ∀ text ∈ records.map fun m => m.text lib,
      OneLine text ∧ ∃ inner, text = 0x7B :: inner ++ [0x7D] := by
    intro text htext
    obtain ⟨m, -, rfl⟩ := List.mem_map.mp htext
    exact ⟨oneLine_text hnumbers m, exists_text_eq_braces m⟩
  rw [flatMap_line, strippedLines_append htexts, List.length_map]

/-- A part of the text of a record is a line without a record, if it is a line at all. -/
theorem strippedLines_torn {m : ConnectionMetrics} {part : Bytes} (hpart : part <+: m.text lib)
    (hne : part ≠ []) (hlt : part ≠ m.text lib) (n : ℕ) :
    strippedLines n (lines part) = [] ∨
      ∃ text, json.load text = none ∧ strippedLines n (lines part) = [(n, text)] := by
  obtain ⟨inner, hinner⟩ := @exists_text_eq_braces lib m
  obtain ⟨b, rest, rfl⟩ := List.exists_cons_of_ne_nil hne
  obtain rfl : b = 0x7B := by
    rw [hinner] at hpart
    exact (List.cons_prefix_cons.mp hpart).1
  have hstrip : strip (0x7B :: rest) <+: m.text lib := (strip_isPrefix rest).trans hpart
  have hshort : strip (0x7B :: rest) ≠ m.text lib := by
    intro heq
    exact hlt (hpart.eq_of_length_le (heq ▸ (strip_isPrefix rest).length_le))
  rw [lines_of_oneLine ((oneLine_text hnumbers m).of_isPrefix hpart) hne, strippedLines_singleton]
  split
  · exact .inl rfl
  · exact .inr ⟨_, load_torn hnumbers hstrip hshort, rfl⟩

/-- The whole text of a record is a line, with or without the newline. -/
theorem strippedLines_text (m : ConnectionMetrics) (n : ℕ) :
    strippedLines n (lines (m.text lib)) = [(n, m.text lib)] := by
  obtain ⟨inner, hinner⟩ := @exists_text_eq_braces lib m
  have hne : m.text lib ≠ [] := by simp [hinner]
  have hstrip : strip (m.text lib) = m.text lib := by rw [hinner, strip_braces]
  rw [lines_of_oneLine (oneLine_text hnumbers m) hne, strippedLines_singleton, hstrip,
    if_neg (by simpa using hne)]

/-- What the beginning of the line of a record amounts to: the whole text, which may lack its
newline, or nothing that can be read. -/
theorem strippedLines_part {m : ConnectionMetrics} {part : Bytes} (hpart : part <+: line lib m)
    (n : ℕ) :
    (m.text lib <+: part ∧ strippedLines n (lines part) = [(n, m.text lib)]) ∨
      ¬ m.text lib <+: part ∧ (strippedLines n (lines part) = [] ∨
        ∃ text, json.load text = none ∧ strippedLines n (lines part) = [(n, text)]) := by
  rcases List.prefix_concat_iff.mp (line_eq_text_append m ▸ hpart) with rfl | hpart
  · have hlines := strippedLines_flatMap_line hnumbers [m] n []
    rw [List.flatMap_singleton, List.append_nil] at hlines
    exact .inl ⟨List.prefix_append _ _, hlines⟩
  · by_cases hwhole : part = m.text lib
    · subst hwhole
      exact .inl ⟨List.prefix_rfl, strippedLines_text hnumbers m n⟩
    · have hshort : ¬ m.text lib <+: part := fun hlong =>
        hwhole (hpart.eq_of_length_le hlong.length_le)
      by_cases hne : part = []
      · subst hne
        exact .inr ⟨hshort, .inl rfl⟩
      · exact .inr ⟨hshort, strippedLines_torn hnumbers hpart hne hwhole n⟩

end Reading

/-- A library that writes a binary64 number as the number of its bits, which is right for zero. -/
def bitsLibrary : JsonLibrary :=
  { JsonLibrary.ofTable [] with floatText := fun bits => decimal bits.toNat ++ ascii ".0" }

/-- The reader for such numbers. -/
def bitsJson : JsonModule where
  toFloat literal := .ofNat (digitsValue (literal.takeWhile JsonReader.isDigit))
  message _ := ascii "Expecting value"
  errorText _ := ascii "Expecting value: line 1 column 1 (char 0)"

/-- The reader reads what the library writes. -/
theorem readsNumbers_bits : ReadsNumbers bitsJson.toFloat bitsLibrary.floatText := by
  have hdigits (n : ℕ) : ∀ b ∈ decimal n, JsonReader.isDigit b = true :=
    fun b hb => isDigit_of_mem_decimal hb
  constructor
  · intro bits _
    obtain ⟨b, rest, hdecimal⟩ := List.exists_cons_of_ne_nil (decimal_ne_nil bits.toNat)
    have hall := hdigits bits.toNat
    rw [hdecimal] at hall
    have hbyte (c : UInt8) (hc : JsonReader.isDigit c = true) :
        JsonReader.isNumberByte c = true := by
      simp [JsonReader.isNumberByte, hc]
    refine ⟨b, rest ++ ascii ".0", ?_, by simp [JsonReader.startsNumber, hall], ?_⟩
    · rw [← List.cons_append, ← hdecimal]
      rfl
    · intro c hc
      rcases List.mem_append.mp hc with hc | hc
      · exact hbyte c (hall c (by simp [hc]))
      · exact List.all_eq_true.mp (by decide : (ascii ".0").all JsonReader.isNumberByte = true) c hc
  · intro bits _
    have hdot : ∀ b ∈ (ascii ".0").head?, JsonReader.isDigit b = false := by
      intro b hb
      obtain rfl : 0x2E = b := Option.some.inj hb
      rfl
    have htake := (decimal_span bits.toNat hdot).1
    have hinteger : integerPart (decimal bits.toNat ++ ascii ".0") =
        some ((bits.toNat : ℤ), ascii ".0") := integerPart_decimal_append _ hdot
    change Python.number bitsJson.toFloat (decimal bits.toNat ++ ascii ".0") = _
    rw [Python.number, hinteger]
    change some (Json.float (UInt64.ofNat (digitsValue
      ((decimal bits.toNat ++ ascii ".0").takeWhile JsonReader.isDigit)))) = _
    rw [htake, digitsValue_decimal, UInt64.ofNat_toNat]

end RecordLines

end PqtlsLab
