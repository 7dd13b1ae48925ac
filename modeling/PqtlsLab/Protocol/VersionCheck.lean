import PqtlsLab.Foundation.JsonWriter
import PqtlsLab.Protocol.MessageParse
import PqtlsLab.Protocol.Utf8Check

/-!
# The version number of a message

`Message::parse` narrows the version number of the document to 32 bits before it compares it with
the version of the protocol. Of the numbers that the JSON library can hold, all that are congruent
to 1 modulo `2 ^ 32` therefore pass for version 1.
-/

namespace PqtlsLab.Message

/-- The narrowed number is 1 exactly for the numbers congruent to 1. -/
theorem ofInt_eq_kProtocolVersion_iff (v : ℤ) :
    Int32.ofInt v = kProtocolVersion ↔ v % 2 ^ 32 = 1 := by
  have hone : kProtocolVersion.toInt = 1 := by decide
  have hsize : ((Int32.size : ℕ) : ℤ) = 2 ^ 32 := by decide
  rw [← Int32.toInt_inj, Int32.toInt_ofInt, hone, Int.bmod_def, hsize]
  split <;> omega

/-- An accepted document holds a number that is congruent to 1. -/
theorem version_of_parseVersion {doc : JsonValue} {version : Int32} {v : ℤ}
    (h : parseVersion doc = .ok version)
    (hv : doc.val.get? (ascii "protocol_version") = some (.int v)) : v % 2 ^ 32 = 1 := by
  rw [parseVersion, bind_eq_ok_iff] at h
  obtain ⟨value, hvalue, h⟩ := h
  have hval : value.val = .int v := by
    have hfield := mandatoryField_eq_ok hvalue
    rw [hv, Option.some.injEq] at hfield
    exact hfield.symm
  simp only [JsonValue.int?, hval] at h
  split at h
  · cases h
  · rename_i hversion
    exact (ofInt_eq_kProtocolVersion_iff v).mp (not_not.mp hversion)

section

variable (v : ℤ) (hv : -2 ^ 63 ≤ v ∧ v < 2 ^ 64)

/-- The text of a `ping` with a given version number. -/
def versionText : Bytes :=
  ascii "\x7b\"protocol_version\":" ++ (decimalInt v ++ ascii ",\"type\":\"ping\"\x7d")

/-- The document of a `ping` with a given version number. -/
def versionDocument : JsonValue :=
  (JsonValue.null.set (ascii "protocol_version") ⟨.int v, hv⟩).set (ascii "type")
    (.string (ascii "ping"))

/-- A library that knows this text. -/
def versionLibrary : JsonLibrary := .ofTable [(versionText v, .ok (versionDocument v hv))]

/-- The document has the version number. -/
theorem versionDocument_version :
    (versionDocument v hv).val.get? (ascii "protocol_version") = some (.int v) := rfl

/-- The library delivers the document. -/
theorem versionLibrary_parse :
    (versionLibrary v hv).parse (versionText v) = .ok (versionDocument v hv) := by
  have hlookup : [(versionText v, Except.ok (versionDocument v hv))].lookup (versionText v) =
      some (.ok (versionDocument v hv) : Except JsonException JsonValue) := List.lookup_cons_self
  simp only [versionLibrary, JsonLibrary.ofTable, hlookup, Option.getD_some]

/-- The text passes the checks before the reader. -/
theorem versionText_valid : isValidUtf8 (versionText v) = true := by
  rw [isValidUtf8_eq_valid]
  have hopening : Utf8.valid (ascii "\x7b\"protocol_version\":") = true := by decide
  have hclosing : Utf8.valid (ascii ",\"type\":\"ping\"\x7d") = true := by decide
  exact Utf8.valid_append hopening (Utf8.valid_append (Json.valid_decimalInt v) hclosing)

/-- The document is accepted if its version number is congruent to 1. -/
theorem parse_versionText (hone : v % 2 ^ 32 = 1) :
    ∃ m, parse (versionLibrary v hv) Label.sample (versionText v) = .ok m := by
  have hversion : Int32.ofInt v = kProtocolVersion := (ofInt_eq_kProtocolVersion_iff v).mpr hone
  have hval : (versionDocument v hv).val = .object [(ascii "protocol_version", .int v),
      (ascii "type", .string (ascii "ping"))] := rfl
  have hnonempty : versionText v ≠ [] := by
    have hopening : ascii "\x7b\"protocol_version\":" ≠ [] := by decide
    simp [versionText, hopening]
  have hdepth : jsonDepth (versionDocument v hv).val 0 ≤ kMaxJsonDepth := by
    simp [hval, jsonDepth, jsonDepthMembers, kMaxJsonDepth]
  obtain ⟨m, hm⟩ : ∃ m, ofDocument Label.sample (versionDocument v hv) = .ok m := by
    simp only [ofDocument, bind_eq_ok_iff]
    exact ⟨_, _, parseVersion_of_get? (versionDocument_version v hv) hversion,
      .ping, parseType_of_get? rfl rfl,
      _, @parseMessageId_of_get? _ _ none rfl (by simp),
      _, @parseTimestamp_of_get? _ _ none rfl,
      _, @optionalString_of_get? _ _ none rfl _,
      _, @parsePayload_of_get? _ none rfl (by simp), (), rfl, rfl⟩
  exact ⟨m, parse_of_ofDocument hnonempty (versionText_valid v) (versionLibrary_parse v hv) rfl
    hdepth hm⟩

end

/-- For every number that the library can hold: only version 1 is accepted, whatever the document
and the reader, exactly when the number is 1 or not congruent to 1 modulo `2 ^ 32`. -/
theorem accepts_only_version_one_iff (v : ℤ) (hv : -2 ^ 63 ≤ v ∧ v < 2 ^ 64) :
    (∀ (lib : JsonLibrary) (label : Label) (text : Bytes) (doc : JsonValue) (m : Message),
        lib.parse text = .ok doc →
        doc.val.get? (ascii "protocol_version") = some (.int v) →
        parse lib label text = .ok m → v = 1) ↔
      v = 1 ∨ v % 2 ^ 32 ≠ 1 := by
  constructor
  · intro h
    by_cases hone : v % 2 ^ 32 = 1
    · obtain ⟨m, hm⟩ := parse_versionText v hv hone
      exact .inl (h _ _ _ _ m (versionLibrary_parse v hv) (versionDocument_version v hv) hm)
    · exact .inr hone
  · intro h lib label text doc m hparse hversion hm
    obtain ⟨doc', hparse', hdoc⟩ := parse_eq_ok hm
    rw [hparse, Except.ok.injEq] at hparse'
    subst hparse'
    simp only [ofDocument, bind_eq_ok_iff] at hdoc
    obtain ⟨version, hparseVersion, -⟩ := hdoc
    have hone := version_of_parseVersion hparseVersion hversion
    exact h.resolve_right (not_not.mpr hone)

/-- No document with version 2 is accepted. -/
theorem accepts_only_version_one_two :
    (2 : ℤ) % 2 ^ 32 ≠ 1 ∧
      ∀ (lib : JsonLibrary) (label : Label) (text : Bytes) (doc : JsonValue) (m : Message),
        lib.parse text = .ok doc →
        doc.val.get? (ascii "protocol_version") = some (.int 2) →
        parse lib label text = .ok m → (2 : ℤ) = 1 :=
  ⟨by decide, (accepts_only_version_one_iff 2 (by decide)).mpr (.inr (by decide))⟩

/-- A `ping` with version `2 ^ 32 + 1` is accepted. -/
theorem version_beyond_32_bits_accepted :
    ∃ (lib : JsonLibrary) (doc : JsonValue) (m : Message),
      lib.parse (versionText 4294967297) = .ok doc ∧
      doc.val.get? (ascii "protocol_version") = some (.int 4294967297) ∧
      parse lib Label.sample (versionText 4294967297) = .ok m ∧ (4294967297 : ℤ) ≠ 1 := by
  obtain ⟨m, hm⟩ := parse_versionText 4294967297 (by decide) (by decide)
  exact ⟨_, _, m, versionLibrary_parse _ _, versionDocument_version _ _, hm, by decide⟩

end PqtlsLab.Message
