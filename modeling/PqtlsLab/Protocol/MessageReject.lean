import PqtlsLab.Protocol.MessageParse
import Mathlib.Tactic.IntervalCases

/-!
# The reasons for which a message is rejected

Most rejections state a reason that quotes nothing longer than a number, and such a
reason is short plain text. The two that quote the document are singled out, because
their length and their encoding depend on the sender.
-/

namespace PqtlsLab

/-- A decimal digit is plain text. -/
theorem plain_of_bounds {b : UInt8} (hlow : 0x30 ≤ b) (hhigh : b ≤ 0x39) :
    b < 0x80 ∧ Json.escape b = [b] := by
  rw [UInt8.le_iff_toNat_le] at hlow hhigh
  have hb : b = UInt8.ofNat b.toNat := (UInt8.ofNat_toNat).symm
  generalize b.toNat = n at hlow hhigh hb
  subst hb
  simp only [UInt8.reduceToNat] at hlow hhigh
  interval_cases n <;> decide

/-- Decimal numbers are plain text. -/
theorem plain_decimal (n : ℕ) : Json.Plain (decimal n) := by
  intro b hb
  obtain ⟨hlow, hhigh⟩ := mem_decimal_bounds hb
  exact plain_of_bounds hlow hhigh

/-- Signed decimal numbers are plain text. -/
theorem plain_decimalInt (i : ℤ) : Json.Plain (decimalInt i) := by
  unfold decimalInt
  split
  · exact @Json.Plain.append [0x2D] _ (by decide) (plain_decimal _)
  · exact plain_decimal _

/-- A 32-bit number has at most ten digits and a sign. -/
theorem length_decimalInt_le (v : Int32) : (decimalInt v.toInt).length ≤ 11 := by
  have hlow := v.le_toInt
  have hhigh := v.toInt_lt
  have hdigits : (decimal v.toInt.natAbs).length ≤ 10 := by
    rw [decimal, List.length_map, Nat.length_toDigits_le_iff (by decide) (by decide)]
    omega
  unfold decimalInt
  split
  · simp only [List.length_cons]
    omega
  · omega

namespace Message

/-- A reason that is short plain text. -/
structure ShortReason (reason : Bytes) : Prop where
  plain : Json.Plain reason
  length_le : reason.length ≤ 96

/-- A rejection with a short reason. -/
def ShortRejection (e : Thrown) : Prop := ∃ reason, ShortReason reason ∧ e = protocolError reason

/-- The reason for malformed text. -/
def malformedReason (what : Bytes) : Bytes :=
  ascii "application message is not valid JSON: " ++ what

/-- The reason for a type that is not one of the protocol's. -/
def unknownTypeReason (name : Bytes) : Bytes :=
  ascii "unknown message type '" ++ name ++ ascii "'"

/-- The version of the document is accepted and its type is a name that the protocol does
not know. -/
def UnknownType (doc : JsonValue) (name : Bytes) : Prop :=
  parseVersion doc = .ok kProtocolVersion ∧
    doc.val.get? (ascii "type") = some (.string name) ∧ messageTypeFromString name = none

/-- A fixed text is a short reason. -/
theorem shortRejection_of_plain {reason : Bytes} (hplain : Json.Plain reason)
    (hlength : reason.length ≤ 96) : ShortRejection (protocolError reason) :=
  ⟨reason, ⟨hplain, hlength⟩, rfl⟩

/-- A missing field is reported in a short reason, if its name is short and plain. -/
theorem shortRejection_mandatoryField {doc : JsonValue} {field : Bytes} {e : Thrown}
    (hplain : Json.Plain field) (hlength : field.length ≤ 16)
    (h : mandatoryField doc field = .error e) : ShortRejection e := by
  unfold mandatoryField at h
  split at h
  · cases h
  · cases h
    apply shortRejection_of_plain
    · exact (Json.Plain.append (by decide) hplain).append (by decide)
    · have hopening :
          (ascii "application message is missing the mandatory field '").length = 52 := by decide
      have hquote : (ascii "'").length = 1 := by decide
      simp only [List.length_append, hopening, hquote]
      omega

/-- The version field, rejected. -/
theorem shortRejection_parseVersion {doc : JsonValue} {e : Thrown}
    (h : parseVersion doc = .error e) : ShortRejection e := by
  rw [parseVersion, bind_eq_error_iff] at h
  rcases h with h | ⟨v, -, h⟩
  · exact shortRejection_mandatoryField (by decide) (by decide) h
  · split at h
    · cases h
      exact shortRejection_of_plain (by decide) (by decide)
    · rename_i i hint
      simp only at h
      split at h
      · cases h
        apply shortRejection_of_plain
        · exact (((Json.Plain.append (by decide) (plain_decimalInt _)).append (by decide)).append
            (by decide)).append (by decide)
        · have hversion := length_decimalInt_le (Int32.ofInt i)
          have hrest : (ascii "unsupported protocol version ").length = 29 ∧
              (ascii "; this build speaks ").length = 20 ∧
              (decimalInt kProtocolVersion.toInt).length = 1 ∧ (ascii " only").length = 5 := by
            decide
          simp only [List.length_append, hrest]
          omega
      · cases h

/-- The type field, rejected: it is not a string, or not a known name. -/
theorem parseType_eq_error {doc : JsonValue} {e : Thrown} (h : parseType doc = .error e) :
    (∃ name, doc.val.get? (ascii "type") = some (.string name) ∧
        messageTypeFromString name = none ∧ e = protocolError (unknownTypeReason name)) ∨
      (∀ name, doc.val.get? (ascii "type") ≠ some (.string name)) ∧ ShortRejection e := by
  rw [parseType, bind_eq_error_iff] at h
  rcases h with h | ⟨v, hv, h⟩
  · right
    refine ⟨?_, shortRejection_mandatoryField (by decide) (by decide) h⟩
    intro name hname
    unfold mandatoryField at h
    cases hget : doc.get? (ascii "type") with
    | none =>
      rw [(JsonValue.get?_eq_none_iff _ _).mp hget] at hname
      cases hname
    | some w => simp [hget] at h
  · rw [mandatoryField_eq_ok hv]
    obtain ⟨tree, htreewf⟩ := v
    cases tree with
    | string name =>
      left
      refine ⟨name, rfl, ?_⟩
      simp only [requireString, JsonValue.string?, bind, Except.bind] at h
      cases htype : messageTypeFromString name with
      | some t => simp [htype] at h
      | none =>
        simp only [htype, Except.error.injEq] at h
        exact ⟨rfl, h.symm⟩
    | _ =>
      right
      simp only [requireString, JsonValue.string?, bind, Except.bind, Except.error.injEq] at h
      exact ⟨by simp, h ▸ shortRejection_of_plain (by decide) (by decide)⟩

/-- An optional string field is rejected with the text that is given for it. -/
theorem shortRejection_optionalString {doc : JsonValue} {field message : Bytes} {e : Thrown}
    (hplain : Json.Plain message) (hlength : message.length ≤ 96)
    (h : optionalString doc field message = .error e) : ShortRejection e := by
  rw [optionalString_eq_error h]
  exact shortRejection_of_plain hplain hlength

/-- The identifier field, rejected. -/
theorem shortRejection_parseMessageId {label : Label} {doc : JsonValue} {e : Thrown}
    (h : parseMessageId label doc = .error e) : ShortRejection e := by
  rw [parseMessageId, bind_eq_error_iff] at h
  rcases h with h | ⟨value, -, h⟩
  · exact shortRejection_optionalString (by decide) (by decide) h
  · split at h
    · cases h
    · split at h
      · cases h
        exact shortRejection_of_plain (by decide) (by decide)
      · cases h

/-- The timestamp field, rejected. -/
theorem shortRejection_parseTimestamp {label : Label} {doc : JsonValue} {e : Thrown}
    (h : parseTimestamp label doc = .error e) : ShortRejection e := by
  rw [parseTimestamp, bind_eq_error_iff] at h
  rcases h with h | ⟨value, -, h⟩
  · exact shortRejection_optionalString (by decide) (by decide) h
  · cases h

/-- The payload field, rejected. -/
theorem shortRejection_parsePayload {doc : JsonValue} {e : Thrown}
    (h : parsePayload doc = .error e) : ShortRejection e := by
  unfold parsePayload at h
  split at h
  · cases h
  · split at h
    · cases h
    · cases h
      exact shortRejection_of_plain (by decide) (by decide)

/-- The field of telemetry messages, rejected. -/
theorem shortRejection_checkTelemetry {type : MessageType} {payload : JsonValue} {e : Thrown}
    (h : checkTelemetry type payload = .error e) : ShortRejection e := by
  unfold checkTelemetry at h
  split at h
  · cases h
    exact shortRejection_of_plain (by decide) (by decide)
  · cases h

/-- A document whose type is not accepted has no known type. -/
theorem not_unknownType_of_parseType {doc : JsonValue} {type : MessageType}
    (h : parseType doc = .ok type) (name : Bytes) : ¬ UnknownType doc name := by
  rintro ⟨-, hname, hunknown⟩
  obtain ⟨known, hknown, htype⟩ := parseType_eq_ok h
  rw [hknown, Option.some.injEq, Json.string.injEq] at hname
  subst hname
  rw [hunknown] at htype
  cases htype

/-- How the checks on a document reject it. -/
theorem ofDocument_eq_error {label : Label} {doc : JsonValue} {e : Thrown}
    (h : ofDocument label doc = .error e) :
    (∃ name, UnknownType doc name ∧ e = protocolError (unknownTypeReason name)) ∨
      (∀ name, ¬ UnknownType doc name) ∧ ShortRejection e := by
  unfold ofDocument at h
  rw [bind_eq_error_iff] at h
  rcases h with h | ⟨version, hversion, h⟩
  · right
    refine ⟨?_, shortRejection_parseVersion h⟩
    rintro name ⟨hok, -⟩
    rw [h] at hok
    cases hok
  obtain rfl := parseVersion_eq_ok hversion
  rw [bind_eq_error_iff] at h
  rcases h with h | ⟨type, htype, h⟩
  · rcases parseType_eq_error h with ⟨name, hname, hunknown, he⟩ | ⟨hnone, he⟩
    · exact .inl ⟨name, ⟨hversion, hname, hunknown⟩, he⟩
    · exact .inr ⟨fun name hname => hnone name hname.2.1, he⟩
  refine .inr ⟨not_unknownType_of_parseType htype, ?_⟩
  simp only [bind_eq_error_iff] at h
  rcases h with h | ⟨id, -, h | ⟨timestamp, -, h | ⟨status, -, h | ⟨payload, -, h | ⟨_, -, h⟩⟩⟩⟩⟩
  · exact shortRejection_parseMessageId h
  · exact shortRejection_parseTimestamp h
  · exact shortRejection_optionalString (by decide) (by decide) h
  · exact shortRejection_parsePayload h
  · exact shortRejection_checkTelemetry h
  · cases h

/-- The text is offered to the JSON reader. -/
def Offered (text : Bytes) : Prop := text ≠ [] ∧ isValidUtf8 text = true

/-- The document passes the checks that precede those of its fields. -/
def Shaped (doc : JsonValue) : Prop :=
  doc.isObject = true ∧ jsonDepth doc.val 0 ≤ kMaxJsonDepth

/-- How a text is rejected: as malformed, by an exception of the reader that nothing
translates, for an unknown type, or for a short reason. -/
theorem parse_eq_error {lib : JsonLibrary} {label : Label} {text : Bytes} {e : Thrown}
    (h : parse lib label text = .error e) :
    (Offered text ∧ ∃ what, lib.parse text = .error (.parseError what) ∧
        e = protocolError (malformedReason what)) ∨
      (Offered text ∧ ∃ x, lib.parse text = .error x ∧ (∀ what, x ≠ .parseError what) ∧
        e = x.toThrown) ∨
      (Offered text ∧ ∃ doc name, lib.parse text = .ok doc ∧ Shaped doc ∧ UnknownType doc name ∧
        e = protocolError (unknownTypeReason name)) ∨
      ((Offered text → ∃ doc, lib.parse text = .ok doc ∧
        (Shaped doc → ∀ name, ¬ UnknownType doc name)) ∧ ShortRejection e) := by
  unfold parse at h
  by_cases hempty : text.isEmpty = true
  · rw [if_pos hempty] at h
    cases h
    refine .inr (.inr (.inr ⟨?_, shortRejection_of_plain (by decide) (by decide)⟩))
    rintro ⟨hne, -⟩
    exact absurd (List.isEmpty_iff.mp hempty) hne
  rw [if_neg hempty] at h
  by_cases hutf8 : isValidUtf8 text = true
  swap
  · rw [if_pos hutf8] at h
    cases h
    refine .inr (.inr (.inr ⟨?_, shortRejection_of_plain (by decide) (by decide)⟩))
    rintro ⟨-, hvalid⟩
    exact absurd hvalid hutf8
  have hoffered : Offered text := ⟨fun hnil => hempty (List.isEmpty_iff.mpr hnil), hutf8⟩
  rw [if_neg (not_not.mpr hutf8)] at h
  unfold parseDocument at h
  cases hparse : lib.parse text with
  | error x =>
    simp only [hparse] at h
    cases x with
    | parseError what =>
      cases h
      exact .inl ⟨hoffered, what, rfl, rfl⟩
    | outOfRange what =>
      cases h
      exact .inr (.inl ⟨hoffered, _, rfl, by simp, rfl⟩)
    | typeError what =>
      cases h
      exact .inr (.inl ⟨hoffered, _, rfl, by simp, rfl⟩)
  | ok doc =>
    simp only [hparse] at h
    by_cases hobject : doc.isObject = true
    swap
    · rw [if_pos hobject] at h
      cases h
      refine .inr (.inr (.inr ⟨fun _ => ⟨doc, rfl, ?_⟩,
        shortRejection_of_plain (by decide) (by decide)⟩))
      rintro ⟨hshape, -⟩
      exact absurd hshape hobject
    rw [if_neg (not_not.mpr hobject)] at h
    by_cases hdeep : jsonDepth doc.val 0 > kMaxJsonDepth
    · rw [if_pos hdeep] at h
      cases h
      refine .inr (.inr (.inr ⟨fun _ => ⟨doc, rfl, ?_⟩,
        shortRejection_of_plain (by decide) (by decide)⟩))
      rintro ⟨-, hshape⟩
      omega
    rw [if_neg hdeep] at h
    have hshaped : Shaped doc := ⟨hobject, Nat.le_of_not_lt hdeep⟩
    rcases ofDocument_eq_error h with ⟨name, hname, he⟩ | ⟨hnone, he⟩
    · exact .inr (.inr (.inl ⟨hoffered, doc, name, rfl, hshaped, hname, he⟩))
    · exact .inr (.inr (.inr ⟨fun _ => ⟨doc, rfl, fun _ => hnone⟩, he⟩))

/-- Every rejection but that by an exception of the reader is a `ProtocolError`. -/
theorem ShortRejection.exists_reason {e : Thrown} (h : ShortRejection e) :
    ∃ reason, e = protocolError reason := by
  obtain ⟨reason, -, he⟩ := h
  exact ⟨reason, he⟩

/-- Parsing returns a message or fails with a `ProtocolError`, for a reader that throws what it
documents, exactly when the reader does not get to see a number that overflows. -/
theorem parse_only_protocolError_iff {lib : JsonLibrary} (hlib : lib.ThrowsAsDocumented)
    (label : Label) (text : Bytes) :
    ((∃ m, parse lib label text = .ok m) ∨
        ∃ reason, parse lib label text = .error (protocolError reason)) ↔
      (Offered text → ∀ what, lib.parse text ≠ .error (.outOfRange what)) := by
  constructor
  · rintro hresult hoffered what hoverflow
    have hnonempty : ¬ text.isEmpty = true := fun h => hoffered.1 (List.isEmpty_iff.mp h)
    have hparse : parse lib label text = .error (.exception what) := by
      simp only [parse, if_neg hnonempty, hoffered.2, not_true_eq_false, if_false, parseDocument,
        hoverflow, JsonException.toThrown]
    rcases hresult with ⟨m, hm⟩ | ⟨reason, hreason⟩
    · rw [hparse] at hm
      cases hm
    · rw [hparse] at hreason
      cases hreason
  · intro h
    cases hparse : parse lib label text with
    | ok m => exact .inl ⟨m, rfl⟩
    | error e =>
      right
      rcases parse_eq_error hparse with ⟨-, what, -, rfl⟩ | ⟨hoffered, x, hx, hnot, -⟩ |
        ⟨-, doc, name, -, -, -, rfl⟩ | ⟨-, hshort⟩
      · exact ⟨_, rfl⟩
      · rcases hlib text x hx with ⟨what, rfl⟩ | ⟨what, rfl⟩
        · exact absurd rfl (hnot what)
        · exact absurd hx (h hoffered what)
      · exact ⟨_, rfl⟩
      · obtain ⟨reason, rfl⟩ := hshort.exists_reason
        exact ⟨reason, rfl⟩

/-- A `ping` with a number that no `double` can hold. -/
def overflowing : Bytes :=
  ascii "\x7b\"protocol_version\":1,\"type\":\"ping\",\"payload\":\x7b\"n\":1e400\x7d\x7d"

/-- A library that knows this text besides the shortest messages. -/
def overflowLibrary : JsonLibrary :=
  .ofTable [(overflowing, .error (.outOfRange
      (ascii "[json.exception.out_of_range.406] number overflow parsing '1e400'"))),
    (minimalText .ping, .ok (minimalDocument .ping))]

/-- The library throws what the reader documents. -/
theorem overflowLibrary_throwsAsDocumented : overflowLibrary.ThrowsAsDocumented := by
  apply JsonLibrary.ofTable_throwsAsDocumented
  intro entry hentry x hx
  simp only [List.mem_cons, List.not_mem_nil, or_false] at hentry
  rcases hentry with rfl | rfl
  · cases hx
    exact .inr ⟨_, rfl⟩
  · cases hx

/-- The text with the overflowing number makes `Message::parse` throw the exception of the
reader. -/
theorem parse_overflowing : overflowLibrary.ThrowsAsDocumented ∧
    parse overflowLibrary Label.sample overflowing = .error (.exception
      (ascii "[json.exception.out_of_range.406] number overflow parsing '1e400'")) ∧
    ¬ ((∃ m, parse overflowLibrary Label.sample overflowing = .ok m) ∨
      ∃ reason, parse overflowLibrary Label.sample overflowing =
        .error (protocolError reason)) := by
  have hparse : parse overflowLibrary Label.sample overflowing = .error (.exception
      (ascii "[json.exception.out_of_range.406] number overflow parsing '1e400'")) := by
    rfl
  refine ⟨overflowLibrary_throwsAsDocumented, hparse, ?_⟩
  rw [hparse]
  rintro (⟨m, hm⟩ | ⟨reason, hreason⟩)
  · cases hm
  · cases hreason

/-- For the shortest `ping` the same library lets parsing return. -/
theorem parse_only_protocolError_ping :
    (∃ m, parse overflowLibrary Label.sample (minimalText .ping) = .ok m) ∨
      ∃ reason, parse overflowLibrary Label.sample (minimalText .ping) =
        .error (protocolError reason) := by
  refine (parse_only_protocolError_iff overflowLibrary_throwsAsDocumented Label.sample _).mpr ?_
  intro _ what h
  have hok : overflowLibrary.parse (minimalText .ping) = .ok (minimalDocument .ping) := by rfl
  rw [hok] at h
  cases h

/-- A text that is not JSON and begins with a character of two bytes. -/
def accented : Bytes := [0xC3, 0xA9]

/-- What the reader says about it: the complaint quotes the byte at which it stopped. -/
def accentedComplaint : Bytes :=
  ascii "[json.exception.parse_error.101] parse error at line 1, column 1: syntax error " ++
    ascii "while parsing value - invalid literal; last read: '" ++ [0xC3] ++ ascii "'"

/-- A library that knows what to say about this text. -/
def accentedLibrary : JsonLibrary := .ofTable [(accented, .error (.parseError accentedComplaint))]

/-- The library delivers nothing. -/
theorem accentedLibrary_readsUtf8 : accentedLibrary.ReadsUtf8 := by
  apply JsonLibrary.ofTable_readsUtf8
  intro entry hentry j hj
  rw [List.mem_singleton] at hentry
  subst hentry
  cases hj

end Message

end PqtlsLab
