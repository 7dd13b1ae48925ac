import PqtlsLab.Foundation.JsonWriter
import PqtlsLab.Protocol.MessageParse
import PqtlsLab.Protocol.Nesting
import PqtlsLab.Protocol.Utf8Check

/-!
# Messages that survive the wire

The messages that `Message::parse` can deliver are described by a handful of conditions, and every
message that satisfies them is read back from its text as it was. Its text is UTF-8, its document is
an object within the limit on nesting, and each of its fields is found and accepted. The empty
payload is not written and comes back as the default.
-/

namespace PqtlsLab

open Json (nodesAt)

/-- The reader delivers finite numbers only: a literal that overflows makes it throw. -/
def JsonLibrary.ReadsFinite (lib : JsonLibrary) : Prop :=
  ∀ text j, lib.parse text = .ok j → j.val.numbersFinite = true

/-- The writer gives finite numbers a decimal form in UTF-8. -/
def JsonLibrary.WritesUtf8 (lib : JsonLibrary) : Prop :=
  ∀ bits, Json.finiteBits bits = true → Utf8.valid (lib.floatText bits) = true

/-- The reader inverts the writer on a value, unless the value holds text that is not UTF-8 or
numbers that are not finite. -/
def JsonLibrary.InvertsDump (lib : JsonLibrary) (j : JsonValue) : Prop :=
  j.val.textValid = true → j.val.numbersFinite = true →
    ∀ text, lib.dump j.val = .ok text → lib.parse text = .ok j

namespace Message

/-- The messages that travel: the current version, an identifier of at most 128 bytes, text in
UTF-8, finite numbers, an object as payload, a document without nodes more than 16 edges below its
root, and a device for telemetry. -/
structure OnWire (m : Message) : Prop where
  version : m.protocolVersion = kProtocolVersion
  length_messageId : m.messageId.length ≤ 128
  text : m.toJson.val.textValid = true
  numbers : m.toJson.val.numbersFinite = true
  object : m.payload.isObject = true
  depth : nodesAt 17 m.toJson.val = []
  device : m.type = .telemetry →
    ∃ device, m.payload.val.get? (ascii "device_id") = some (.string device)

/-- Of the nodes of a document, only those of the payload can lie deep. -/
theorem nodesAt_toJson_eq_nil_iff (m : Message) : nodesAt 17 m.toJson.val = [] ↔
    (m.payload.hasMembers = true → nodesAt 16 m.payload.val = []) := by
  have hstring (s : Bytes) : nodesAt 16 (.string s) = [] := rfl
  have hint (i : ℤ) : nodesAt 16 (.int i) = [] := rfl
  rw [toJson_val, nodesAt, Json.children, List.flatMap_eq_nil_iff]
  unfold members
  cases m.status <;> cases m.payload.hasMembers <;>
    simp [hstring, hint]

/-- Of the numbers in a document, only those of the payload may fail to be finite. -/
theorem numbersFinite_toJson_iff (m : Message) : m.toJson.val.numbersFinite = true ↔
    (m.payload.hasMembers = true → m.payload.val.numbersFinite = true) := by
  rw [toJson_val, Json.numbersFinite]
  unfold members
  cases m.status <;> cases m.payload.hasMembers <;>
    simp [Json.numbersFiniteMembers, Json.numbersFinite]

/-- An accepted identifier is within the limit. -/
theorem length_of_parseMessageId {label : Label} {doc : JsonValue} {id : Bytes}
    (h : parseMessageId label doc = .ok id) : id.length ≤ 128 := by
  rw [parseMessageId, bind_eq_ok_iff] at h
  obtain ⟨value, -, h⟩ := h
  cases value with
  | none =>
    cases h
    rw [length_generateUuidV4]
    decide
  | some s =>
    simp only at h
    split at h
    · cases h
    · rename_i hlength
      cases h
      exact Nat.le_of_not_lt hlength

/-- Accepted telemetry names its device. -/
theorem checkTelemetry_eq_ok_iff (type : MessageType) (payload : JsonValue) :
    checkTelemetry type payload = .ok () ↔ (type = .telemetry →
      ∃ device, payload.val.get? (ascii "device_id") = some (.string device)) := by
  have hdevice : (payload.get? (ascii "device_id")).bind JsonValue.string? = none ↔
      ¬ ∃ device, payload.val.get? (ascii "device_id") = some (.string device) := by
    cases hget : payload.get? (ascii "device_id") with
    | none =>
      have hnone := (JsonValue.get?_eq_none_iff _ _).mp hget
      simp [hnone]
    | some v =>
      have hsome := (JsonValue.get?_eq_some_iff _ _ _).mp hget
      rw [hsome]
      obtain ⟨tree, hwf⟩ := v
      cases tree <;> simp [JsonValue.string?]
  unfold checkTelemetry
  split
  · rename_i hmissing
    simp only [reduceCtorEq, false_iff]
    exact fun h => hdevice.mp hmissing.2 (h hmissing.1)
  · rename_i hmissing
    simp only [true_iff]
    intro htype
    by_contra hnone
    exact hmissing ⟨htype, hdevice.mpr hnone⟩

/-- An accepted text holds a document within the limit on nesting. -/
theorem exists_document_of_parse {lib : JsonLibrary} {label : Label} {text : Bytes} {m : Message}
    (h : parse lib label text = .ok m) : ∃ doc, lib.parse text = .ok doc ∧
      nodesAt 17 doc.val = [] ∧ ofDocument label doc = .ok m := by
  obtain ⟨doc, hparse, hdoc⟩ := parse_eq_ok h
  refine ⟨doc, hparse, ?_, hdoc⟩
  by_contra hdeep
  have hexceeds : jsonDepth doc.val 0 > kMaxJsonDepth := (exceedsDepth_iff doc).mpr hdeep
  unfold parse at h
  simp only [parseDocument, hparse, if_pos hexceeds] at h
  repeat' split at h
  all_goals cases h

/-- Every message that `Message::parse` delivers is one that travels. -/
theorem onWire_of_parse {lib : JsonLibrary} (hutf8 : lib.ReadsUtf8) (hfinite : lib.ReadsFinite)
    {label : Label} {text : Bytes} {m : Message} (h : parse lib label text = .ok m) :
    m.OnWire := by
  obtain ⟨doc, hparse, hshallow, hdoc⟩ := exists_document_of_parse h
  have hread := readFrom_of_ofDocument hdoc
  have hpayload : m.payload.hasMembers = true →
      doc.val.get? (ascii "payload") = some m.payload.val := by
    intro hmembers
    rcases hread.payload with ⟨hget, -⟩ | ⟨-, hempty⟩
    · exact hget
    · rw [hempty] at hmembers
      cases hmembers
  simp only [ofDocument, bind_eq_ok_iff] at hdoc
  obtain ⟨version, -, type, -, id, hid, timestamp, -, status, -, payload, -, u, htelemetry, hm⟩ :=
    hdoc
  cases hm
  exact {
    version := hread.version
    length_messageId := length_of_parseMessageId hid
    text := (textValid_toJson_iff _).mpr (textValid_of_parse hutf8 h)
    numbers := by
      rw [numbersFinite_toJson_iff]
      intro hmembers
      exact Json.numbersFinite_of_get? (hfinite text doc hparse) (hpayload hmembers)
    object := by
      rcases hread.payload with ⟨-, hobject⟩ | ⟨-, hempty⟩
      · exact hobject
      · rw [hempty]
        rfl
    depth := by
      rw [nodesAt_toJson_eq_nil_iff]
      intro hmembers
      have hchild := Json.mem_children_of_get? (hpayload hmembers)
      rw [nodesAt, List.flatMap_eq_nil_iff] at hshallow
      exact hshallow _ hchild
    device := (checkTelemetry_eq_ok_iff _ _).mp htelemetry }

/-- An object without members is the empty object. -/
theorem eq_emptyObject_of_isObject {j : JsonValue} (hobject : j.isObject = true)
    (hmembers : ¬ j.hasMembers = true) : j = JsonValue.emptyObject := by
  obtain ⟨tree, hwf⟩ := j
  cases tree with
  | object ms =>
    cases ms with
    | nil => rfl
    | cons m ms => exact absurd rfl hmembers
  | _ => cases hobject

/-- The document of a message that travels is accepted as this message. -/
theorem OnWire.ofDocument_toJson {m : Message} (h : m.OnWire) (label : Label) :
    ofDocument label m.toJson = .ok m := by
  have hval := m.toJson_val
  have hversion : m.toJson.val.get? (ascii "protocol_version") =
      some (.int m.protocolVersion.toInt) := by
    rw [hval, members]
    cases m.status <;> cases m.payload.hasMembers <;> rfl
  have hid : m.toJson.val.get? (ascii "message_id") = (some m.messageId).map .string := by
    rw [hval]
    rfl
  have htype : m.toJson.val.get? (ascii "type") = some (.string m.type.toText) := by
    rw [hval, members]
    cases m.status <;> cases m.payload.hasMembers <;> rfl
  have htimestamp : m.toJson.val.get? (ascii "timestamp") = (some m.timestamp).map .string := by
    rw [hval, members]
    cases m.status <;> cases m.payload.hasMembers <;> rfl
  have hstatus : m.toJson.val.get? (ascii "status") = m.status.map .string := by
    rw [hval, members]
    cases m.status <;> cases m.payload.hasMembers <;> rfl
  have hpayload : m.toJson.val.get? (ascii "payload") =
      (if m.payload.hasMembers then some m.payload else none).map JsonValue.val := by
    rw [hval, members]
    cases m.status <;> cases m.payload.hasMembers <;> rfl
  have hdefault : (if m.payload.hasMembers then some m.payload else none).getD
      JsonValue.emptyObject = m.payload := by
    split
    · rfl
    · rename_i hmembers
      exact (eq_emptyObject_of_isObject h.object hmembers).symm
  have hnarrow : Int32.ofInt m.protocolVersion.toInt = kProtocolVersion := by
    rw [Int32.ofInt_toInt, h.version]
  simp only [ofDocument, bind_eq_ok_iff]
  refine ⟨_, parseVersion_of_get? hversion hnarrow,
    _, parseType_of_get? htype m.type.fromString_toText,
    _, parseMessageId_of_get? hid ?_, _, parseTimestamp_of_get? htimestamp,
    _, optionalString_of_get? hstatus _, _, parsePayload_of_get? hpayload ?_,
    (), ?_, ?_⟩
  · intro text htext
    cases htext
    exact h.length_messageId
  · intro value hvalue
    split at hvalue
    · cases hvalue
      exact h.object
    · cases hvalue
  · rw [hdefault]
    exact (checkTelemetry_eq_ok_iff _ _).mpr h.device
  · rw [hdefault, ← h.version]
    rfl

/-- A message that travels is read back from its text as it was. -/
theorem OnWire.parse_serialize_eq {m : Message} (h : m.OnWire) {lib : JsonLibrary}
    (hwrites : lib.WritesUtf8) (hinverts : lib.InvertsDump m.toJson) :
    ∃ text, m.serialize lib = .ok text ∧ ∀ label, parse lib label text = .ok m := by
  have hdump : lib.dump m.toJson.val = .ok (m.toJson.val.render lib.floatText) := by
    rw [JsonLibrary.dump, if_pos h.text]
  refine ⟨m.toJson.val.render lib.floatText, ?_, fun label => ?_⟩
  · rw [serialize, hdump]
  · have hnonempty : m.toJson.val.render lib.floatText ≠ [] :=
      List.ne_nil_of_length_pos (m.one_le_length_render lib.floatText)
    have hutf8 : isValidUtf8 (m.toJson.val.render lib.floatText) = true := by
      rw [isValidUtf8_eq_valid]
      exact Json.valid_render hwrites _ h.text
    have hobject : m.toJson.isObject = true := by
      rw [JsonValue.isObject, toJson_val]
    have hdepth : jsonDepth m.toJson.val 0 ≤ kMaxJsonDepth := by
      by_contra hdeep
      exact (exceedsDepth_iff m.toJson).mp (Nat.lt_of_not_le hdeep) h.depth
    exact parse_of_ofDocument hnonempty hutf8 (hinverts h.text h.numbers _ hdump) hobject hdepth
      (h.ofDocument_toJson label)

end Message

end PqtlsLab
