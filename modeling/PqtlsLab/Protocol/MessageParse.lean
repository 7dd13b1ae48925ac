import PqtlsLab.Protocol.MessageText

/-!
# What `Message::parse` accepts and how it rejects

An accepted message carries the fields of its document. A rejection is one of a few
fixed texts, or it quotes the document: the name of an unknown type, or what the JSON
reader says about malformed text. Exceptions of the reader other than `parse_error`
pass through.
-/

namespace PqtlsLab

/-- The reader delivers UTF-8 only: it rejects text that is not, and escapes that do not
denote a character. -/
def JsonLibrary.ReadsUtf8 (lib : JsonLibrary) : Prop :=
  ∀ text j, lib.parse text = .ok j → j.val.textValid = true

/-- The reader throws what it documents: `parse_error` for malformed text, `out_of_range` for a
number literal that overflows a `double`. -/
def JsonLibrary.ThrowsAsDocumented (lib : JsonLibrary) : Prop :=
  ∀ text x, lib.parse text = .error x →
    (∃ what, x = .parseError what) ∨ ∃ what, x = .outOfRange what

namespace Json

/-- The texts in a member of a valid list of members are valid. -/
theorem textValid_of_lookup {ms : List (Bytes × Json)} {key : Bytes} {v : Json}
    (h : textValidMembers ms = true) (hv : ms.lookup key = some v) : v.textValid = true := by
  induction ms with
  | nil => simp at hv
  | cons m ms ih =>
    obtain ⟨k, w⟩ := m
    simp only [textValidMembers, Bool.and_eq_true] at h
    rw [List.lookup_cons] at hv
    split at hv
    · cases hv
      exact h.1.2
    · exact ih h.2 hv

/-- The texts in a member of a valid value are valid. -/
theorem textValid_of_get? {j v : Json} {key : Bytes} (h : j.textValid = true)
    (hv : j.get? key = some v) : v.textValid = true := by
  cases j with
  | object ms => exact textValid_of_lookup h hv
  | _ => simp [get?] at hv

end Json

/-- What a table delivers is one of its entries. -/
theorem JsonLibrary.mem_of_parse_ofTable {known : List (Bytes × Except JsonException JsonValue)}
    {text : Bytes} {j : JsonValue} (h : (JsonLibrary.ofTable known).parse text = .ok j) :
    (text, .ok j) ∈ known := by
  unfold JsonLibrary.ofTable at h
  simp only at h
  cases hlookup : known.lookup text with
  | none => simp [hlookup] at h
  | some result =>
    simp only [hlookup, Option.getD_some] at h
    obtain ⟨before, after, rfl, -⟩ := List.lookup_eq_some_iff.mp hlookup
    simp [h]

/-- A table of valid documents makes a library that delivers UTF-8. -/
theorem JsonLibrary.ofTable_readsUtf8 {known : List (Bytes × Except JsonException JsonValue)}
    (h : ∀ entry ∈ known, ∀ j, entry.2 = .ok j → j.val.textValid = true) :
    (JsonLibrary.ofTable known).ReadsUtf8 := by
  intro text j hparse
  exact h (text, .ok j) (mem_of_parse_ofTable hparse) j rfl

/-- A table that throws what the reader documents makes a library that does. -/
theorem JsonLibrary.ofTable_throwsAsDocumented
    {known : List (Bytes × Except JsonException JsonValue)}
    (h : ∀ entry ∈ known, ∀ x, entry.2 = .error x →
      (∃ what, x = .parseError what) ∨ ∃ what, x = .outOfRange what) :
    (JsonLibrary.ofTable known).ThrowsAsDocumented := by
  intro text x hparse
  unfold JsonLibrary.ofTable at hparse
  simp only at hparse
  cases hlookup : known.lookup text with
  | none =>
    simp only [hlookup, Option.getD_none, Except.error.injEq] at hparse
    exact .inl ⟨_, hparse.symm⟩
  | some result =>
    simp only [hlookup, Option.getD_some] at hparse
    obtain ⟨before, after, rfl, -⟩ := List.lookup_eq_some_iff.mp hlookup
    exact h (text, result) (by simp) x hparse

namespace Message

/-- The shortest text of a message of a given type. -/
def minimalText (type : MessageType) : Bytes :=
  ascii "\x7b\"protocol_version\":1,\"type\":\"" ++ type.toText ++ ascii "\"\x7d"

/-- The document of the shortest message of a given type. -/
def minimalDocument (type : MessageType) : JsonValue :=
  (JsonValue.null.set (ascii "protocol_version") (.int 1)).set (ascii "type") (.string type.toText)

/-- A library that knows the shortest messages of a few types. -/
def minimalLibrary : JsonLibrary :=
  .ofTable ([.ping, .pong, .close].map fun type => (minimalText type, .ok (minimalDocument type)))

/-- The library of the shortest messages delivers UTF-8. -/
theorem minimalLibrary_readsUtf8 : minimalLibrary.ReadsUtf8 := by
  apply JsonLibrary.ofTable_readsUtf8
  intro entry hentry j hj
  obtain ⟨type, -, rfl⟩ := List.mem_map.mp hentry
  cases hj
  cases type <;> decide

/-- The shortest `ping` is accepted. -/
theorem parse_minimal_ping : ∃ request,
    parse minimalLibrary Label.sample (minimalText .ping) = .ok request ∧
      request.type = .ping ∧ (Json.quote request.messageId).length = 38 :=
  ⟨_, rfl, rfl, by decide +kernel⟩

/-- A mandatory field, found. -/
theorem mandatoryField_eq_ok {doc v : JsonValue} {field : Bytes}
    (h : mandatoryField doc field = .ok v) : doc.val.get? field = some v.val := by
  unfold mandatoryField at h
  cases hget : doc.get? field with
  | none => simp [hget] at h
  | some w =>
    simp only [hget, Except.ok.injEq] at h
    subst h
    exact (JsonValue.get?_eq_some_iff _ _ _).mp hget

/-- A value that has to be a string, accepted. -/
theorem requireString_eq_ok {v : JsonValue} {message s : Bytes}
    (h : requireString v message = .ok s) : v.val = .string s := by
  unfold requireString at h
  obtain ⟨tree, htree⟩ := v
  cases tree with
  | string t =>
    simp only [JsonValue.string?, Except.ok.injEq] at h
    subst h
    rfl
  | _ => simp [JsonValue.string?] at h

/-- An optional string field, accepted. -/
theorem optionalString_eq_ok {doc : JsonValue} {field message : Bytes} {value : Option Bytes}
    (h : optionalString doc field message = .ok value) :
    doc.val.get? field = value.map Json.string := by
  unfold optionalString at h
  cases hget : doc.get? field with
  | none =>
    simp only [hget, Except.ok.injEq] at h
    subst h
    exact (JsonValue.get?_eq_none_iff _ _).mp hget
  | some v =>
    rw [(JsonValue.get?_eq_some_iff _ _ _).mp hget]
    simp only [hget] at h
    cases hstring : requireString v message with
    | error e => simp [hstring, Functor.map, Except.map] at h
    | ok s =>
      simp only [hstring, Functor.map, Except.map, Except.ok.injEq] at h
      rw [← h, requireString_eq_ok hstring, Option.map_some]

/-- An optional string field, rejected. -/
theorem optionalString_eq_error {doc : JsonValue} {field message : Bytes} {e : Thrown}
    (h : optionalString doc field message = .error e) : e = protocolError message := by
  unfold optionalString at h
  cases hget : doc.get? field with
  | none => simp [hget] at h
  | some v =>
    simp only [hget, requireString] at h
    cases hs : v.string? with
    | some s => simp [hs, Functor.map, Except.map] at h
    | none =>
      simp only [hs, Functor.map, Except.map, Except.error.injEq] at h
      exact h.symm

/-- What an accepted message has in common with its document. -/
structure ReadFrom (label : Label) (doc : JsonValue) (m : Message) : Prop where
  version : m.protocolVersion = kProtocolVersion
  type : ∃ name, doc.val.get? (ascii "type") = some (.string name) ∧
    messageTypeFromString name = some m.type
  messageId : doc.val.get? (ascii "message_id") = some (.string m.messageId) ∨
    doc.val.get? (ascii "message_id") = none ∧ m.messageId = generateUuidV4 label.entropy
  timestamp : doc.val.get? (ascii "timestamp") = some (.string m.timestamp) ∨
    doc.val.get? (ascii "timestamp") = none ∧ m.timestamp = iso8601Now label.now
  status : doc.val.get? (ascii "status") = m.status.map Json.string
  payload : doc.val.get? (ascii "payload") = some m.payload.val ∧ m.payload.isObject = true ∨
    doc.val.get? (ascii "payload") = none ∧ m.payload = JsonValue.emptyObject

/-- The version field, accepted. -/
theorem parseVersion_eq_ok {doc : JsonValue} {version : Int32}
    (h : parseVersion doc = .ok version) : version = kProtocolVersion := by
  rw [parseVersion, bind_eq_ok_iff] at h
  obtain ⟨v, -, h⟩ := h
  cases hint : v.int? with
  | none => simp [hint] at h
  | some i =>
    simp only [hint] at h
    split at h
    · cases h
    · rename_i heq
      cases h
      exact not_not.mp heq

/-- The type field, accepted. -/
theorem parseType_eq_ok {doc : JsonValue} {type : MessageType} (h : parseType doc = .ok type) :
    ∃ name, doc.val.get? (ascii "type") = some (.string name) ∧
      messageTypeFromString name = some type := by
  rw [parseType, bind_eq_ok_iff] at h
  obtain ⟨v, hv, h⟩ := h
  rw [bind_eq_ok_iff] at h
  obtain ⟨name, hname, h⟩ := h
  have htree := mandatoryField_eq_ok hv
  rw [requireString_eq_ok hname] at htree
  refine ⟨name, htree, ?_⟩
  cases htype : messageTypeFromString name with
  | none => simp [htype] at h
  | some t =>
    simp only [htype, Except.ok.injEq] at h
    rw [h]

/-- The identifier field, accepted. -/
theorem parseMessageId_eq_ok {label : Label} {doc : JsonValue} {id : Bytes}
    (h : parseMessageId label doc = .ok id) :
    doc.val.get? (ascii "message_id") = some (.string id) ∨
      doc.val.get? (ascii "message_id") = none ∧ id = generateUuidV4 label.entropy := by
  rw [parseMessageId, bind_eq_ok_iff] at h
  obtain ⟨value, hvalue, h⟩ := h
  have hget := optionalString_eq_ok hvalue
  cases value with
  | none =>
    cases h
    exact .inr ⟨hget, rfl⟩
  | some s =>
    simp only at h
    split at h
    · cases h
    · cases h
      exact .inl hget

/-- The timestamp field, accepted. -/
theorem parseTimestamp_eq_ok {label : Label} {doc : JsonValue} {timestamp : Bytes}
    (h : parseTimestamp label doc = .ok timestamp) :
    doc.val.get? (ascii "timestamp") = some (.string timestamp) ∨
      doc.val.get? (ascii "timestamp") = none ∧ timestamp = iso8601Now label.now := by
  rw [parseTimestamp, bind_eq_ok_iff] at h
  obtain ⟨value, hvalue, h⟩ := h
  have hget := optionalString_eq_ok hvalue
  cases h
  cases value with
  | none => exact .inr ⟨hget, rfl⟩
  | some s => exact .inl hget

/-- The payload field, accepted. -/
theorem parsePayload_eq_ok {doc payload : JsonValue} (h : parsePayload doc = .ok payload) :
    doc.val.get? (ascii "payload") = some payload.val ∧ payload.isObject = true ∨
      doc.val.get? (ascii "payload") = none ∧ payload = JsonValue.emptyObject := by
  unfold parsePayload at h
  cases hget : doc.get? (ascii "payload") with
  | none =>
    simp only [hget, Except.ok.injEq] at h
    exact .inr ⟨(JsonValue.get?_eq_none_iff _ _).mp hget, h.symm⟩
  | some v =>
    simp only [hget] at h
    split at h
    · rename_i hobject
      cases h
      exact .inl ⟨(JsonValue.get?_eq_some_iff _ _ _).mp hget, hobject⟩
    · cases h

/-- An accepted message carries the fields of its document. -/
theorem readFrom_of_ofDocument {label : Label} {doc : JsonValue} {m : Message}
    (h : ofDocument label doc = .ok m) : m.ReadFrom label doc := by
  simp only [ofDocument, bind_eq_ok_iff] at h
  obtain ⟨version, hversion, type, htype, id, hid, timestamp, htimestamp, status, hstatus, payload,
    hpayload, _, _, h⟩ := h
  cases h
  exact ⟨parseVersion_eq_ok hversion, parseType_eq_ok htype, parseMessageId_eq_ok hid,
    parseTimestamp_eq_ok htimestamp, optionalString_eq_ok hstatus, parsePayload_eq_ok hpayload⟩

/-- A field that is there is found. -/
theorem mandatoryField_of_get? {doc : JsonValue} {field : Bytes} {v : Json}
    (h : doc.val.get? field = some v) :
    ∃ value : JsonValue, value.val = v ∧ mandatoryField doc field = .ok value := by
  refine ⟨⟨v, doc.wellFormed.get? h⟩, rfl, ?_⟩
  have hget : doc.get? field = some ⟨v, doc.wellFormed.get? h⟩ :=
    (JsonValue.get?_eq_some_iff _ _ _).mpr h
  simp only [mandatoryField, hget]

/-- A number that narrows to the version of the protocol is accepted. -/
theorem parseVersion_of_get? {doc : JsonValue} {i : ℤ}
    (h : doc.val.get? (ascii "protocol_version") = some (.int i))
    (hi : Int32.ofInt i = kProtocolVersion) : parseVersion doc = .ok kProtocolVersion := by
  obtain ⟨value, hval, hfield⟩ := mandatoryField_of_get? h
  rw [parseVersion, bind_eq_ok_iff]
  refine ⟨value, hfield, ?_⟩
  simp [JsonValue.int?, hval, hi]

/-- A known name is accepted. -/
theorem parseType_of_get? {doc : JsonValue} {name : Bytes} {type : MessageType}
    (h : doc.val.get? (ascii "type") = some (.string name))
    (hname : messageTypeFromString name = some type) : parseType doc = .ok type := by
  obtain ⟨value, hval, hfield⟩ := mandatoryField_of_get? h
  rw [parseType, bind_eq_ok_iff]
  refine ⟨value, hfield, bind_eq_ok_iff.mpr ⟨name, ?_, ?_⟩⟩
  · simp [requireString, JsonValue.string?, hval]
  · simp [hname]

/-- A string is accepted where a string may stand, and so is its absence. -/
theorem optionalString_of_get? {doc : JsonValue} {field : Bytes} {value : Option Bytes}
    (h : doc.val.get? field = value.map Json.string) (message : Bytes) :
    optionalString doc field message = .ok value := by
  cases value with
  | none =>
    have hget : doc.get? field = none := (JsonValue.get?_eq_none_iff _ _).mpr h
    simp only [optionalString, hget]
  | some s =>
    have hget : doc.get? field = some ⟨.string s, trivial⟩ :=
      (JsonValue.get?_eq_some_iff _ _ _).mpr h
    simp only [optionalString, hget]
    rfl

/-- An identifier within the limit is accepted, and a missing one is replaced. -/
theorem parseMessageId_of_get? {label : Label} {doc : JsonValue} {id : Option Bytes}
    (h : doc.val.get? (ascii "message_id") = id.map Json.string)
    (hlength : ∀ text, id = some text → text.length ≤ 128) :
    parseMessageId label doc = .ok (id.getD (generateUuidV4 label.entropy)) := by
  rw [parseMessageId, bind_eq_ok_iff]
  refine ⟨id, optionalString_of_get? h _, ?_⟩
  cases id with
  | none => rfl
  | some text =>
    have hle := hlength text rfl
    simp only [Option.getD_some]
    rw [if_neg (by omega)]

/-- A timestamp is accepted, and a missing one is replaced. -/
theorem parseTimestamp_of_get? {label : Label} {doc : JsonValue} {timestamp : Option Bytes}
    (h : doc.val.get? (ascii "timestamp") = timestamp.map Json.string) :
    parseTimestamp label doc = .ok (timestamp.getD (iso8601Now label.now)) := by
  rw [parseTimestamp, bind_eq_ok_iff]
  exact ⟨timestamp, optionalString_of_get? h _, rfl⟩

/-- An object is accepted as payload, and the empty object stands for a missing one. -/
theorem parsePayload_of_get? {doc : JsonValue} {payload : Option JsonValue}
    (h : doc.val.get? (ascii "payload") = payload.map JsonValue.val)
    (hobject : ∀ value, payload = some value → value.isObject = true) :
    parsePayload doc = .ok (payload.getD JsonValue.emptyObject) := by
  cases payload with
  | none =>
    have hget : doc.get? (ascii "payload") = none := (JsonValue.get?_eq_none_iff _ _).mpr h
    simp only [parsePayload, hget, Option.getD_none]
  | some value =>
    have hget : doc.get? (ascii "payload") = some value :=
      (JsonValue.get?_eq_some_iff _ _ _).mpr h
    simp only [parsePayload, hget, hobject value rfl, if_true, Option.getD_some]

/-- A text is accepted if the reader delivers a document of the right shape and depth which the
checks accept. -/
theorem parse_of_ofDocument {lib : JsonLibrary} {label : Label} {text : Bytes} {doc : JsonValue}
    {m : Message} (hnonempty : text ≠ []) (hutf8 : isValidUtf8 text = true)
    (hparse : lib.parse text = .ok doc) (hobject : doc.isObject = true)
    (hdepth : jsonDepth doc.val 0 ≤ kMaxJsonDepth) (hdoc : ofDocument label doc = .ok m) :
    parse lib label text = .ok m := by
  have hempty : ¬ text.isEmpty = true := fun h => hnonempty (List.isEmpty_iff.mp h)
  simp only [parse, if_neg hempty, hutf8, not_true_eq_false, if_false, parseDocument, hparse,
    hobject, if_neg (Nat.not_lt.mpr hdepth), hdoc]

/-- A text that is accepted is that of a document which the checks accept. -/
theorem parse_eq_ok {lib : JsonLibrary} {label : Label} {text : Bytes} {m : Message}
    (h : parse lib label text = .ok m) :
    ∃ doc, lib.parse text = .ok doc ∧ ofDocument label doc = .ok m := by
  unfold parse at h
  split at h
  · cases h
  split at h
  · cases h
  split at h
  · cases h
  rename_i doc hdoc
  split at h
  · cases h
  split at h
  · cases h
  refine ⟨doc, ?_, h⟩
  unfold parseDocument at hdoc
  split at hdoc
  · rename_i doc' hparse
    cases hdoc
    exact hparse
  · cases hdoc
  · cases hdoc

/-- The texts in an accepted message are UTF-8. -/
theorem textValid_of_parse {lib : JsonLibrary} (hlib : lib.ReadsUtf8) {label : Label}
    {text : Bytes} {m : Message} (h : parse lib label text = .ok m) : m.TextValid := by
  obtain ⟨doc, hparse, hdoc⟩ := parse_eq_ok h
  have hvalid := hlib text doc hparse
  have hread := readFrom_of_ofDocument hdoc
  have hstring {key s : Bytes} (hs : doc.val.get? key = some (.string s)) :
      Utf8.valid s = true := by
    have hmember := Json.textValid_of_get? hvalid hs
    rwa [Json.textValid] at hmember
  refine ⟨?_, ?_, ?_, ?_⟩
  · rcases hread.messageId with hid | ⟨-, hid⟩
    · exact hstring hid
    · rw [hid]
      exact (plain_generateUuidV4 label.entropy).valid
  · rcases hread.timestamp with ht | ⟨-, ht⟩
    · exact hstring ht
    · rw [ht]
      exact (plain_iso8601Now label.now).valid
  · intro status hstatus
    have hget := hread.status
    rw [hstatus, Option.map_some] at hget
    exact hstring hget
  · intro hmembers
    rcases hread.payload with ⟨hpayload, -⟩ | ⟨-, hpayload⟩
    · exact Json.textValid_of_get? hvalid hpayload
    · rw [hpayload] at hmembers
      cases hmembers

end Message

end PqtlsLab
