import PqtlsLab.Protocol.Message

/-!
# The text of a message

The members of a message's document come out in the order of their keys, so the text
of a message is known member by member. It exists exactly when the texts in the
message are UTF-8, and its length is the sum of a few constants and of the parts that
come from elsewhere.
-/

namespace PqtlsLab

namespace Json

/-- The members of two lists are valid together exactly when each list is. -/
theorem textValidMembers_append (ms ns : List (Bytes × Json)) :
    textValidMembers (ms ++ ns) = (textValidMembers ms && textValidMembers ns) := by
  induction ms with
  | nil => simp [textValidMembers]
  | cons m ms ih => simp [textValidMembers, ih, Bool.and_assoc]

/-- The texts of two lists of members are concatenated. -/
theorem renderMembers_append (floatText : UInt64 → Bytes) (ms ns : List (Bytes × Json)) :
    renderMembers floatText (ms ++ ns) =
      renderMembers floatText ms ++ renderMembers floatText ns := by
  induction ms with
  | nil => rfl
  | cons m ms ih => simp [renderMembers, ih]

/-- The length of a comma-separated list. -/
theorem length_intercalate_cons (first : Bytes) (rest : List Bytes) :
    (List.intercalate [0x2C] (first :: rest) : Bytes).length =
      first.length + (rest.map fun text => text.length + 1).sum := by
  induction rest generalizing first with
  | nil => simp [List.intercalate]
  | cons second rest ih =>
    have htail := ih second
    simp only [List.intercalate, List.intersperse_cons_cons, List.flatten_cons,
      List.length_append, List.length_singleton, List.map_cons, List.sum_cons] at htail ⊢
    omega

end Json

namespace MessageType

/-- The name of a message type is plain text. -/
theorem plain_toText (t : MessageType) : Json.Plain t.toText := by
  cases t <;> decide

/-- The name of a message type leads back to it. -/
theorem fromString_toText (t : MessageType) : messageTypeFromString t.toText = some t := by
  cases t <;> decide

end MessageType

namespace Message

/-- The members of the document of a message, in the order of their keys. -/
def members (m : Message) : List (Bytes × Json) :=
  (ascii "message_id", .string m.messageId) ::
    ((if m.payload.hasMembers then [(ascii "payload", m.payload.val)] else []) ++
      (ascii "protocol_version", .int m.protocolVersion.toInt) ::
      ((m.status.map fun status => (ascii "status", Json.string status)).toList ++
        [(ascii "timestamp", .string m.timestamp), (ascii "type", .string m.type.toText)]))

/-- The document of a message is the object of its members. -/
theorem toJson_val (m : Message) : m.toJson.val = .object m.members := by
  unfold toJson members
  cases m.status <;> cases m.payload.hasMembers <;> rfl

/-- The texts in a message are UTF-8. -/
structure TextValid (m : Message) : Prop where
  messageId : Utf8.valid m.messageId = true
  timestamp : Utf8.valid m.timestamp = true
  status : ∀ status, m.status = some status → Utf8.valid status = true
  payload : m.payload.hasMembers = true → m.payload.val.textValid = true

/-- The texts in the document of a message are those of the message. -/
theorem textValid_toJson_iff (m : Message) : m.toJson.val.textValid = true ↔ m.TextValid := by
  have hkeys : ∀ key ∈ [ascii "message_id", ascii "payload", ascii "protocol_version",
      ascii "status", ascii "timestamp", ascii "type"], Utf8.valid key = true := by decide
  simp only [List.mem_cons, List.not_mem_nil, or_false, forall_eq_or_imp, forall_eq] at hkeys
  obtain ⟨hid, hpayload, hversion, hstatus, htimestamp, htype⟩ := hkeys
  have hmembers : m.toJson.val.textValid = (Utf8.valid m.messageId &&
      (Json.textValidMembers
          (if m.payload.hasMembers then [(ascii "payload", m.payload.val)] else []) &&
        (Json.textValidMembers
            (m.status.map fun status => (ascii "status", Json.string status)).toList &&
          Utf8.valid m.timestamp))) := by
    rw [toJson_val, Json.textValid, members]
    simp only [Json.textValidMembers, Json.textValid, Json.textValidMembers_append, hid, hversion,
      htimestamp, htype, m.type.plain_toText.valid, Bool.true_and, Bool.and_true]
  have hpart : Json.textValidMembers
      (if m.payload.hasMembers then [(ascii "payload", m.payload.val)] else []) = true ↔
      (m.payload.hasMembers = true → m.payload.val.textValid = true) := by
    split <;> simp [*, Json.textValidMembers]
  have hstat : Json.textValidMembers
      (m.status.map fun status => (ascii "status", Json.string status)).toList = true ↔
      ∀ status, m.status = some status → Utf8.valid status = true := by
    cases m.status <;> simp [Json.textValidMembers, Json.textValid, hstatus]
  rw [hmembers, Bool.and_eq_true, Bool.and_eq_true, Bool.and_eq_true, hpart, hstat]
  constructor
  · rintro ⟨hmessageId, hpayloadValid, hstatusValid, htimestampValid⟩
    exact ⟨hmessageId, htimestampValid, hstatusValid, hpayloadValid⟩
  · intro h
    exact ⟨h.messageId, h.payload, h.status, h.timestamp⟩

/-- Serialising yields the text of the document exactly when its texts are UTF-8. -/
theorem serialize_eq_ok_iff (lib : JsonLibrary) (m : Message) (text : Bytes) :
    m.serialize lib = .ok text ↔ m.TextValid ∧ text = m.toJson.val.render lib.floatText := by
  unfold serialize JsonLibrary.dump
  by_cases hvalid : m.toJson.val.textValid = true
  · have htext := (textValid_toJson_iff m).mp hvalid
    simp [hvalid, htext, eq_comm]
  · have htext : ¬ m.TextValid := fun h => hvalid ((textValid_toJson_iff m).mpr h)
    simp [hvalid, htext]

/-- Serialising fails with the `type_error` of the library. -/
theorem serialize_eq_error {lib : JsonLibrary} {m : Message} {e : Thrown}
    (h : m.serialize lib = .error e) :
    e = (JsonException.typeError (lib.typeErrorText m.toJson.val)).toThrown := by
  unfold serialize JsonLibrary.dump at h
  by_cases hvalid : m.toJson.val.textValid = true
  · simp [hvalid] at h
  · simpa [hvalid, eq_comm] using h

/-- A serialised message is not empty. -/
theorem one_le_length_render (m : Message) (floatText : UInt64 → Bytes) :
    1 ≤ (m.toJson.val.render floatText).length := by
  rw [toJson_val, Json.render]
  simp

/-- The messages that the code builds itself: the version is the current one, the status
is one of two words of eight letters and the timestamp comes from the clock. -/
structure Stamped (m : Message) : Prop where
  version : m.protocolVersion = kProtocolVersion
  status : m.status = some (ascii "accepted") ∨ m.status = some (ascii "rejected")
  timestamp : ∃ now, m.timestamp = iso8601Now now

/-- The length of the text of a message that the code has built: the constant parts, the
name of the type, the quoted identifier and the payload. -/
theorem length_render_of_stamped {m : Message} (h : m.Stamped) (floatText : UInt64 → Bytes) :
    (m.toJson.val.render floatText).length =
      105 + m.type.toText.length + (Json.quote m.messageId).length +
        (if m.payload.hasMembers then 11 + (m.payload.val.render floatText).length else 0) := by
  obtain ⟨now, hnow⟩ := h.timestamp
  have htimestamp : (Json.quote m.timestamp).length = 26 := by
    rw [hnow, (plain_iso8601Now now).length_quote, length_iso8601Now]
  have hstatus : ∃ status, m.status = some status ∧ (Json.quote status).length = 10 := by
    rcases h.status with hs | hs
    · exact ⟨_, hs, by decide⟩
    · exact ⟨_, hs, by decide⟩
  obtain ⟨status, hs, hslen⟩ := hstatus
  have hversion : (decimalInt m.protocolVersion.toInt).length = 1 := by
    rw [h.version]
    decide
  have htype : (Json.quote m.type.toText).length = m.type.toText.length + 2 :=
    m.type.plain_toText.length_quote
  have hkeys : (Json.quote (ascii "message_id")).length = 12 ∧
      (Json.quote (ascii "payload")).length = 9 ∧
      (Json.quote (ascii "protocol_version")).length = 18 ∧
      (Json.quote (ascii "status")).length = 8 ∧
      (Json.quote (ascii "timestamp")).length = 11 ∧
      (Json.quote (ascii "type")).length = 6 := by decide
  obtain ⟨hk₁, hk₂, hk₃, hk₄, hk₅, hk₆⟩ := hkeys
  rw [toJson_val, Json.render, members, hs]
  split <;>
    simp only [Json.renderMembers_append, Json.renderMembers, Json.render, Option.map_some,
      Option.toList_some, List.length_append, List.length_cons, List.length_nil,
      Json.length_intercalate_cons, List.map_append, List.map_cons, List.map_nil, List.sum_append,
      List.sum_cons, List.sum_nil, htimestamp, hslen, hversion, htype, hk₁, hk₂, hk₃, hk₄, hk₅,
      hk₆] <;> omega

/-- An error reply is stamped. -/
theorem stamped_makeError (label : Label) (request : Option Message) (reason : Bytes) :
    (makeError label request reason).Stamped :=
  ⟨rfl, .inr rfl, _, rfl⟩

end Message

end PqtlsLab
