import PqtlsLab.Protocol.MessageParse

/-!
# What the text of a message gives back

A JSON library reads back what it has written. Of this only the identifier and the type
of a message are needed here. That it can be satisfied is shown by a library which knows
the texts of a few messages: the identifier is the first member of a message's text and
the type the last one, so that both can be read off the text.
-/

namespace PqtlsLab

open Message

/-- The identifier and the type of a message are read back as they have been written. -/
def JsonLibrary.ReadsBack (lib : JsonLibrary) : Prop :=
  ∀ (m : Message) (text : Bytes) (doc : JsonValue), m.serialize lib = .ok text →
    lib.parse text = .ok doc → ∀ key ∈ [ascii "message_id", ascii "type"],
      doc.val.get? key = m.toJson.val.get? key

namespace Message

/-- The document of a message has its identifier. -/
theorem get?_toJson_messageId (m : Message) :
    m.toJson.val.get? (ascii "message_id") = some (.string m.messageId) := by
  rw [toJson_val]
  rfl

/-- The document of a message has the name of its type. -/
theorem get?_toJson_type (m : Message) :
    m.toJson.val.get? (ascii "type") = some (.string m.type.toText) := by
  rw [toJson_val]
  unfold members
  cases m.status <;> cases m.payload.hasMembers <;> rfl

/-- A message that is accepted after it has been written has the identifier and the type of
the message that was written. -/
theorem parse_serialize {lib : JsonLibrary} (hlib : lib.ReadsBack) {label : Label}
    {m r : Message} {text : Bytes} (hserialize : m.serialize lib = .ok text)
    (hparse : parse lib label text = .ok r) : r.messageId = m.messageId ∧ r.type = m.type := by
  obtain ⟨doc, hdoc, hmessage⟩ := parse_eq_ok hparse
  have hread := readFrom_of_ofDocument hmessage
  have hid := hlib m text doc hserialize hdoc (ascii "message_id") (by simp)
  have htype := hlib m text doc hserialize hdoc (ascii "type") (by simp)
  rw [get?_toJson_messageId] at hid
  rw [get?_toJson_type] at htype
  constructor
  · rcases hread.messageId with hsome | ⟨hnone, -⟩
    · rw [hid, Option.some.injEq, Json.string.injEq] at hsome
      exact hsome.symm
    · rw [hid] at hnone
      cases hnone
  · obtain ⟨name, hname, hfrom⟩ := hread.type
    rw [htype] at hname
    cases hname
    rw [MessageType.fromString_toText, Option.some.injEq] at hfrom
    exact hfrom.symm

/-- Whether the identifier is accepted does not depend on the label that may replace it. -/
theorem parseMessageId_relabel {label : Label} {doc : JsonValue} {id : Bytes}
    (h : parseMessageId label doc = .ok id) (label' : Label) :
    ∃ id', parseMessageId label' doc = .ok id' := by
  rw [parseMessageId, bind_eq_ok_iff] at h
  obtain ⟨value, hvalue, h⟩ := h
  cases value with
  | none => exact ⟨_, bind_eq_ok_iff.mpr ⟨none, hvalue, rfl⟩⟩
  | some s => exact ⟨id, bind_eq_ok_iff.mpr ⟨some s, hvalue, h⟩⟩

/-- Whether the timestamp is accepted does not depend on the label that may replace it. -/
theorem parseTimestamp_relabel {label : Label} {doc : JsonValue} {timestamp : Bytes}
    (h : parseTimestamp label doc = .ok timestamp) (label' : Label) :
    ∃ timestamp', parseTimestamp label' doc = .ok timestamp' := by
  rw [parseTimestamp, bind_eq_ok_iff] at h
  obtain ⟨value, hvalue, -⟩ := h
  exact ⟨_, bind_eq_ok_iff.mpr ⟨value, hvalue, rfl⟩⟩

/-- Whether a document is accepted does not depend on the label that may complete it. -/
theorem ofDocument_relabel {label : Label} {doc : JsonValue} {m : Message}
    (h : ofDocument label doc = .ok m) (label' : Label) : ∃ m', ofDocument label' doc = .ok m' := by
  simp only [ofDocument, bind_eq_ok_iff] at h ⊢
  obtain ⟨version, hversion, type, htype, id, hid, timestamp, htimestamp, status, hstatus, payload,
    hpayload, u, htelemetry, -⟩ := h
  obtain ⟨id', hid'⟩ := parseMessageId_relabel hid label'
  obtain ⟨timestamp', htimestamp'⟩ := parseTimestamp_relabel htimestamp label'
  exact ⟨_, version, hversion, type, htype, id', hid', timestamp', htimestamp', status, hstatus,
    payload, hpayload, u, htelemetry, rfl⟩

/-- Whether a text is accepted does not depend on the label that may complete it. -/
theorem parse_relabel {lib : JsonLibrary} {label : Label} {text : Bytes} {m : Message}
    (h : parse lib label text = .ok m) (label' : Label) :
    ∃ m', parse lib label' text = .ok m' := by
  unfold parse at h ⊢
  repeat' split at h
  all_goals first
    | cases h
    | simp only [*, if_false]
      exact ofDocument_relabel h label'

/-- `Message::parse` accepts the message after it has been serialised. -/
def Accepted (lib : JsonLibrary) (m : Message) : Prop :=
  ∃ text label r, m.serialize lib = .ok text ∧ parse lib label text = .ok r

/-- Whether a message is accepted can be found out with any label. -/
theorem accepted_of_isOk {lib : JsonLibrary} {m : Message} (label : Label)
    (h : (m.serialize lib >>= parse lib label).isOk = true) : m.Accepted lib := by
  cases hbind : m.serialize lib >>= parse lib label with
  | error e =>
    rw [hbind] at h
    cases h
  | ok r =>
    obtain ⟨text, hserialize, hparse⟩ := bind_eq_ok_iff.mp hbind
    exact ⟨text, label, r, hserialize, hparse⟩

/-- Whoever parses the text of an accepted message gets its identifier and its type. -/
theorem Accepted.parse_serialize {lib : JsonLibrary} (hlib : lib.ReadsBack) {m : Message}
    (h : m.Accepted lib) {text : Bytes} (hserialize : m.serialize lib = .ok text) (label : Label) :
    ∃ r, parse lib label text = .ok r ∧ r.messageId = m.messageId ∧ r.type = m.type := by
  obtain ⟨text', label', r', htext, hparse⟩ := h
  rw [hserialize, Except.ok.injEq] at htext
  subst htext
  obtain ⟨r, hr⟩ := parse_relabel hparse label
  exact ⟨r, hr, Message.parse_serialize hlib hserialize hr⟩

end Message

namespace Json

/-- A byte is copied or escaped; what is copied is neither a quotation mark nor a
backslash. -/
theorem escape_cases (b : UInt8) :
    (escape b = [b] ∧ b ≠ 0x22 ∧ b ≠ 0x5C) ∨ ∃ rest, escape b = 0x5C :: rest := by
  unfold escape
  repeat' split
  all_goals first
    | exact .inr ⟨_, rfl⟩
    | exact .inl ⟨rfl, by assumption, by assumption⟩

/-- Plain text is read off the front of a text that begins with a string literal. -/
theorem Plain.eq_of_quote_append {s u r r' : Bytes} (hu : Plain u)
    (h : quote s ++ r = quote u ++ r') : s = u := by
  simp only [quote, hu.flatMap_escape, List.cons_append, List.append_assoc, List.cons.injEq,
    true_and, List.nil_append] at h
  induction u generalizing s with
  | nil =>
    cases s with
    | nil => rfl
    | cons b s =>
      rcases escape_cases b with ⟨hcopy, hquote, -⟩ | ⟨rest, hescape⟩
      · simp [hcopy] at h
        exact absurd h.1 hquote
      · simp [hescape] at h
  | cons c u ih =>
    obtain ⟨-, hplain⟩ := hu c (by simp)
    cases s with
    | nil =>
      simp only [List.flatMap_nil, List.nil_append, List.cons_append, List.cons.injEq] at h
      rw [← h.1] at hplain
      cases hplain
    | cons b s =>
      rcases escape_cases b with ⟨hcopy, -, -⟩ | ⟨rest, hescape⟩
      · simp only [List.flatMap_cons, hcopy, List.cons_append, List.nil_append,
          List.cons.injEq] at h
        rw [h.1, ih (fun d hd => hu d (by simp [hd])) h.2]
      · simp only [List.flatMap_cons, hescape, List.cons_append, List.cons.injEq] at h
        rw [← h.1] at hplain
        cases hplain

/-- A comma-separated list begins with its first entry. -/
theorem prefix_intercalate (first : Bytes) (rest : List Bytes) :
    first <+: List.intercalate [0x2C] (first :: rest) := by
  cases rest with
  | nil => simp
  | cons second rest =>
    rw [List.intercalate_cons_cons, List.append_assoc]
    exact List.prefix_append _ _

/-- A comma-separated list ends with its last entry. -/
theorem suffix_intercalate (front : List Bytes) (last : Bytes) :
    last <:+ List.intercalate [0x2C] (front ++ [last]) := by
  induction front with
  | nil => simp
  | cons first front ih =>
    rw [List.cons_append, List.intercalate_cons_of_ne_nil (by simp)]
    exact ih.trans (List.suffix_append _ _)

end Json

namespace Message

/-- The text of a message begins with its identifier. -/
theorem render_begins (m : Message) (floatText : UInt64 → Bytes) :
    0x7B :: (Json.quote (ascii "message_id") ++ 0x3A :: Json.quote m.messageId) <+:
      m.toJson.val.render floatText := by
  rw [toJson_val, Json.render, members, Json.renderMembers]
  obtain ⟨rest, hrest⟩ := Json.prefix_intercalate
    (Json.quote (ascii "message_id") ++ 0x3A :: (Json.string m.messageId).render floatText) _
  rw [← hrest]
  exact ⟨rest ++ [0x7D], by simp [Json.render]⟩

/-- The text of a message ends with its type. -/
theorem render_ends (m : Message) (floatText : UInt64 → Bytes) :
    Json.quote m.type.toText ++ [0x7D] <:+ m.toJson.val.render floatText := by
  obtain ⟨front, hfront⟩ : ∃ front,
      m.members = front ++ [(ascii "type", .string m.type.toText)] := by
    refine ⟨(ascii "message_id", .string m.messageId) ::
      ((if m.payload.hasMembers then [(ascii "payload", m.payload.val)] else []) ++
        (ascii "protocol_version", .int m.protocolVersion.toInt) ::
        ((m.status.map fun status => (ascii "status", Json.string status)).toList ++
          [(ascii "timestamp", .string m.timestamp)])), ?_⟩
    simp [members]
  rw [toJson_val, Json.render, hfront, Json.renderMembers_append]
  obtain ⟨start, hstart⟩ := Json.suffix_intercalate (Json.renderMembers floatText front)
    (Json.quote (ascii "type") ++ 0x3A :: Json.quote m.type.toText)
  simp only [Json.renderMembers, Json.render]
  rw [← hstart]
  exact ⟨0x7B :: (start ++ Json.quote (ascii "type") ++ [0x3A]), by simp⟩

/-- Two types with which the text of a message ends are the same. -/
theorem type_eq_of_suffix {t u : MessageType}
    (h : Json.quote t.toText ++ [0x7D] <:+ Json.quote u.toText ++ [0x7D]) : t = u := by
  cases t <;> cases u <;> first | rfl | exact absurd h (by decide)

/-- Two messages with the same text have the same identifier, if that of one is plain, and
the same type. -/
theorem eq_of_render_eq {m n : Message} {floatText : UInt64 → Bytes}
    (hplain : Json.Plain n.messageId)
    (h : m.toJson.val.render floatText = n.toJson.val.render floatText) :
    m.messageId = n.messageId ∧ m.type = n.type := by
  constructor
  · obtain ⟨r, hr⟩ := m.render_begins floatText
    obtain ⟨r', hr'⟩ := n.render_begins floatText
    rw [h, ← hr'] at hr
    have hquotes : Json.quote m.messageId ++ r = Json.quote n.messageId ++ r' := by
      simpa using hr
    exact hplain.eq_of_quote_append hquotes
  · have hm := m.render_ends floatText
    rw [h] at hm
    rcases List.suffix_or_suffix_of_suffix hm (n.render_ends floatText) with hsuffix | hsuffix
    · exact type_eq_of_suffix hsuffix
    · exact (type_eq_of_suffix hsuffix).symm

end Message

/-- A library that knows the texts of a few messages. -/
def JsonLibrary.ofMessages (known : List Message) : JsonLibrary :=
  .ofTable (known.map fun m => (m.toJson.val.render fun _ => ascii "0.0", .ok m.toJson))

/-- A library that knows the texts of messages with plain identifiers reads them back. -/
theorem JsonLibrary.ofMessages_readsBack {known : List Message}
    (hplain : ∀ m ∈ known, Json.Plain m.messageId) : (JsonLibrary.ofMessages known).ReadsBack := by
  intro m text doc hserialize hparse key hkey
  obtain ⟨-, rfl⟩ := (serialize_eq_ok_iff _ _ _).mp hserialize
  obtain ⟨n, hn, htext, rfl⟩ : ∃ n ∈ known,
      m.toJson.val.render (fun _ => ascii "0.0") = n.toJson.val.render (fun _ => ascii "0.0") ∧
        doc = n.toJson := by
    obtain ⟨n, hn, hentry⟩ := List.mem_map.mp (mem_of_parse_ofTable hparse)
    simp only [Prod.mk.injEq, Except.ok.injEq] at hentry
    exact ⟨n, hn, hentry.1.symm, hentry.2.symm⟩
  obtain ⟨hid, htype⟩ := eq_of_render_eq (hplain n hn) htext
  simp only [List.mem_cons, List.not_mem_nil, or_false] at hkey
  rcases hkey with rfl | rfl
  · rw [get?_toJson_messageId, get?_toJson_messageId, hid]
  · rw [get?_toJson_type, get?_toJson_type, htype]

end PqtlsLab
