import PqtlsLab.Protocol.MessageReject
import PqtlsLab.Server.Handler

/-!
# Which frames are answered

A reply is sent if its texts are UTF-8 and its text fits into a frame. For a request
that is accepted, both can be read off the request; for a frame that is rejected, off
what the JSON reader says about it. The lengths are those of the texts that `dump()`
produces, which escapes some characters.
-/

namespace PqtlsLab

open Message

/-- The texts in the answer to a request for capabilities are UTF-8. -/
structure CapabilitiesValid (ctx : ServerContext) : Prop where
  profile : Utf8.valid ctx.profile.id = true
  tlsVersion : Utf8.valid ctx.outcome.tlsVersion = true
  negotiatedGroup : Utf8.valid ctx.outcome.negotiatedGroup = true
  cipherSuite : Utf8.valid ctx.outcome.cipherSuite = true

/-- The members of the capabilities, in the order of their keys. -/
theorem buildCapabilitiesPayload_val (profile : SecurityProfile) (outcome : HandshakeOutcome) :
    (buildCapabilitiesPayload profile outcome).val = .object
      [(ascii "authentication", .string profile.authentication.toText),
        (ascii "cipher_suite", .string outcome.cipherSuite),
        (ascii "hybrid_key_establishment", .bool (isHybridGroup outcome.negotiatedGroup)),
        (ascii "negotiated_group", .string outcome.negotiatedGroup),
        (ascii "pq_authentication", .bool (isPostQuantumAuthentication profile.authentication)),
        (ascii "pq_key_establishment", .bool (isPostQuantumGroup outcome.negotiatedGroup)),
        (ascii "server_profile", .string profile.id),
        (ascii "tls_version", .string outcome.tlsVersion)] := rfl

/-- The capabilities are valid text exactly when their texts are. -/
theorem textValid_capabilities_iff (ctx : ServerContext) :
    (buildCapabilitiesPayload ctx.profile ctx.outcome).val.textValid = true ↔
      CapabilitiesValid ctx := by
  have hkeys : ∀ key ∈ [ascii "authentication", ascii "cipher_suite",
      ascii "hybrid_key_establishment", ascii "negotiated_group", ascii "pq_authentication",
      ascii "pq_key_establishment", ascii "server_profile", ascii "tls_version"],
      Utf8.valid key = true := by decide
  simp only [List.mem_cons, List.not_mem_nil, or_false, forall_eq_or_imp, forall_eq] at hkeys
  rw [buildCapabilitiesPayload_val]
  simp only [Json.textValid, Json.textValidMembers, hkeys,
    ctx.profile.authentication.plain_toText.valid, Bool.true_and, Bool.and_true, Bool.and_eq_true]
  constructor
  · rintro ⟨hcipher, hgroup, hprofile, hversion⟩
    exact ⟨hprofile, hversion, hgroup, hcipher⟩
  · intro h
    exact ⟨h.cipherSuite, h.negotiatedGroup, h.profile, h.tlsVersion⟩

/-- The length of the reply to an accepted request: the constant parts, the name of the
reply's type, the quoted identifier and the payload of the reply. -/
def replyLength (ctx : ServerContext) (request : Message) : ℕ :=
  let id := (Json.quote request.messageId).length
  match request.type with
  | .ping => 109 + id
  | .echo =>
    120 + id + (if request.payload.hasMembers then
      11 + (request.payload.val.render ctx.lib.floatText).length else 0)
  | .telemetry => 120 + id
  | .capabilities =>
    131 + id + ((buildCapabilitiesPayload ctx.profile ctx.outcome).val.render
      ctx.lib.floatText).length
  | .close => 0
  | .acknowledgement | .pong | .error =>
    132 + id + (Json.quote (responseTypeReason request.type)).length

/-- A reply is sent exactly when its texts are UTF-8 and its text fits into a frame. -/
theorem sendReply_sent_iff (ctx : ServerContext) (message : Message) (closing : Bool) :
    (∃ payload, sendReply ctx message closing =
        .reply message payload (Framing.frame payload) closing) ↔
      message.TextValid ∧
        (message.toJson.val.render ctx.lib.floatText).length ≤ ctx.maxFrameSize := by
  have hbounds := ctx.maxFrameSize_bounds.2
  constructor
  · rintro ⟨payload, h⟩
    obtain ⟨-, -, hserialize, hlegal, -⟩ := sendReply_eq_reply h
    obtain ⟨hvalid, rfl⟩ := (serialize_eq_ok_iff _ _ _).mp hserialize
    exact ⟨hvalid, hlegal.2⟩
  · rintro ⟨hvalid, hlength⟩
    have hserialize := (serialize_eq_ok_iff ctx.lib message _).mpr ⟨hvalid, rfl⟩
    have hencode := (Framing.encode_eq_ok_iff hbounds).mpr
      ⟨⟨one_le_length_render message ctx.lib.floatText, hlength⟩, rfl⟩
    refine ⟨message.toJson.val.render ctx.lib.floatText, ?_⟩
    simp only [sendReply, hserialize, hencode]

/-- The payload of an error reply. -/
theorem makeError_payload_val (label : Label) (request : Option Message) (reason : Bytes) :
    (makeError label request reason).payload.val =
      .object [(ascii "reason", .string reason)] := rfl

/-- The length of the payload of an error reply. -/
theorem length_render_makeError_payload (label : Label) (request : Option Message)
    (reason : Bytes) (floatText : UInt64 → Bytes) :
    ((makeError label request reason).payload.val.render floatText).length =
      11 + (Json.quote reason).length := by
  have hkey : (Json.quote (ascii "reason")).length = 8 := by decide
  rw [makeError_payload_val]
  simp only [Json.render, Json.renderMembers, List.length_cons, List.length_append,
    Json.length_intercalate_cons, List.map_nil, List.sum_nil, List.length_nil, hkey]
  omega

/-- An error reply can be serialised exactly when its identifier and its reason are
UTF-8. -/
theorem textValid_makeError_iff (label : Label) (request : Option Message) (reason : Bytes) :
    (makeError label request reason).TextValid ↔
      Utf8.valid (makeError label request reason).messageId = true ∧
        Utf8.valid reason = true := by
  have hpayload : (makeError label request reason).payload.val.textValid = true ↔
      Utf8.valid reason = true := by
    rw [makeError_payload_val]
    simp only [Json.textValid, Json.textValidMembers, Bool.and_true]
    rw [show Utf8.valid (ascii "reason") = true by decide, Bool.true_and]
  constructor
  · intro h
    exact ⟨h.messageId, hpayload.mp (h.payload rfl)⟩
  · rintro ⟨hid, hreason⟩
    refine ⟨hid, (plain_iso8601Now label.now).valid, ?_, fun _ => hpayload.mpr hreason⟩
    rintro status ⟨rfl⟩
    decide

/-- The length of an error reply. -/
theorem length_render_makeError (label : Label) (request : Option Message) (reason : Bytes)
    (floatText : UInt64 → Bytes) :
    ((makeError label request reason).toJson.val.render floatText).length =
      132 + (Json.quote (makeError label request reason).messageId).length +
        (Json.quote reason).length := by
  have hmembers : (makeError label request reason).payload.hasMembers = true := rfl
  have htype : (makeError label request reason).type.toText.length = 5 := by
    change (MessageType.toText .error).length = 5
    decide
  rw [length_render_of_stamped (stamped_makeError label request reason), hmembers, htype,
    length_render_makeError_payload]
  simp only [if_true]
  omega

/-- The reason for refusing a response type is plain text. -/
theorem plain_responseTypeReason (t : MessageType) : Json.Plain (responseTypeReason t) := by
  cases t <;> decide

/-- The replies that accept a request: an acknowledgement with a type and a payload of its
own. -/
def accepting (label : Label) (request : Message) (type : MessageType) (payload : JsonValue) :
    Message :=
  { makeAcknowledgement label request (ascii "accepted") with type := type, payload := payload }

/-- The length of a reply that accepts a request. -/
theorem length_render_accepting (label : Label) (request : Message) (type : MessageType)
    (payload : JsonValue) (floatText : UInt64 → Bytes) :
    ((accepting label request type payload).toJson.val.render floatText).length =
      105 + type.toText.length + (Json.quote request.messageId).length +
        (if payload.hasMembers then 11 + (payload.val.render floatText).length else 0) := by
  have hstamped : (accepting label request type payload).Stamped :=
    ⟨rfl, .inl rfl, label.now, rfl⟩
  exact length_render_of_stamped hstamped floatText

/-- A reply that accepts a valid request can be serialised exactly when its payload can. -/
theorem textValid_accepting_iff {request : Message} (hvalid : request.TextValid) (label : Label)
    (type : MessageType) (payload : JsonValue) :
    (accepting label request type payload).TextValid ↔
      (payload.hasMembers = true → payload.val.textValid = true) := by
  constructor
  · exact fun h => h.payload
  · intro hpayload
    refine ⟨hvalid.messageId, (plain_iso8601Now label.now).valid, ?_, hpayload⟩
    rintro status ⟨rfl⟩
    decide

/-- The reply to an accepted request has the length that the request predicts, and it can
be serialised unless it has to report capabilities that are not UTF-8. -/
theorem handleMessage_reply {ctx : ServerContext} {label : Label} {request reply : Message}
    (hvalid : request.TextValid)
    (h : handleMessage label request ctx.profile ctx.outcome = some reply) :
    (reply.toJson.val.render ctx.lib.floatText).length = replyLength ctx request ∧
      (reply.TextValid ↔ (request.type = .capabilities → CapabilitiesValid ctx)) := by
  unfold handleMessage at h
  unfold replyLength
  cases htype : request.type with
  | ping =>
    simp only [htype, Option.some.injEq] at h
    subst h
    refine ⟨length_render_accepting label request .pong JsonValue.emptyObject _, ?_⟩
    have hiff := textValid_accepting_iff hvalid label .pong JsonValue.emptyObject
    exact iff_of_true (hiff.mpr (by simp [JsonValue.hasMembers, JsonValue.emptyObject])) (by simp)
  | echo =>
    simp only [htype, Option.some.injEq] at h
    subst h
    refine ⟨length_render_accepting label request .acknowledgement request.payload _, ?_⟩
    have hiff := textValid_accepting_iff hvalid label .acknowledgement request.payload
    exact iff_of_true (hiff.mpr hvalid.payload) (by simp)
  | telemetry =>
    simp only [htype, Option.some.injEq] at h
    subst h
    refine ⟨length_render_accepting label request .acknowledgement JsonValue.emptyObject _, ?_⟩
    have hiff := textValid_accepting_iff hvalid label .acknowledgement JsonValue.emptyObject
    exact iff_of_true (hiff.mpr (by simp [JsonValue.hasMembers, JsonValue.emptyObject])) (by simp)
  | capabilities =>
    simp only [htype, Option.some.injEq] at h
    subst h
    have hmembers : (buildCapabilitiesPayload ctx.profile ctx.outcome).hasMembers = true := rfl
    have hlength := length_render_accepting label request .acknowledgement
      (buildCapabilitiesPayload ctx.profile ctx.outcome) ctx.lib.floatText
    have htext : (MessageType.toText .acknowledgement).length = 15 := by decide
    rw [hmembers, htext] at hlength
    refine ⟨hlength.trans (by simp only [if_true]; omega), ?_⟩
    have hiff := textValid_accepting_iff hvalid label .acknowledgement
      (buildCapabilitiesPayload ctx.profile ctx.outcome)
    rw [hmembers, textValid_capabilities_iff] at hiff
    exact hiff.trans (by simp)
  | close => simp [htype] at h
  | acknowledgement | pong | error =>
    simp only [htype, Option.some.injEq] at h
    subst h
    refine ⟨length_render_makeError label (some request) _ _, ?_⟩
    rw [textValid_makeError_iff]
    exact iff_of_true ⟨hvalid.messageId, (plain_responseTypeReason _).valid⟩ (by simp)

/-- A request that is accepted and is not a `close` is answered exactly when the reply fits
into a frame and can be serialised. -/
theorem handleFrame_answers_iff {ctx : ServerContext} (hlib : ctx.lib.ReadsUtf8)
    {labels : FrameLabels} {frame : Bytes} {request : Message}
    (hparse : Message.parse ctx.lib labels.request frame = .ok request)
    (htype : request.type ≠ .close) :
    (∃ reply payload, handleFrame ctx labels frame =
        .reply reply payload (Framing.frame payload) false) ↔
      replyLength ctx request ≤ ctx.maxFrameSize ∧
        (request.type = .capabilities → CapabilitiesValid ctx) := by
  have hvalid := textValid_of_parse hlib hparse
  cases hreply : handleMessage labels.reply request ctx.profile ctx.outcome with
  | none =>
    exfalso
    unfold handleMessage at hreply
    cases hcase : request.type <;> simp [hcase] at hreply htype
  | some reply =>
    have hframe : handleFrame ctx labels frame = sendReply ctx reply false := by
      simp only [handleFrame, hparse, hreply]
    obtain ⟨hlength, htext⟩ := handleMessage_reply hvalid hreply
    rw [← hlength, ← htext, hframe, and_comm, ← sendReply_sent_iff ctx reply false]
    constructor
    · rintro ⟨m, payload, h⟩
      obtain ⟨rfl, -⟩ := sendReply_eq_reply h
      exact ⟨payload, h⟩
    · rintro ⟨payload, h⟩
      exact ⟨reply, payload, h⟩

/-- The frame can be answered although it is rejected: the JSON reader fails with a
`parse_error` if it fails, and a reason that quotes the frame is UTF-8 and leaves room
for the rest of the reply. -/
def Answerable (lib : JsonLibrary) (maxFrameSize : ℕ) (frame : Bytes) : Prop :=
  Offered frame →
    match lib.parse frame with
    | .error (.parseError what) => Utf8.valid what = true ∧
        170 + (Json.quote (malformedReason what)).length ≤ maxFrameSize
    | .error _ => False
    | .ok doc => Shaped doc → ∀ name, UnknownType doc name →
        170 + (Json.quote (unknownTypeReason name)).length ≤ maxFrameSize

/-- The error reply to a rejected frame is sent exactly when its reason is UTF-8 and leaves
room for the rest. -/
theorem sendReply_rejection_iff (ctx : ServerContext) (label : Label) (reason : Bytes) :
    (∃ payload, sendReply ctx (makeError label none reason) true =
        .reply (makeError label none reason) payload (Framing.frame payload) true) ↔
      Utf8.valid reason = true ∧ 170 + (Json.quote reason).length ≤ ctx.maxFrameSize := by
  have hplain := plain_generateUuidV4 label.entropy
  have hid : (Json.quote (makeError label none reason).messageId).length = 38 := by
    change (Json.quote (generateUuidV4 label.entropy)).length = 38
    rw [hplain.length_quote, length_generateUuidV4]
  rw [sendReply_sent_iff, textValid_makeError_iff, length_render_makeError, hid]
  exact and_congr_left fun _ => and_iff_right hplain.valid

/-- A short reason can always be sent in a frame of the default size. -/
theorem room_of_shortReason {reason : Bytes} (h : ShortReason reason) :
    Utf8.valid reason = true ∧
      170 + (Json.quote reason).length ≤ Framing.kDefaultMaxFrameSize := by
  have hlength := h.length_le
  have hdefault : 1024 ≤ Framing.kDefaultMaxFrameSize := by decide
  refine ⟨h.plain.valid, ?_⟩
  rw [h.plain.length_quote]
  omega

/-- A frame that is rejected with a `ProtocolError` is answered exactly when the reason is
UTF-8 and leaves room for the rest. -/
theorem handleFrame_rejects_protocol_iff {ctx : ServerContext} {labels : FrameLabels}
    {frame reason : Bytes}
    (h : Message.parse ctx.lib labels.request frame = .error (protocolError reason)) :
    (∃ reply payload, handleFrame ctx labels frame =
        .reply reply payload (Framing.frame payload) true ∧ reply.type = .error ∧
        reply.status = some (ascii "rejected")) ↔
      Utf8.valid reason = true ∧ 170 + (Json.quote reason).length ≤ ctx.maxFrameSize := by
  have hframe : handleFrame ctx labels frame =
      sendReply ctx (makeError labels.reply none reason) true := by
    simp only [handleFrame, h, protocolError]
  rw [hframe, ← sendReply_rejection_iff ctx labels.reply reason]
  constructor
  · rintro ⟨reply, payload, hreply, -⟩
    obtain ⟨rfl, -⟩ := sendReply_eq_reply hreply
    exact ⟨payload, hreply⟩
  · rintro ⟨payload, hreply⟩
    exact ⟨_, payload, hreply, rfl, rfl⟩

/-- The reason for an unknown type is UTF-8, since the reader delivers UTF-8. -/
theorem valid_unknownTypeReason {lib : JsonLibrary} (hlib : lib.ReadsUtf8) {frame name : Bytes}
    {doc : JsonValue} (hdoc : lib.parse frame = .ok doc) (hname : UnknownType doc name) :
    Utf8.valid (unknownTypeReason name) = true := by
  have hmember := Json.textValid_of_get? (hlib frame doc hdoc) hname.2.1
  rw [Json.textValid] at hmember
  exact Utf8.valid_append (Utf8.valid_append (by decide) hmember) (by decide)

/-- A frame that is rejected is answered with a structured error exactly when it can be. -/
theorem handleFrame_rejects_iff {ctx : ServerContext} (hlib : ctx.lib.ReadsUtf8)
    (hmax : ctx.maxFrameSize = Framing.kDefaultMaxFrameSize) {labels : FrameLabels}
    {frame : Bytes} {e : Thrown} (h : Message.parse ctx.lib labels.request frame = .error e) :
    (∃ reply payload, handleFrame ctx labels frame =
        .reply reply payload (Framing.frame payload) true ∧ reply.type = .error ∧
        reply.status = some (ascii "rejected")) ↔
      Answerable ctx.lib ctx.maxFrameSize frame := by
  unfold Answerable
  rcases parse_eq_error h with ⟨hoffered, what, hparse, he⟩ | ⟨hoffered, x, hparse, hx, he⟩ |
    ⟨hoffered, doc, name, hparse, hshaped, hname, he⟩ | ⟨hother, reason, hshort, he⟩
  · subst he
    rw [handleFrame_rejects_protocol_iff h]
    simp only [hparse, hoffered, forall_const]
    have hvalid : Utf8.valid (malformedReason what) = Utf8.valid what :=
      Utf8.valid_append_of_valid (by decide) what
    rw [hvalid]
  · have hthrown : handleFrame ctx labels frame = .thrown x.toThrown := by
      cases x with
      | parseError what => exact absurd rfl (hx what)
      | outOfRange what => simp only [handleFrame, h, he, JsonException.toThrown]
      | typeError what => simp only [handleFrame, h, he, JsonException.toThrown]
    simp only [hparse, hoffered, forall_const, hthrown]
    cases x with
    | parseError what => exact absurd rfl (hx what)
    | outOfRange what => simp
    | typeError what => simp
  · subst he
    rw [handleFrame_rejects_protocol_iff h]
    simp only [hparse, hoffered, hshaped, forall_const]
    constructor
    · rintro ⟨-, hroom⟩ name' hname'
      have hsame := hname.2.1.symm.trans hname'.2.1
      rw [Option.some.injEq, Json.string.injEq] at hsame
      rwa [← hsame]
    · intro hall
      exact ⟨valid_unknownTypeReason hlib hparse hname, hall name hname⟩
  · subst he
    rw [handleFrame_rejects_protocol_iff h]
    have hroom := room_of_shortReason hshort
    rw [← hmax] at hroom
    refine iff_of_true hroom ?_
    intro hoffered
    obtain ⟨doc, hparse, hnone⟩ := hother hoffered
    simp only [hparse]
    intro hshaped name hname
    exact absurd hname (hnone hshaped name)

end PqtlsLab
