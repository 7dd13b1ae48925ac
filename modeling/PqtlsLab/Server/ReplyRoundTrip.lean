import PqtlsLab.Protocol.RoundTrip
import PqtlsLab.Server.Replies

/-!
# Replies survive the wire

The replies that `handle_message` builds stay among the messages that travel: they take over the
identifier of the request, they are stamped with the current version and the clock, and their
payload is empty, that of the request, or a flat object. A client can therefore parse all of them.
-/

namespace PqtlsLab

open Json (nodesAt)

namespace Message

/-- A message that answers another one travels if its payload does. -/
theorem OnWire.of_payload {m : Message} (hversion : m.protocolVersion = kProtocolVersion)
    (hlength : m.messageId.length ≤ 128) (hid : Utf8.valid m.messageId = true)
    (htimestamp : ∃ now, m.timestamp = iso8601Now now)
    (hstatus : ∀ status, m.status = some status → Utf8.valid status = true)
    (htype : m.type ≠ .telemetry) (hobject : m.payload.isObject = true)
    (hpayload : m.payload.hasMembers = true → m.payload.val.textValid = true ∧
      m.payload.val.numbersFinite = true ∧ nodesAt 16 m.payload.val = []) : m.OnWire where
  version := hversion
  length_messageId := hlength
  text := by
    obtain ⟨now, hnow⟩ := htimestamp
    refine (textValid_toJson_iff m).mpr ⟨hid, ?_, hstatus, fun h => (hpayload h).1⟩
    rw [hnow]
    exact (plain_iso8601Now now).valid
  numbers := (numbersFinite_toJson_iff m).mpr fun h => (hpayload h).2.1
  object := hobject
  depth := (nodesAt_toJson_eq_nil_iff m).mpr fun h => (hpayload h).2.2
  device := fun h => absurd h htype

/-- Every reply to a message that travels is one. -/
theorem OnWire.reply {ctx : ServerContext} (hctx : CapabilitiesValid ctx) {label : Label}
    {request reply : Message} (h : request.OnWire)
    (hreply : handleMessage label request ctx.profile ctx.outcome = some reply) :
    reply.OnWire := by
  have htext := (textValid_toJson_iff request).mp h.text
  have haccepted : ∀ status, some (ascii "accepted") = some status →
      Utf8.valid status = true := by
    rintro status ⟨⟩
    decide
  have hrejected : ∀ status, some (ascii "rejected") = some status →
      Utf8.valid status = true := by
    rintro status ⟨⟩
    decide
  have hempty {P : Prop} (hmembers : JsonValue.emptyObject.hasMembers = true) : P := by
    cases hmembers
  have hresponse (reason : Bytes) (hreason : Utf8.valid reason = true) :
      (makeError label (some request) reason).OnWire := by
    refine .of_payload rfl h.length_messageId htext.messageId ⟨_, rfl⟩ hrejected
      (by simp [makeError]) rfl fun _ => ⟨?_, rfl, rfl⟩
    have hkey : Utf8.valid (ascii "reason") = true := by decide
    have hval : (makeError label (some request) reason).payload.val =
        .object [(ascii "reason", .string reason)] := rfl
    simp [hval, Json.textValid, Json.textValidMembers, hkey, hreason]
  unfold handleMessage at hreply
  cases htype : request.type with
  | ping =>
    simp only [htype, Option.some.injEq] at hreply
    subst hreply
    exact .of_payload rfl h.length_messageId htext.messageId ⟨_, rfl⟩ haccepted (by simp) rfl hempty
  | echo =>
    simp only [htype, Option.some.injEq] at hreply
    subst hreply
    exact .of_payload rfl h.length_messageId htext.messageId ⟨_, rfl⟩ haccepted
      (by simp [makeAcknowledgement]) h.object fun hmembers => ⟨htext.payload hmembers,
        (numbersFinite_toJson_iff request).mp h.numbers hmembers,
        (nodesAt_toJson_eq_nil_iff request).mp h.depth hmembers⟩
  | telemetry =>
    simp only [htype, Option.some.injEq] at hreply
    subst hreply
    exact .of_payload rfl h.length_messageId htext.messageId ⟨_, rfl⟩ haccepted
      (by simp [makeAcknowledgement]) rfl hempty
  | capabilities =>
    simp only [htype, Option.some.injEq] at hreply
    subst hreply
    exact .of_payload rfl h.length_messageId htext.messageId ⟨_, rfl⟩ haccepted
      (by simp [makeAcknowledgement]) rfl fun _ =>
        ⟨(textValid_capabilities_iff ctx).mpr hctx, rfl, rfl⟩
  | close => simp [htype] at hreply
  | acknowledgement | pong | error =>
    simp only [htype, Option.some.injEq] at hreply
    subst hreply
    exact hresponse _ (plain_responseTypeReason _).valid

end Message

open Message

/-- Messages survive the wire: what `Message::parse` delivers is a message that travels, such a
message is read back from its text as it was, and the replies to such a message are such messages
again, so that the client can parse them. -/
theorem messages_survive_the_wire {lib : JsonLibrary} (hutf8 : lib.ReadsUtf8)
    (hfinite : lib.ReadsFinite) (hwrites : lib.WritesUtf8) :
    (∀ label text m, parse lib label text = .ok m → m.OnWire) ∧
      (∀ m : Message, m.OnWire → lib.InvertsDump m.toJson →
        ∃ text, m.serialize lib = .ok text ∧ ∀ label, parse lib label text = .ok m) ∧
      ∀ (ctx : ServerContext) (label : Label) (request reply : Message), CapabilitiesValid ctx →
        request.OnWire → handleMessage label request ctx.profile ctx.outcome = some reply →
        reply.OnWire ∧ (lib.InvertsDump reply.toJson →
          ∃ text, reply.serialize lib = .ok text ∧ ∀ label, parse lib label text = .ok reply) := by
  refine ⟨fun label text m h => onWire_of_parse hutf8 hfinite h, ?_, ?_⟩
  · intro m hm hinverts
    exact hm.parse_serialize_eq hwrites hinverts
  · intro ctx label request reply hctx hrequest hreply
    have hwire := hrequest.reply hctx hreply
    exact ⟨hwire, hwire.parse_serialize_eq hwrites⟩

/-- A telemetry message with a nested payload. -/
def telemetrySample : Message where
  protocolVersion := kProtocolVersion
  messageId := ascii "42"
  type := .telemetry
  timestamp := iso8601Now Label.sample.now
  status := some (ascii "accepted")
  payload := (JsonValue.null.set (ascii "device_id") (.string (ascii "sensor-7"))).set
    (ascii "reading") (JsonValue.null.set (ascii "celsius") (.int 21))

/-- A library that knows the text of the message. -/
def telemetryLibrary : JsonLibrary :=
  .ofTable [(telemetrySample.toJson.val.render fun _ => ascii "0.0", .ok telemetrySample.toJson)]

/-- The message is read back from its text. -/
theorem telemetry_survives_the_wire :
    ∃ text, telemetrySample.serialize telemetryLibrary = .ok text ∧
      ∀ label, parse telemetryLibrary label text = .ok telemetrySample := by
  have hknown : ∀ text j, telemetryLibrary.parse text = .ok j → j = telemetrySample.toJson := by
    intro text j h
    have hmem := JsonLibrary.mem_of_parse_ofTable h
    simp only [List.mem_singleton, Prod.mk.injEq, Except.ok.injEq] at hmem
    exact hmem.2
  have hutf8 : telemetryLibrary.ReadsUtf8 := by
    intro text j h
    rw [hknown text j h]
    decide +kernel
  have hfinite : telemetryLibrary.ReadsFinite := by
    intro text j h
    rw [hknown text j h]
    decide +kernel
  have hwrites : telemetryLibrary.WritesUtf8 := by
    intro bits _
    have hzero : Utf8.valid (ascii "0.0") = true := by decide
    exact hzero
  have hwire : telemetrySample.OnWire := by
    refine ⟨rfl, by decide, by decide +kernel, by decide +kernel, rfl, by decide +kernel, ?_⟩
    exact fun _ => ⟨ascii "sensor-7", rfl⟩
  have hinverts : telemetryLibrary.InvertsDump telemetrySample.toJson := by
    intro htext _ text hdump
    rw [JsonLibrary.dump, if_pos htext, Except.ok.injEq] at hdump
    subst hdump
    simp [telemetryLibrary, JsonLibrary.ofTable]
  exact (messages_survive_the_wire hutf8 hfinite hwrites).2.1 _ hwire hinverts

end PqtlsLab
