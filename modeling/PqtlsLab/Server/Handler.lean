import PqtlsLab.Policy.Handshake
import PqtlsLab.Protocol.FrameStream
import PqtlsLab.Protocol.Message

/-!
# How the server answers one frame

The body of the application loop from a complete frame to the bytes of its reply.
Only a `ProtocolError` is caught on the way, and only around parsing and handling;
what serialising and framing the reply throw ends the connection.
-/

namespace PqtlsLab

/-- What answering a frame depends on besides the frame. -/
structure ServerContext where
  lib : JsonLibrary
  profile : SecurityProfile
  outcome : HandshakeOutcome
  /-- `config_.common.max_frame_size`. -/
  maxFrameSize : ℕ
  /-- The decoder has been constructed with this limit. -/
  maxFrameSize_bounds : 1 ≤ maxFrameSize ∧ maxFrameSize ≤ Framing.kAbsoluteMaxFrameSize

/-- The context of an unexceptional connection with the primary profile. -/
def ServerContext.sample (lib : JsonLibrary) : ServerContext where
  lib := lib
  profile := SecurityProfile.hybrid
  outcome := inspect SslView.sample
  maxFrameSize := Framing.kDefaultMaxFrameSize
  maxFrameSize_bounds := Framing.kDefaultMaxFrameSize_bounds

/-- The labels that answering one frame may use up: one if the request has to be
completed, one for the reply. -/
structure FrameLabels where
  request : Label
  reply : Label

/-- `build_capabilities_payload`. -/
def buildCapabilitiesPayload (profile : SecurityProfile) (outcome : HandshakeOutcome) :
    JsonValue :=
  let payload := JsonValue.null.set (ascii "server_profile") (.string profile.id)
  let payload := payload.set (ascii "tls_version") (.string outcome.tlsVersion)
  let payload := payload.set (ascii "negotiated_group") (.string outcome.negotiatedGroup)
  let payload := payload.set (ascii "cipher_suite") (.string outcome.cipherSuite)
  let payload := payload.set (ascii "pq_key_establishment")
    (.bool (isPostQuantumGroup outcome.negotiatedGroup))
  let payload := payload.set (ascii "hybrid_key_establishment")
    (.bool (isHybridGroup outcome.negotiatedGroup))
  let payload := payload.set (ascii "authentication") (.string profile.authentication.toText)
  payload.set (ascii "pq_authentication")
    (.bool (isPostQuantumAuthentication profile.authentication))

/-- The reason with which a response type is refused. -/
def responseTypeReason (type : MessageType) : Bytes :=
  ascii "message type '" ++ type.toText ++
    ascii "' is a response type and is not accepted from a client"

/-- `handle_message`. -/
def handleMessage (label : Label) (request : Message) (profile : SecurityProfile)
    (outcome : HandshakeOutcome) : Option Message :=
  let accepted := Message.makeAcknowledgement label request (ascii "accepted")
  match request.type with
  | .ping => some { accepted with type := .pong }
  | .echo => some { accepted with payload := request.payload }
  | .telemetry => some accepted
  | .capabilities => some { accepted with payload := buildCapabilitiesPayload profile outcome }
  | .close => none
  | .acknowledgement | .pong | .error =>
    some (Message.makeError label (some request) (responseTypeReason request.type))

/-- What the body of the loop comes to for one frame: a reply, with its text, its frame
and whether the loop ends after it; the end of the loop; or an exception. -/
inductive FrameOutcome where
  | reply (message : Message) (payload wire : Bytes) (closing : Bool)
  | close
  | thrown (e : Thrown)

/-- Serialising and framing a reply. -/
def sendReply (ctx : ServerContext) (message : Message) (closing : Bool) : FrameOutcome :=
  match message.serialize ctx.lib with
  | .error e => .thrown e
  | .ok payload =>
    match Framing.encode payload ctx.maxFrameSize with
    | .error e => .thrown e
    | .ok wire => .reply message payload wire closing

/-- The body of the application loop, from a complete frame on. -/
def handleFrame (ctx : ServerContext) (labels : FrameLabels) (frame : Bytes) : FrameOutcome :=
  match Message.parse ctx.lib labels.request frame with
  | .ok request =>
    match handleMessage labels.reply request ctx.profile ctx.outcome with
    | some reply => sendReply ctx reply false
    | none => .close
  | .error (.error .protocol reason _) =>
    sendReply ctx (Message.makeError labels.reply none reason) true
  | .error e => .thrown e

/-- The reply of an outcome. -/
def FrameOutcome.message? : FrameOutcome → Option Message
  | .reply message _ _ _ => some message
  | _ => none

/-- The text of the reply of an outcome. -/
def FrameOutcome.payload? : FrameOutcome → Option Bytes
  | .reply _ payload _ _ => some payload
  | _ => none

/-- A reply that is sent is the text of its message in a legal frame. -/
theorem sendReply_eq_reply {ctx : ServerContext} {message m : Message} {closing c : Bool}
    {payload wire : Bytes} (h : sendReply ctx message closing = .reply m payload wire c) :
    m = message ∧ c = closing ∧ message.serialize ctx.lib = .ok payload ∧
      Framing.Legal ctx.maxFrameSize payload ∧ wire = Framing.frame payload := by
  unfold sendReply at h
  cases hs : message.serialize ctx.lib with
  | error e => simp [hs] at h
  | ok text =>
    simp only [hs] at h
    cases he : Framing.encode text ctx.maxFrameSize with
    | error e => simp [he] at h
    | ok out =>
      simp only [he, FrameOutcome.reply.injEq] at h
      obtain ⟨rfl, rfl, rfl, rfl⟩ := h
      have hencode := (Framing.encode_eq_ok_iff ctx.maxFrameSize_bounds.2).mp he
      exact ⟨rfl, rfl, rfl, hencode.1, hencode.2⟩

/-- A reply that is sent is never taken for the end of the loop. -/
theorem sendReply_ne_close (ctx : ServerContext) (message : Message) (closing : Bool) :
    sendReply ctx message closing ≠ .close := by
  unfold sendReply
  cases message.serialize ctx.lib with
  | error e => simp
  | ok text =>
    simp only
    cases Framing.encode text ctx.maxFrameSize <;> simp

/-- The two ways to a reply: a request that is answered, after which the loop goes on,
or a rejected frame, after which it ends. -/
theorem handleFrame_eq_reply {ctx : ServerContext} {labels : FrameLabels} {frame : Bytes}
    {m : Message} {payload wire : Bytes} {closing : Bool}
    (h : handleFrame ctx labels frame = .reply m payload wire closing) :
    m.serialize ctx.lib = .ok payload ∧ Framing.Legal ctx.maxFrameSize payload ∧
      wire = Framing.frame payload ∧
      ((closing = false ∧ ∃ request, Message.parse ctx.lib labels.request frame = .ok request ∧
          handleMessage labels.reply request ctx.profile ctx.outcome = some m) ∨
        (closing = true ∧ ∃ reason, Message.parse ctx.lib labels.request frame =
            .error (protocolError reason) ∧ m = Message.makeError labels.reply none reason)) := by
  unfold handleFrame at h
  split at h
  · rename_i request hparse
    split at h
    · rename_i reply hreply
      obtain ⟨rfl, rfl, hserialize, hlegal, hwire⟩ := sendReply_eq_reply h
      exact ⟨hserialize, hlegal, hwire, .inl ⟨rfl, request, hparse, hreply⟩⟩
    · cases h
  · rename_i reason genuine hparse
    obtain ⟨rfl, rfl, hserialize, hlegal, hwire⟩ := sendReply_eq_reply h
    exact ⟨hserialize, hlegal, hwire, .inr ⟨rfl, reason, hparse, rfl⟩⟩
  · cases h

/-- The loop ends without a reply exactly for an accepted `close` message. -/
theorem handleFrame_eq_close_iff (ctx : ServerContext) (labels : FrameLabels) (frame : Bytes) :
    handleFrame ctx labels frame = .close ↔
      ∃ request, Message.parse ctx.lib labels.request frame = .ok request ∧
        request.type = .close := by
  unfold handleFrame
  cases hparse : Message.parse ctx.lib labels.request frame with
  | ok request =>
    simp only [Except.ok.injEq, exists_eq_left']
    cases hhandle : handleMessage labels.reply request ctx.profile ctx.outcome with
    | none =>
      simp only [true_iff]
      unfold handleMessage at hhandle
      cases htype : request.type <;> simp [htype] at hhandle ⊢
    | some reply =>
      simp only [sendReply_ne_close, false_iff]
      intro htype
      simp [handleMessage, htype] at hhandle
  | error e =>
    simp only [reduceCtorEq, false_and, exists_false, iff_false]
    split
    · rename_i heq
      cases heq
    · exact sendReply_ne_close _ _ _
    · simp

end PqtlsLab
