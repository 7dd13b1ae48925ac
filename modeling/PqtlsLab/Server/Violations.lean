import PqtlsLab.Server.Answers
import PqtlsLab.Server.Connection

/-!
# Protocol violations by the client

A frame that cannot be parsed is answered with an error, after which the loop ends;
so it does not for a message of a response type, which is answered with an error as
well. The loop ends normally in both cases, and the record of the connection says so:
only a violation that is thrown out of the loop is recorded as one.
-/

namespace PqtlsLab

open Message

/-- The types that only a server sends. -/
def MessageType.IsResponse (t : MessageType) : Prop :=
  t = .acknowledgement ∨ t = .pong ∨ t = .error

/-- The frame is accepted as a message of a response type. -/
def AcceptedResponse (ctx : ServerContext) (labels : FrameLabels) (frame : Bytes) : Prop :=
  ∃ request, Message.parse ctx.lib labels.request frame = .ok request ∧ request.type.IsResponse

/-- A message of a response type and a request, in one chunk. -/
def Chunk.pongThenPing : Chunk where
  bytes := Framing.frame (minimalText .pong) ++ Framing.frame (minimalText .ping)
  length_pos := by decide
  length_le := by decide

/-- A frame that is not JSON and a request, in one chunk. -/
def Chunk.malformedThenPing : Chunk where
  bytes := Framing.frame (ascii "x") ++ Framing.frame (minimalText .ping)
  length_pos := by decide
  length_le := by decide

/-- Only a message of a response type is answered with an error. -/
theorem isResponse_of_error_reply {label : Label} {request reply : Message}
    {profile : SecurityProfile} {outcome : HandshakeOutcome}
    (h : handleMessage label request profile outcome = some reply) (herror : reply.type = .error) :
    request.type.IsResponse := by
  unfold handleMessage at h
  cases htype : request.type with
  | acknowledgement => exact .inl rfl
  | pong => exact .inr (.inl rfl)
  | error => exact .inr (.inr rfl)
  | close => simp [htype] at h
  | ping | echo | telemetry | capabilities =>
    simp only [htype, Option.some.injEq] at h
    subst h
    cases herror

namespace ServerEnv

/-- Once the server has answered with an error, it takes no further frame and sends no
further reply, in every run in which no frame is accepted as a message of a response
type. -/
theorem error_reply_is_last (env : ServerEnv) (n k : ℕ)
    (hframes : ∀ i frame, (env.state n).frames[i]? = some frame →
      ¬ AcceptedResponse env.setting.ctx (env.setting.labels i) frame)
    (herror : ∃ reply ∈ (env.state n).replies, reply.type = .error) :
    (env.state (n + k)).frames = (env.state n).frames ∧
      (env.state (n + k)).replies = (env.state n).replies := by
  obtain ⟨reply, hreply, htype⟩ := herror
  obtain ⟨h, hmem, hmessage⟩ := List.mem_filterMap.mp hreply
  obtain ⟨i, hi⟩ := List.getElem?_of_mem hmem
  have hlog := (env.inv_state n).log i h hi
  have hframe : (env.state n).frames[i]? = some h.frame := by
    simp [ServerLoop.frames, hi]
  cases houtcome : h.outcome with
  | close => simp [houtcome, FrameOutcome.message?] at hmessage
  | thrown e => simp [houtcome, FrameOutcome.message?] at hmessage
  | reply m payload wire closing =>
    simp only [houtcome, FrameOutcome.message?, Option.some.injEq] at hmessage
    subst hmessage
    rw [hlog] at houtcome
    obtain ⟨-, -, -, hway⟩ := handleFrame_eq_reply houtcome
    rcases hway with ⟨-, request, hparse, hhandle⟩ | ⟨rfl, -⟩
    · exact absurd ⟨request, hparse, isResponse_of_error_reply hhandle htype⟩ (hframes i _ hframe)
    · rw [← hlog] at houtcome
      have hsame := env.history_of_closing_reply hmem houtcome k
      exact ⟨by rw [ServerLoop.frames, hsame, ServerLoop.frames],
        by rw [ServerLoop.replies, hsame, ServerLoop.replies]⟩

/-- A frame that is not JSON is answered with an error, which is the last reply although a request
follows. -/
theorem error_reply_is_last_malformed :
    let env := ServerEnv.delivering (.sample minimalLibrary) [Chunk.malformedThenPing] fun _ => 1000
    (env.state 3).replies.map Message.type = [.error] ∧
      ∀ k, (env.state (3 + k)).frames = [ascii "x"] ∧
        (env.state (3 + k)).replies.map Message.type = [.error] := by
  intro env
  have hreplies : (env.state 3).replies.map Message.type = [.error] := by decide +kernel
  have hframes : (env.state 3).frames = [ascii "x"] := by decide +kernel
  have hparse : (Message.parse minimalLibrary Label.sample (ascii "x")).isOk = false := by
    decide +kernel
  refine ⟨hreplies, fun k => ?_⟩
  have hlast := error_reply_is_last env 3 k ?_ (by decide +kernel)
  · rw [hlast.1, hlast.2]
    exact ⟨hframes, hreplies⟩
  · rintro i frame hi ⟨request, hok, -⟩
    have hmem := List.mem_of_getElem? hi
    rw [hframes, List.mem_singleton] at hmem
    subst hmem
    change Message.parse minimalLibrary Label.sample (ascii "x") = .ok request at hok
    rw [hok] at hparse
    cases hparse

/-- A message of a response type is answered with an error, and the request behind it is
answered all the same. -/
theorem error_reply_is_not_last :
    ¬ ∀ (env : ServerEnv) (n k : ℕ), (∃ reply ∈ (env.state n).replies, reply.type = .error) →
      (env.state (n + k)).frames = (env.state n).frames ∧
        (env.state (n + k)).replies = (env.state n).replies := by
  intro h
  let env := ServerEnv.delivering (.sample minimalLibrary) [Chunk.pongThenPing] fun _ => 1000
  have hlast := h env 3 3 (by decide +kernel)
  exact absurd hlast.1 (by decide +kernel)

end ServerEnv

/-- The encoder throws `ProtocolError` only. -/
theorem Framing.encode_eq_error {payload : Bytes} {maxFrameSize : ℕ} {e : Thrown}
    (h : Framing.encode payload maxFrameSize = .error e) : e.category = .protocol := by
  unfold Framing.encode at h
  split at h
  · cases h
    rfl
  split at h
  · cases h
    rfl
  split at h
  · cases h
    rfl
  · cases h

/-- What becomes of the reply to a rejected frame: it is sent, or its reason is not UTF-8,
which is recorded as internal, or it is too long, which is recorded as a violation. -/
theorem sendReply_rejection_cases (ctx : ServerContext) (label : Label) (reason : Bytes) :
    (∃ reply payload wire, sendReply ctx (makeError label none reason) true =
        .reply reply payload wire true) ∨
      (Utf8.valid reason = false ∧ ∃ e, sendReply ctx (makeError label none reason) true =
        .thrown e ∧ e.category = .internal) ∨
      (Utf8.valid reason = true ∧ ctx.maxFrameSize < 170 + (Json.quote reason).length ∧
        ∃ e, sendReply ctx (makeError label none reason) true = .thrown e ∧
          e.category = .protocol) := by
  have hiff := sendReply_rejection_iff ctx label reason
  cases hserialize : (makeError label none reason).serialize ctx.lib with
  | error e =>
    right
    left
    have hinvalid : Utf8.valid reason = false := by
      rw [Bool.eq_false_iff]
      intro hvalid
      have htext := (textValid_makeError_iff label none reason).mpr
        ⟨(plain_generateUuidV4 label.entropy).valid, hvalid⟩
      rw [(serialize_eq_ok_iff ctx.lib _ _).mpr ⟨htext, rfl⟩] at hserialize
      cases hserialize
    refine ⟨hinvalid, e, by simp only [sendReply, hserialize], ?_⟩
    rw [serialize_eq_error hserialize]
    rfl
  | ok payload =>
    have hvalid := ((textValid_makeError_iff label none reason).mp
      ((serialize_eq_ok_iff ctx.lib _ _).mp hserialize).1).2
    cases hencode : Framing.encode payload ctx.maxFrameSize with
    | ok wire =>
      left
      exact ⟨makeError label none reason, payload, wire,
        by simp only [sendReply, hserialize, hencode]⟩
    | error e =>
      right
      right
      have hthrown : sendReply ctx (makeError label none reason) true = .thrown e := by
        simp only [sendReply, hserialize, hencode]
      refine ⟨hvalid, ?_, e, hthrown, Framing.encode_eq_error hencode⟩
      by_contra hroom
      obtain ⟨payload', hsent⟩ := hiff.mpr ⟨hvalid, Nat.le_of_not_lt hroom⟩
      rw [hthrown] at hsent
      cases hsent

/-- The loop has taken a frame that `Message::parse` rejects with a `ProtocolError`. -/
def ServerLoop.Rejected (lib : JsonLibrary) (labels : ℕ → FrameLabels) (loop : ServerLoop)
    (reason : Bytes) : Prop :=
  ∃ i frame, loop.frames[i]? = some frame ∧
    Message.parse lib (labels i).request frame = .error (protocolError reason)

/-- The error reply with this reason is too long for a frame. -/
def ReplyTooLong (maxFrameSize : ℕ) (reason : Bytes) : Prop :=
  Utf8.valid reason = true ∧ maxFrameSize < 170 + (Json.quote reason).length

namespace ServerEnv

/-- What becomes of the loop when it takes a frame that is rejected: it is left by an
exception of the category `protocol` exactly when the error reply is too long. -/
theorem failed_protocol_iff_tooLong (env : ServerEnv) {reason : Bytes}
    (hrejected : env.final.Rejected env.setting.ctx.lib env.setting.labels reason) :
    (∃ e, env.final.control = .failed e ∧ e.category = .protocol) ↔
      ReplyTooLong env.setting.ctx.maxFrameSize reason := by
  obtain ⟨i, frame, hi, hparse⟩ := hrejected
  obtain ⟨n, hn, -⟩ := env.exists_final
  have hinv := env.inv_final
  have hends : env.final.Ends := hn ▸ env.ends_state n
  simp only [ServerLoop.frames, List.getElem?_map, Option.map_eq_some_iff] at hi
  obtain ⟨h, hentry, rfl⟩ := hi
  have hmem := List.mem_of_getElem? hentry
  have houtcome : h.outcome = sendReply env.setting.ctx
      (makeError (env.setting.labels i).reply none reason) true := by
    rw [hinv.log i h hentry, handleFrame, hparse]
    rfl
  rcases sendReply_rejection_cases env.setting.ctx (env.setting.labels i).reply reason with
    ⟨reply, payload, wire, hsent⟩ | ⟨hinvalid, e, hthrown, hcategory⟩ |
    ⟨hvalid, hlong, e, hthrown, hcategory⟩
  · rw [hsent] at houtcome
    have hroom : ¬ ReplyTooLong env.setting.ctx.maxFrameSize reason := by
      rintro ⟨-, hlong⟩
      obtain ⟨rfl, -, -, -, hwire⟩ := sendReply_eq_reply hsent
      subst hwire
      have hfits := (sendReply_rejection_iff env.setting.ctx (env.setting.labels i).reply
        reason).mp ⟨payload, hsent⟩
      omega
    refine iff_of_false ?_ hroom
    rintro ⟨e, he, hcategory⟩
    have hclosing := hends.closes_closing h hmem (.inr ⟨reply, payload, wire, houtcome⟩)
    obtain ⟨failure, rfl⟩ := hends.closing_failed hclosing e he
    cases failure <;> cases hcategory
  · rw [hthrown] at houtcome
    have hcontrol := hends.thrown_failed h hmem e houtcome
    refine iff_of_false ?_ (by simp [ReplyTooLong, hinvalid])
    rintro ⟨e', he', hcategory'⟩
    rw [hcontrol] at he'
    cases he'
    rw [hcategory] at hcategory'
    cases hcategory'
  · rw [hthrown] at houtcome
    exact iff_of_true ⟨e, hends.thrown_failed h hmem e houtcome, hcategory⟩ ⟨hvalid, hlong⟩

end ServerEnv

namespace ServerAttempt

/-- The server has detected a protocol violation: an illegal frame header, or a frame that
`Message::parse` rejects with a `ProtocolError`. -/
def DetectedViolation (a : ServerAttempt) : Prop :=
  ∃ loop, a.handleConnection.loop = some loop ∧
    (loop.DetectedIllegal ∨ ∃ reason, loop.Rejected a.lib a.labels reason)

/-- The record of a frame that is rejected names the category `protocol` exactly when the
error reply is too long. -/
theorem recorded_iff_tooLong {a : ServerAttempt} {loop : ServerLoop}
    (hloop : a.handleConnection.loop = some loop) {reason : Bytes}
    (hrejected : loop.Rejected a.lib a.labels reason) :
    (a.handleConnection.record.success = false ∧
        a.handleConnection.record.errorCategory = .protocol) ↔
      ReplyTooLong a.config.common.maxFrameSize.toNat reason := by
  obtain ⟨decoder, hpolicy, rfl, -⟩ := policy_of_loop hloop
  rw [record_failed_iff hloop, ← maxFrameSize_of_policy hpolicy]
  exact (a.loopEnv decoder).failed_protocol_iff_tooLong hrejected

/-- A violation is recorded as one, and success is recorded exactly in the absence of an
error, if and only if the error reply to every rejected frame is too long to be sent. -/
theorem violation_recorded_iff (a : ServerAttempt) :
    ((a.DetectedViolation → a.handleConnection.record.success = false ∧
          a.handleConnection.record.errorCategory = .protocol) ∧
        (a.handleConnection.record.success = true ↔
          a.handleConnection.record.errorCategory = .none)) ↔
      ∀ loop reason, a.handleConnection.loop = some loop →
        loop.Rejected a.lib a.labels reason →
        ReplyTooLong a.config.common.maxFrameSize.toNat reason := by
  constructor
  · rintro ⟨hrecorded, -⟩ loop reason hloop hrejected
    rw [← recorded_iff_tooLong hloop hrejected]
    exact hrecorded ⟨loop, hloop, .inr ⟨reason, hrejected⟩⟩
  · intro htooLong
    refine ⟨?_, a.success_iff_category⟩
    rintro ⟨loop, hloop, ⟨e, hcontrol, hfront⟩ | ⟨reason, hrejected⟩⟩
    · obtain ⟨message, rfl⟩ := Framing.front_illegal_error hfront
      exact (record_failed_iff hloop .protocol).mpr ⟨_, hcontrol, rfl⟩
    · exact (recorded_iff_tooLong hloop hrejected).mpr (htooLong loop reason hloop hrejected)

/-- A frame that is not JSON is rejected, and the connection is recorded as a success. -/
theorem malformed_recorded_as_success :
    ¬ ∀ a : ServerAttempt,
      (a.DetectedViolation → a.handleConnection.record.success = false ∧
          a.handleConnection.record.errorCategory = .protocol) ∧
        (a.handleConnection.record.success = true ↔
          a.handleConnection.record.errorCategory = .none) := by
  intro h
  let a := ServerAttempt.sample minimalLibrary [Chunk.malformed]
  let env := a.loopEnv .standard
  have hloop : a.handleConnection.loop = some env.final := rfl
  have hfinal : env.final = env.state 6 := env.final_eq_state (by decide +kernel)
  have hframes : env.final.frames = [ascii "x"] := by
    rw [hfinal]
    decide +kernel
  obtain ⟨reason, hparse, hshort⟩ : ∃ reason,
      Message.parse a.lib (a.labels 0).request (ascii "x") = .error (protocolError reason) ∧
        (Json.quote reason).length < 1000 := ⟨_, rfl, by decide +kernel⟩
  have hrejected : env.final.Rejected a.lib a.labels reason :=
    ⟨0, ascii "x", by rw [hframes]; rfl, hparse⟩
  have hrecorded := (h a).1 ⟨env.final, hloop, .inr ⟨reason, hrejected⟩⟩
  obtain ⟨-, hlong⟩ := (recorded_iff_tooLong hloop hrejected).mp hrecorded
  have hmax : a.config.common.maxFrameSize.toNat = 1048576 := rfl
  omega

end ServerAttempt

end PqtlsLab
