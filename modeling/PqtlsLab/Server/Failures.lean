import PqtlsLab.Client.Failures
import PqtlsLab.Connection.RecordText
import PqtlsLab.Server.Connection

/-!
# The texts of the server's exceptions

What the JSON reader complains about in a request is quoted in a reply, and never in an
exception that ends the connection. If the reply cannot be written, that exception is one
of the writer, which is described in UTF-8. So the record of a connection can be written
whatever the client sends.
-/

namespace PqtlsLab

open Message

/-- An exception that the handling of a frame lets through is described in UTF-8. -/
theorem valid_of_handleFrame_thrown {ctx : ServerContext} (hlib : ctx.lib.Documented)
    {labels : FrameLabels} {frame : Bytes} {e : Thrown}
    (h : handleFrame ctx labels frame = .thrown e) : Utf8.valid e.message = true := by
  have hsend {message : Message} {closing : Bool}
      (hsend : sendReply ctx message closing = .thrown e) : Utf8.valid e.message = true := by
    unfold sendReply at hsend
    split at hsend
    · rename_i hserialize
      cases hsend
      rw [serialize_eq_error hserialize]
      exact hlib.typeErrorText _
    · rename_i payload _
      have hencode := Framing.described_encode payload ctx.maxFrameSize
      split at hsend
      · rename_i hencoded
        cases hsend
        rwa [hencoded] at hencode
      · cases hsend
  unfold handleFrame at h
  split at h
  · split at h
    · exact hsend h
    · cases h
  · exact hsend h
  · rename_i e' hnot hparse
    obtain rfl : e' = e := by simpa using h
    -- every complaint about a message itself is a protocol violation, which has been caught
    have hother : ∀ reason, e' ≠ protocolError reason := fun reason heq => hnot reason _ heq
    rcases parse_eq_error hparse with ⟨-, what, -, heq⟩ | ⟨-, x, hx, hkind, rfl⟩ |
      ⟨-, doc, name, -, -, -, heq⟩ | ⟨-, reason, -, heq⟩
    · exact absurd heq (hother _)
    · exact hlib.otherText frame x hx hkind
    · exact absurd heq (hother _)
    · exact absurd heq (hother _)

namespace ServerLoop

/-- If the loop has been left by an exception, it is described in UTF-8. -/
def EndsDescribed (s : ServerLoop) : Prop :=
  ∀ e, s.control = .failed e → Utf8.valid e.message = true

/-- Every move that throws throws an exception described in UTF-8. -/
theorem Move.endsDescribed {cfg : ServerSetting} (hlib : cfg.ctx.lib.Documented)
    {input : ServerInput} {s t : ServerLoop} (h : Move cfg input s t) : t.EndsDescribed := by
  intro e he
  cases h with
  | illegal e' hcontrol hopen hlimit hfront =>
    cases he
    exact Framing.valid_of_illegal hfront
  | thrown decoder frame e' hcontrol hopen hgo hlimit hfront hmax houtcome =>
    cases he
    exact valid_of_handleFrame_thrown hlib houtcome
  | illegalData chunk decoder e' hcontrol hread hremainder hmax hfront =>
    cases he
    exact Framing.valid_of_illegal hfront
  | readFailed failure hcontrol hread hfailure =>
    cases he
    exact valid_throwSslError (by decide) failure
  | writeFailed rest failure hcontrol hrest hwrite =>
    cases he
    exact valid_throwSslError (by decide) failure
  | leave | starve | reply | close | data | endOfStream | written | accepted => cases he

end ServerLoop

/-- The loop ends normally or with an exception described in UTF-8. -/
theorem ServerEnv.final_endsDescribed (env : ServerEnv)
    (hlib : env.setting.ctx.lib.Documented) : env.final.EndsDescribed :=
  env.program.final_invariant
    (fun _ hs _ => (ServerLoop.step_move env.setting _ hs).endsDescribed hlib)
    (fun e he => by cases he)

namespace ServerAttempt

/-- The settings and the texts of OpenSSL and of the operating system are UTF-8. -/
structure TextValid (a : ServerAttempt) : Prop where
  profileId : Utf8.valid a.config.common.profileId = true
  experimentId : Utf8.valid a.config.common.experimentId = true
  profile : Utf8.valid a.profile.id = true
  groups : ∀ group ∈ a.profile.groups, Utf8.valid group = true
  peerAddress : Utf8.valid a.peerAddress = true
  receiveTimeout : ∀ text, a.timeouts.receive = some text → Utf8.valid text = true
  sendTimeout : ∀ text, a.timeouts.send = some text → Utf8.valid text = true
  ssl : a.ssl.TextValid

variable {a : ServerAttempt}

/-- What precedes the handshake is described. -/
theorem described_setUp (h : a.TextValid) : Described (fun _ => True) a.setUp := by
  refine (described_setTimeouts h.receiveTimeout h.sendTimeout).bind fun _ _ => ?_
  split
  · change Utf8.valid (ascii "SSL_new failed") = true
    decide
  split
  · change Utf8.valid (ascii "SSL_set_fd failed on an accepted socket") = true
    decide
  · trivial

/-- The exception for a handshake that failed is described in UTF-8. -/
theorem valid_handshakeFailure (h : a.TextValid) :
    Utf8.valid a.handshakeFailure.message = true := by
  unfold handshakeFailure
  split
  · exact Utf8.valid_append (by decide) (valid_describeVerifyResult h.ssl)
  · exact Utf8.valid_append (Utf8.valid_append (by decide) h.peerAddress) (by decide)

/-- The checks between the handshake and the application loop are described. -/
theorem described_checkPolicy (h : a.TextValid) : Described (fun _ => True) a.checkPolicy := by
  have hgroup : Described (fun _ => True) (enforceGroupPolicy a.profile (inspect a.ssl)) := by
    unfold enforceGroupPolicy
    split
    · trivial
    · exact Utf8.valid_append (by decide)
        (a.profile.valid_explainGroupRejection h.profile h.groups h.ssl.groupName)
  refine hgroup.bind fun _ _ => ?_
  refine (described_enforcePeerVerification h.ssl a.config.common _).bind fun _ _ => ?_
  unfold Framing.Decoder.create
  split
  · trivial
  · exact Utf8.valid_append (Utf8.valid_append (Utf8.valid_append (Utf8.valid_append (by decide)
      (Utf8.valid_decimal _)) (by decide)) (Utf8.valid_decimal _)) (by decide)

/-- The record before the `try` block can be written. -/
theorem textValid_initialRecord (h : a.TextValid) : a.initialRecord.TextValid where
  experimentId := h.experimentId
  connectionId := (plain_generateUuidV4 _).valid
  requestedProfile := h.profileId
  negotiatedProfile := h.profile
  tlsVersion := rfl
  negotiatedGroup := rfl
  cipherSuite := rfl
  authentication := rfl
  errorMessage := by rintro _ ⟨⟩
  peerAddress := h.peerAddress
  timestamp := (plain_iso8601Now _).valid

/-- The record after the handshake can be written. -/
theorem textValid_negotiatedRecord (h : a.TextValid) : a.negotiatedRecord.TextValid :=
  { textValid_initialRecord h with
    tlsVersion := h.ssl.version
    negotiatedGroup := h.ssl.groupName
    cipherSuite := h.ssl.cipherName
    authentication := a.profile.authentication.plain_toText.valid }

/-- An exception described in UTF-8 leaves a record that can be written. -/
theorem textValid_conclude_withError {m : ConnectionMetrics} (hm : m.TextValid) {e : Thrown}
    (he : Utf8.valid e.message = true) : (a.conclude (m.withError e)).TextValid :=
  { hm with
    errorMessage := by
      rintro _ ⟨rfl⟩
      exact he }

/-- The record of a connection can be written, whatever becomes of the connection. -/
theorem textValid_record (h : a.TextValid) (hlib : a.lib.Documented) :
    a.handleConnection.record.TextValid := by
  have hsetup := described_setUp h
  have hpolicy := described_checkPolicy h
  have hinitial := textValid_initialRecord h
  have hnegotiated := textValid_negotiatedRecord h
  unfold handleConnection
  split
  · rename_i heq
    rw [heq] at hsetup
    exact textValid_conclude_withError hinitial hsetup
  split
  · refine textValid_conclude_withError ?_ (valid_handshakeFailure h)
    exact { hinitial with }
  split
  · rename_i heq
    rw [heq] at hpolicy
    exact textValid_conclude_withError hnegotiated hpolicy
  · rename_i decoder _
    have hends := (a.loopEnv decoder).final_endsDescribed hlib
    simp only [loopRecord]
    split
    · rename_i e hcontrol
      refine textValid_conclude_withError ?_ (hends e hcontrol)
      exact { hnegotiated with }
    · exact { hnegotiated with }

end ServerAttempt

end PqtlsLab
