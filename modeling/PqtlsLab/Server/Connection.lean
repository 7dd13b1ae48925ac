import PqtlsLab.Connection.Metrics
import PqtlsLab.Server.LoopInvariant

/-!
# One connection of the server

`handle_connection` from the accepted socket to the record: the handshake, the two
policy checks, the application loop and what is recorded of them. The record keeps
what had been assigned to it when an exception was thrown.
-/

namespace PqtlsLab

/-- Everything `handle_connection` depends on. -/
structure ServerAttempt where
  lib : JsonLibrary
  config : ServerConfig
  /-- `context_.profile()`. -/
  profile : SecurityProfile
  /-- `pending.peer_address`. -/
  peerAddress : Bytes
  /-- The label of the connection. -/
  label : Label
  timeouts : TimeoutCalls
  /-- `SSL_new` succeeds. -/
  sslNew : Bool
  /-- `SSL_set_fd` succeeds. -/
  setFd : Bool
  /-- `SSL_accept` succeeds. -/
  accepted : Bool
  /-- The time the handshake took. -/
  handshakeMs : UInt64
  /-- What OpenSSL reports after `SSL_accept`. -/
  ssl : SslView
  labels : ℕ → FrameLabels
  reads : ℕ → ReadResult
  writes : ℕ → WriteResult
  stopping : ℕ → Bool
  /-- The time the connection took. -/
  connectionMs : UInt64
  usage : ResourceUsage

/-- The server with the primary profile and the default limits, and a client that sends
some chunks and then closes the connection. -/
def ServerAttempt.sample (lib : JsonLibrary) (chunks : List Chunk) : ServerAttempt where
  lib := lib
  config := ServerConfig.sample (UInt32.ofNat Framing.kDefaultMaxFrameSize)
  profile := SecurityProfile.hybrid
  peerAddress := ascii "127.0.0.1:40000"
  label := Label.sample
  timeouts := ⟨none, none⟩
  sslNew := true
  setFd := true
  accepted := true
  handshakeMs := 0
  ssl := SslView.sample
  labels := (ServerSetting.sample lib).labels
  reads := deliver chunks
  writes _ := .accepted 1000
  stopping _ := false
  connectionMs := 0
  usage := ⟨none, none, none⟩

/-- What `handle_connection` leaves behind: the record, and the application loop if it
has been entered. -/
structure ServerConnection where
  record : ConnectionMetrics
  loop : Option ServerLoop

namespace ServerAttempt

/-- The record before the `try` block. -/
def initialRecord (a : ServerAttempt) : ConnectionMetrics where
  connectionId := generateUuidV4 a.label.entropy
  timestamp := iso8601Now a.label.now
  role := .server
  requestedProfile := a.config.common.profileId
  negotiatedProfile := a.profile.id
  experimentId := a.config.common.experimentId
  peerAddress := a.peerAddress

/-- What precedes the handshake. -/
def setUp (a : ServerAttempt) : Except Thrown Unit := do
  setTimeouts a.timeouts
  if !a.sslNew then .error (internalError (ascii "SSL_new failed"))
  else if !a.setFd then
    .error (internalError (ascii "SSL_set_fd failed on an accepted socket"))
  else .ok ()

/-- The exception for a handshake that failed. -/
def handshakeFailure (a : ServerAttempt) : Thrown :=
  if a.ssl.verifyResult ≠ x509VOk then
    certificateError (ascii "client certificate verification failed: " ++
      describeVerifyResult a.ssl)
  else handshakeError (ascii "TLS handshake with " ++ a.peerAddress ++ ascii " failed")

/-- The record after a completed handshake. -/
def negotiatedRecord (a : ServerAttempt) : ConnectionMetrics :=
  let outcome := inspect a.ssl
  { a.initialRecord with
    handshakeMs := a.handshakeMs
    tlsVersion := outcome.tlsVersion
    negotiatedGroup := outcome.negotiatedGroup
    cipherSuite := outcome.cipherSuite
    sessionReused := outcome.sessionReused
    authentication := a.profile.authentication.toText
    pqKeyEstablishment := isPostQuantumGroup outcome.negotiatedGroup
    hybridKeyEstablishment := isHybridGroup outcome.negotiatedGroup
    pqAuthentication := isPostQuantumAuthentication a.profile.authentication }

/-- The checks between the handshake and the application loop, and the construction of
the decoder. -/
def checkPolicy (a : ServerAttempt) : Except Thrown Framing.Decoder := do
  enforceGroupPolicy a.profile (inspect a.ssl)
  enforcePeerVerification a.ssl a.config.common
    (a.config.requireClientCertificate || a.profile.definition.requireClientCertificate)
  Framing.Decoder.create a.config.common.maxFrameSize.toNat

/-- The environment of the application loop. -/
def loopEnv (a : ServerAttempt) (decoder : Framing.Decoder) : ServerEnv where
  setting := {
    ctx := {
      lib := a.lib
      profile := a.profile
      outcome := inspect a.ssl
      maxFrameSize := decoder.maxFrameSize
      maxFrameSize_bounds := decoder.maxFrameSize_bounds }
    maxMessages := a.config.maxMessagesPerConnection.toNat
    labels := a.labels }
  reads := a.reads
  writes := a.writes
  stopping := a.stopping

/-- The assignments after the `try` block. -/
def conclude (a : ServerAttempt) (record : ConnectionMetrics) : ConnectionMetrics :=
  { record with connectionMs := a.connectionMs }.withUsage a.usage

/-- What the application loop leaves in the record. -/
def loopRecord (a : ServerAttempt) (loop : ServerLoop) : ConnectionMetrics :=
  let record := { a.negotiatedRecord with protocolMessageCount := loop.protocolMessageCount }
  match loop.control with
  | .failed e => record.withError e
  | _ =>
    { record with
      applicationBytesSent := loop.io.bytesSent
      applicationBytesReceived := loop.io.bytesReceived
      success := true
      errorCategory := .none }

/-- `PqTlsServer::handle_connection`, up to the writing of the record. -/
def handleConnection (a : ServerAttempt) : ServerConnection :=
  match a.setUp with
  | .error e => ⟨a.conclude (a.initialRecord.withError e), none⟩
  | .ok () =>
    if !a.accepted then
      ⟨a.conclude ({ a.initialRecord with handshakeMs := a.handshakeMs }.withError
        a.handshakeFailure), none⟩
    else
      match a.checkPolicy with
      | .error e => ⟨a.conclude (a.negotiatedRecord.withError e), none⟩
      | .ok decoder =>
        let loop := (a.loopEnv decoder).final
        ⟨a.conclude (a.loopRecord loop), some loop⟩

/-- An exception leaves a record that says so. -/
theorem conclude_withError (a : ServerAttempt) (record : ConnectionMetrics) (e : Thrown) :
    (a.conclude (record.withError e)).success = false ∧
      (a.conclude (record.withError e)).errorCategory ≠ .none :=
  ⟨rfl, e.category_ne_none⟩

/-- The loop is entered only after both policy checks have let the connection through. -/
theorem policy_of_loop {a : ServerAttempt} {loop : ServerLoop}
    (h : a.handleConnection.loop = some loop) :
    ∃ decoder, a.checkPolicy = .ok decoder ∧ loop = (a.loopEnv decoder).final ∧
      a.handleConnection.record = a.conclude (a.loopRecord loop) := by
  unfold handleConnection at h ⊢
  cases hsetup : a.setUp with
  | error e => simp [hsetup] at h
  | ok u =>
    simp only [hsetup] at h ⊢
    by_cases haccepted : a.accepted = true
    · simp only [haccepted, Bool.not_true, Bool.false_eq_true, if_false] at h ⊢
      cases hpolicy : a.checkPolicy with
      | error e => simp [hpolicy] at h
      | ok decoder =>
        simp only [hpolicy, Option.some.injEq] at h ⊢
        subst h
        exact ⟨decoder, rfl, rfl, rfl⟩
    · simp [haccepted] at h

/-- Without the loop, the record is one of a failure. -/
theorem record_of_no_loop {a : ServerAttempt} (h : a.handleConnection.loop = none) :
    a.handleConnection.record.success = false ∧
      a.handleConnection.record.errorCategory ≠ .none := by
  unfold handleConnection at h ⊢
  cases hsetup : a.setUp with
  | error e => exact a.conclude_withError a.initialRecord e
  | ok u =>
    simp only [hsetup] at h ⊢
    by_cases haccepted : a.accepted = true
    · simp only [haccepted, Bool.not_true, Bool.false_eq_true, if_false] at h ⊢
      cases hpolicy : a.checkPolicy with
      | error e => exact a.conclude_withError a.negotiatedRecord e
      | ok decoder => simp [hpolicy] at h
    · simp only [haccepted, Bool.not_false, if_true]
      exact a.conclude_withError _ a.handshakeFailure

/-- After a completed handshake the record is that of the handshake, except for what the
application loop and the way the connection ends put into it. -/
theorem record_of_accepted {a : ServerAttempt} (hsetup : a.setUp = .ok ())
    (haccepted : a.accepted = true) :
    ∃ m : ConnectionMetrics, a.handleConnection.record = a.conclude { a.negotiatedRecord with
      protocolMessageCount := m.protocolMessageCount
      applicationBytesSent := m.applicationBytesSent
      applicationBytesReceived := m.applicationBytesReceived
      success := m.success
      errorCategory := m.errorCategory
      errorMessage := m.errorMessage } := by
  simp only [handleConnection, hsetup, haccepted, Bool.not_true, Bool.false_eq_true, if_false]
  cases a.checkPolicy with
  | error e => exact ⟨a.negotiatedRecord.withError e, rfl⟩
  | ok decoder =>
    refine ⟨a.loopRecord (a.loopEnv decoder).final, ?_⟩
    simp only [loopRecord]
    split
    · rfl
    · rfl

/-- Every record claims success exactly when it names no category. -/
theorem success_iff_category (a : ServerAttempt) :
    a.handleConnection.record.success = true ↔
      a.handleConnection.record.errorCategory = .none := by
  cases hloop : a.handleConnection.loop with
  | none =>
    obtain ⟨hfailed, hcategory⟩ := record_of_no_loop hloop
    exact iff_of_false (by simp [hfailed]) hcategory
  | some loop =>
    obtain ⟨_, -, -, hrecord⟩ := policy_of_loop hloop
    rw [hrecord, loopRecord]
    split
    · rename_i e _
      obtain ⟨hfailed, hcategory⟩ := a.conclude_withError
        { a.negotiatedRecord with protocolMessageCount := loop.protocolMessageCount } e
      exact iff_of_false (by simp [hfailed]) hcategory
    · exact iff_of_true rfl rfl

/-- After the loop, the record names the category of the exception that has ended it. -/
theorem record_failed_iff {a : ServerAttempt} {loop : ServerLoop}
    (h : a.handleConnection.loop = some loop) (category : ErrorCategory) :
    (a.handleConnection.record.success = false ∧
        a.handleConnection.record.errorCategory = category) ↔
      ∃ e, loop.control = .failed e ∧ e.category = category := by
  obtain ⟨_, -, -, hrecord⟩ := policy_of_loop h
  rw [hrecord, loopRecord]
  split
  · rename_i e hcontrol
    rw [hcontrol]
    constructor
    · rintro ⟨-, hcategory⟩
      exact ⟨e, rfl, hcategory⟩
    · rintro ⟨_, ⟨rfl⟩, hcategory⟩
      exact ⟨rfl, hcategory⟩
  · rename_i hcontrol
    constructor
    · rintro ⟨hfailed, -⟩
      cases hfailed
    · rintro ⟨e, hfailed, -⟩
      exact absurd hfailed (hcontrol e)

/-- The frames of the loop are limited by the configuration. -/
theorem maxFrameSize_of_policy {a : ServerAttempt} {decoder : Framing.Decoder}
    (h : a.checkPolicy = .ok decoder) :
    decoder.maxFrameSize = a.config.common.maxFrameSize.toNat := by
  simp only [checkPolicy, bind_eq_ok_iff] at h
  obtain ⟨_, -, _, -, hcreate⟩ := h
  exact Framing.Decoder.maxFrameSize_of_create hcreate

/-- The group policy has been enforced before the loop. -/
theorem permits_of_policy {a : ServerAttempt} {decoder : Framing.Decoder}
    (h : a.checkPolicy = .ok decoder) :
    a.profile.permitsNegotiatedGroup (inspect a.ssl).negotiatedGroup = true := by
  unfold checkPolicy at h
  cases hgroup : enforceGroupPolicy a.profile (inspect a.ssl) with
  | ok u => exact (enforceGroupPolicy_eq_ok_iff _ _).mp hgroup
  | error e => simp [hgroup, bind, Except.bind] at h

end ServerAttempt

end PqtlsLab
