import PqtlsLab.Client.ExchangeRuns
import PqtlsLab.Connection.Metrics
import PqtlsLab.Policy.Handshake

/-!
# One connection of the client

`connect_and_exchange` collects what it observes in a local result that it returns
at the very end; `run_once` turns an exception into a record of its own, completes the
record and hands it to the metrics writer.
-/

namespace PqtlsLab

/-- `ClientResult`, with the defaults of its declaration. -/
structure ClientResult where
  metrics : ConnectionMetrics := {}
  responses : List Message := []
  ok : Bool := false

/-- Everything `run_once` depends on. -/
structure ClientAttempt where
  lib : JsonLibrary
  config : ClientConfig
  /-- `context_.profile()`. -/
  profile : SecurityProfile
  messages : List Message
  /-- The label of the connection. -/
  label : Label
  /-- The label that `run_once` uses if the record has none. -/
  fallbackLabel : Label
  resolution : Resolution
  timeouts : TimeoutCalls
  /-- `SSL_new` succeeds. -/
  sslNew : Bool
  /-- `SSL_set_fd` succeeds. -/
  setFd : Bool
  /-- `SSL_set_tlsext_host_name` succeeds. -/
  setHostName : Bool
  /-- `SSL_set1_host` succeeds. -/
  setHost : Bool
  /-- The failure of `SSL_connect`, if it fails. -/
  connectFailure : Option SslFailure
  /-- The time the handshake took. -/
  handshakeMs : UInt64
  /-- What OpenSSL reports after `SSL_connect`. -/
  ssl : SslView
  labels : ℕ → Label
  reads : ℕ → ReadResult
  writes : ℕ → WriteResult
  /-- The time the connection took. -/
  connectionMs : UInt64
  usage : ResourceUsage

/-- A client with the primary profile that sends a `ping` over an unexceptional connection
and gets some chunks in return. -/
def ClientAttempt.sample (lib : JsonLibrary) (ssl : SslView) (chunks : List Chunk) :
    ClientAttempt where
  lib := lib
  config := { common := { profileId := ascii "hybrid-x25519-mlkem768" } }
  profile := SecurityProfile.hybrid
  messages := [Message.makeRequest Label.sample .ping JsonValue.emptyObject]
  label := Label.sample
  fallbackLabel := Label.sample
  resolution := .addresses [.connected (.inet (ascii "127.0.0.1") 8443)]
  timeouts := ⟨none, none⟩
  sslNew := true
  setFd := true
  setHostName := true
  setHost := true
  connectFailure := none
  handshakeMs := 0
  ssl := ssl
  labels _ := Label.sample
  reads := deliver chunks
  writes _ := .accepted 1000
  connectionMs := 0
  usage := ⟨none, none, none⟩

/-- What `connect_and_exchange` comes to: the application exchange if it has been
entered, and the result or the exception. -/
structure ClientConnection where
  exchange : Option Exchange
  result : Except Thrown ClientResult

namespace ClientAttempt

/-- What precedes the handshake, up to the name of the peer. -/
def setUp (a : ClientAttempt) : Except Thrown PeerName := do
  let peer ← tcpConnect a.config.host a.config.port a.resolution
  setTimeouts a.timeouts
  if !a.sslNew then .error (internalError (ascii "SSL_new failed"))
  else if !a.setFd then .error (internalError (ascii "SSL_set_fd failed"))
  else if !a.setHostName then
    .error (configurationError (ascii "failed to set the TLS SNI hostname to '" ++
      a.config.effectiveServerName ++ ascii "'"))
  else if !a.config.common.insecureDevelopmentMode && !a.setHost then
    .error (configurationError (ascii "failed to enable hostname verification for '" ++
      a.config.effectiveServerName ++ ascii "'"))
  else .ok peer

/-- The exception for a handshake that failed. -/
def handshakeFailure (a : ClientAttempt) (failure : SslFailure) : Thrown :=
  if a.ssl.verifyResult ≠ x509VOk then
    certificateError (ascii "TLS handshake failed during certificate verification: " ++
      describeVerifyResult a.ssl)
  else
    match failure with
    | .syscallAgain | .syscallOther | .zeroReturn =>
      networkError (ascii "TLS handshake failed: the connection was closed by the peer")
    | _ =>
      handshakeError (ascii "TLS handshake failed against " ++ a.config.host ++ ascii ":" ++
        decimal a.config.port.toNat)

/-- The search of `std::string::find`. -/
def containsText (text pattern : Bytes) : Bool :=
  text.tails.any fun suffix => pattern.isPrefixOf suffix

/-- The record after a completed handshake, with the assignments of
`populate_negotiation_fields`. -/
def negotiatedRecord (a : ClientAttempt) (peer : PeerName) : ConnectionMetrics :=
  let outcome := inspect a.ssl
  let sig := outcome.peerSignatureAlgorithm
  { connectionId := generateUuidV4 a.label.entropy
    timestamp := iso8601Now a.label.now
    role := .client
    requestedProfile := a.config.common.profileId
    experimentId := a.config.common.experimentId
    peerAddress := peer.address
    handshakeMs := a.handshakeMs
    tlsVersion := outcome.tlsVersion
    negotiatedGroup := outcome.negotiatedGroup
    cipherSuite := outcome.cipherSuite
    sessionReused := outcome.sessionReused
    authentication := if sig.isEmpty then a.profile.authentication.toText else sig
    pqKeyEstablishment := isPostQuantumGroup outcome.negotiatedGroup
    hybridKeyEstablishment := isHybridGroup outcome.negotiatedGroup
    pqAuthentication := containsText sig (ascii "mldsa") || containsText sig (ascii "ML-DSA") ||
      containsText sig (ascii "dilithium")
    negotiatedProfile := a.profile.id }

/-- The checks between the handshake and the application exchange, and the construction
of the decoder. -/
def checkPolicy (a : ClientAttempt) : Except Thrown Framing.Decoder := do
  enforcePeerVerification a.ssl a.config.common true
  enforceGroupPolicy a.profile (inspect a.ssl)
  Framing.Decoder.create a.config.common.maxFrameSize.toNat

/-- The environment of the application exchange. -/
def exchangeEnv (a : ClientAttempt) (decoder : Framing.Decoder) : ClientEnv where
  setting := {
    lib := a.lib
    maxFrameSize := decoder.maxFrameSize
    maxFrameSize_bounds := decoder.maxFrameSize_bounds
    messages := a.messages
    labels := a.labels }
  reads := a.reads
  writes := a.writes

/-- What the end of the exchange means: the completed result, or the exception. -/
def exchangeResult (a : ClientAttempt) (peer : PeerName) (x : Exchange) :
    Except Thrown ClientResult :=
  match x.control with
  | .failed e => .error e
  | _ =>
    .ok {
      metrics := { a.negotiatedRecord peer with
        protocolMessageCount := x.protocolMessageCount
        applicationBytesSent := x.io.bytesSent
        applicationBytesReceived := x.io.bytesReceived
        connectionMs := a.connectionMs
        processCpuUserMs := a.usage.cpuUserMs
        processCpuSystemMs := a.usage.cpuSystemMs
        peakMemoryKib := a.usage.peakMemoryKib
        success := true
        errorCategory := .none }
      responses := x.responses
      ok := true }

/-- `PqTlsClient::connect_and_exchange`. -/
def connectAndExchange (a : ClientAttempt) : ClientConnection :=
  match a.setUp with
  | .error e => ⟨none, .error e⟩
  | .ok peer =>
    match a.connectFailure with
    | some failure => ⟨none, .error (a.handshakeFailure failure)⟩
    | none =>
      match a.checkPolicy with
      | .error e => ⟨none, .error e⟩
      | .ok decoder =>
        let x := (a.exchangeEnv decoder).final
        ⟨some x, a.exchangeResult peer x⟩

/-- The result of `run_once` before the record is completed: an exception leaves nothing
but its own description. -/
def outcomeOrError (a : ClientAttempt) : ClientResult :=
  match a.connectAndExchange.result with
  | .ok result => result
  | .error e => { metrics := ({} : ConnectionMetrics).withError e }

/-- The fields that `run_once` sets in every record. -/
def completeRecord (a : ClientAttempt) (m : ConnectionMetrics) : ConnectionMetrics :=
  { m with
    connectionId :=
      if m.connectionId.isEmpty then generateUuidV4 a.fallbackLabel.entropy else m.connectionId
    timestamp := if m.timestamp.isEmpty then iso8601Now a.fallbackLabel.now else m.timestamp
    role := .client
    requestedProfile := a.config.common.profileId
    experimentId := a.config.common.experimentId }

/-- The result of `run_once`. -/
def clientResult (a : ClientAttempt) : ClientResult :=
  { a.outcomeOrError with metrics := a.completeRecord a.outcomeOrError.metrics }

/-- `PqTlsClient::run_once`. A missing writer behaves as one that is not enabled. -/
def runOnce (a : ClientAttempt) (writer : MetricsWriter) :
    MetricsWriter × Except Thrown ClientResult :=
  match writer.write a.lib a.clientResult.metrics with
  | (writer, .ok ()) => (writer, .ok a.clientResult)
  | (writer, .error e) => (writer, .error e)

/-- The end of the exchange means an exception exactly when the exchange has failed. -/
theorem exchangeResult_eq_error_iff {a : ClientAttempt} {peer : PeerName} {x : Exchange}
    {e : Thrown} : a.exchangeResult peer x = .error e ↔ x.control = .failed e := by
  unfold exchangeResult
  split
  · rename_i hcontrol
    simp [hcontrol]
  · rename_i hcontrol
    exact iff_of_false (by simp) (hcontrol e)

/-- A connection fails before the exchange, or it passes both policy checks and the exchange decides
its result. -/
theorem connectAndExchange_cases (a : ClientAttempt) :
    (∃ e, a.connectAndExchange = ⟨none, .error e⟩) ∨
      ∃ peer decoder, a.setUp = .ok peer ∧ a.connectFailure = none ∧ a.checkPolicy = .ok decoder ∧
        a.connectAndExchange = ⟨some (a.exchangeEnv decoder).final,
          a.exchangeResult peer (a.exchangeEnv decoder).final⟩ := by
  unfold connectAndExchange
  cases hsetup : a.setUp with
  | error e => exact .inl ⟨e, rfl⟩
  | ok peer =>
    cases hconnect : a.connectFailure with
    | some failure => exact .inl ⟨_, rfl⟩
    | none =>
      cases hpolicy : a.checkPolicy with
      | error e => exact .inl ⟨e, rfl⟩
      | ok decoder => exact .inr ⟨peer, decoder, rfl, rfl, rfl, rfl⟩

/-- The exchange is entered only after both policy checks have let the connection
through. -/
theorem policy_of_exchange {a : ClientAttempt} {x : Exchange}
    (h : a.connectAndExchange.exchange = some x) :
    ∃ peer decoder, a.setUp = .ok peer ∧ a.connectFailure = none ∧ a.checkPolicy = .ok decoder ∧
      x = (a.exchangeEnv decoder).final ∧
      a.connectAndExchange.result = a.exchangeResult peer x := by
  rcases a.connectAndExchange_cases with
    ⟨e, hfailed⟩ | ⟨peer, decoder, hsetup, hconnect, hpolicy, hrun⟩
  · rw [hfailed] at h
    cases h
  · rw [hrun] at h ⊢
    cases h
    exact ⟨peer, decoder, hsetup, hconnect, hpolicy, rfl, rfl⟩

/-- A result is returned only after the exchange. -/
theorem exchange_of_result {a : ClientAttempt} {r : ClientResult}
    (h : a.connectAndExchange.result = .ok r) : ∃ x, a.connectAndExchange.exchange = some x := by
  rcases a.connectAndExchange_cases with ⟨e, hfailed⟩ | ⟨peer, decoder, -, -, -, hrun⟩
  · rw [hfailed] at h
    cases h
  · rw [hrun]
    exact ⟨_, rfl⟩

/-- The group policy has been enforced before the exchange. -/
theorem permits_of_policy {a : ClientAttempt} {decoder : Framing.Decoder}
    (h : a.checkPolicy = .ok decoder) :
    a.profile.permitsNegotiatedGroup (inspect a.ssl).negotiatedGroup = true := by
  unfold checkPolicy at h
  cases hpeer : enforcePeerVerification a.ssl a.config.common true with
  | error e => simp [hpeer, bind, Except.bind] at h
  | ok u =>
    cases hgroup : enforceGroupPolicy a.profile (inspect a.ssl) with
    | error e => simp [hpeer, hgroup, bind, Except.bind] at h
    | ok u => exact (enforceGroupPolicy_eq_ok_iff _ _).mp hgroup

end ClientAttempt

end PqtlsLab
