import PqtlsLab.Policy.Config
import PqtlsLab.Policy.GroupPolicy

/-!
# What a handshake negotiated

OpenSSL reports the parameters of a completed handshake as C strings, any of which
may be missing. `inspect` collects them, and the two policy checks decide whether
the connection may carry application data.
-/

namespace PqtlsLab

/-- What OpenSSL reports about a connection after the handshake. -/
structure SslView where
  /-- `SSL_get_version`. -/
  version : Option Bytes
  /-- `SSL_CIPHER_get_name` of the current cipher. -/
  cipherName : Option Bytes
  /-- `SSL_get0_group_name`. -/
  groupName : Option Bytes
  /-- The name of `SSL_get_peer_signature_nid`. -/
  peerSignature : Option Bytes
  /-- `SSL_session_reused`. -/
  sessionReused : Bool
  /-- `SSL_get_verify_result`. -/
  verifyResult : ℤ
  /-- `X509_verify_cert_error_string` of the verification result. -/
  verifyText : Option Bytes
  /-- `SSL_get1_peer_certificate` returns a certificate. -/
  peerCertificate : Bool

/-- The report on an unexceptional connection with the hybrid group. -/
def SslView.sample : SslView where
  version := some (ascii "TLSv1.3")
  cipherName := some (ascii "TLS_AES_256_GCM_SHA384")
  groupName := some (ascii "X25519MLKEM768")
  peerSignature := some (ascii "ecdsa-with-SHA256")
  sessionReused := false
  verifyResult := 0
  verifyText := some (ascii "ok")
  peerCertificate := true

/-- `HandshakeOutcome`. -/
structure HandshakeOutcome where
  tlsVersion : Bytes
  negotiatedGroup : Bytes
  cipherSuite : Bytes
  peerSignatureAlgorithm : Bytes
  sessionReused : Bool

/-- `TlsContext::inspect`. -/
def inspect (ssl : SslView) : HandshakeOutcome where
  tlsVersion := ssl.version.getD []
  negotiatedGroup := ssl.groupName.getD []
  cipherSuite := ssl.cipherName.getD []
  peerSignatureAlgorithm := ssl.peerSignature.getD []
  sessionReused := ssl.sessionReused

/-- `X509_V_OK`. -/
def x509VOk : ℤ := 0

/-- The hint that `describe_verify_result` appends, by the number of the X509 error. -/
def verifyHint (verifyResult : ℤ) : Bytes :=
  if verifyResult = 20 ∨ verifyResult = 19 ∨ verifyResult = 18 then
    ascii ". The issuing CA is not in the configured trust store: pass --ca-certificate " ++
      ascii "pointing at the CA that signed the peer certificate."
  else if verifyResult = 10 then
    ascii ". Regenerate the development certificates, or check the system clock."
  else if verifyResult = 9 then
    ascii ". The certificate starts in the future: check the system clock on both hosts."
  else if verifyResult = 62 then
    ascii ". The name given with --server-name is not covered by the certificate's " ++
      ascii "subjectAltName entries."
  else []

/-- `describe_verify_result`. -/
def describeVerifyResult (ssl : SslView) : Bytes :=
  ssl.verifyText.getD (ascii "unknown verification error") ++ verifyHint ssl.verifyResult

/-- `TlsContext::enforce_group_policy`. -/
def enforceGroupPolicy (profile : SecurityProfile) (outcome : HandshakeOutcome) :
    Except Thrown Unit :=
  if profile.permitsNegotiatedGroup outcome.negotiatedGroup then .ok ()
  else .error (tlsPolicyError (ascii "downgrade policy violation: " ++
    profile.explainGroupRejection outcome.negotiatedGroup))

/-- `TlsContext::enforce_peer_verification`. -/
def enforcePeerVerification (ssl : SslView) (config : CommonConfig)
    (requirePeerCertificate : Bool) : Except Thrown Unit :=
  if config.insecureDevelopmentMode then .ok ()
  else if ssl.verifyResult ≠ x509VOk then
    .error (certificateError (ascii "peer certificate verification failed: " ++
      describeVerifyResult ssl))
  else if !ssl.peerCertificate && requirePeerCertificate then
    .error (certificateError (ascii "the peer presented no certificate. An unauthenticated " ++
      ascii "peer cannot be distinguished from an active man-in-the-middle, so the " ++
      ascii "connection is refused."))
  else .ok ()

/-- The group policy lets exactly the permitted groups through. -/
theorem enforceGroupPolicy_eq_ok_iff (profile : SecurityProfile) (outcome : HandshakeOutcome) :
    enforceGroupPolicy profile outcome = .ok () ↔
      profile.permitsNegotiatedGroup outcome.negotiatedGroup = true := by
  unfold enforceGroupPolicy
  split
  · simpa
  · rename_i hnot
    simpa using hnot

end PqtlsLab
