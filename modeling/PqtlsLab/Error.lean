import PqtlsLab.Foundation.Bytes
import PqtlsLab.Foundation.Fallible

/-!
# The error taxonomy

Every deliberate failure carries a coarse category, which is what a metrics record
keeps, and a free-form message. Exceptions of the JSON library and of the standard
library carry only their text; the two connection functions tell them apart from
project errors and record them as internal.
-/

namespace PqtlsLab

/-- `ErrorCategory`. -/
inductive ErrorCategory where
  | none
  | configuration
  | capability
  | certificate
  | tlsPolicy
  | handshake
  | network
  | protocol
  | timeout
  | internal
  deriving DecidableEq, Repr

/-- `to_string(ErrorCategory)`. -/
def ErrorCategory.toText : ErrorCategory → Bytes
  | .none => ascii "none"
  | .configuration => ascii "configuration"
  | .capability => ascii "capability"
  | .certificate => ascii "certificate"
  | .tlsPolicy => ascii "tls-policy"
  | .handshake => ascii "handshake"
  | .network => ascii "network"
  | .protocol => ascii "protocol"
  | .timeout => ascii "timeout"
  | .internal => ascii "internal"

/-- What a C++ `throw` can carry here: an `Error` of this project with its category
and message, or any other `std::exception` with its `what()` text. The category `None`
stands for the absence of an error, and no `throw` uses it. -/
inductive Thrown where
  | error (category : ErrorCategory) (message : Bytes) (genuine : category ≠ .none)
  | exception (what : Bytes)
  deriving DecidableEq

/-- `InternalError`, also as `openssl_error(ErrorCategory::Internal, ...)`. -/
def internalError (message : Bytes) : Thrown := .error .internal message (by decide)

/-- `ConfigurationError`. -/
def configurationError (message : Bytes) : Thrown := .error .configuration message (by decide)

/-- `CapabilityError`. -/
def capabilityError (message : Bytes) : Thrown := .error .capability message (by decide)

/-- `CertificateError`. -/
def certificateError (message : Bytes) : Thrown := .error .certificate message (by decide)

/-- `TlsPolicyError`. -/
def tlsPolicyError (message : Bytes) : Thrown := .error .tlsPolicy message (by decide)

/-- `HandshakeError`. -/
def handshakeError (message : Bytes) : Thrown := .error .handshake message (by decide)

/-- `NetworkError`. -/
def networkError (message : Bytes) : Thrown := .error .network message (by decide)

/-- `ProtocolError`. -/
def protocolError (message : Bytes) : Thrown := .error .protocol message (by decide)

/-- `TimeoutError`. -/
def timeoutError (message : Bytes) : Thrown := .error .timeout message (by decide)

/-- `ExitCode`. -/
inductive ExitCode where
  | success
  | configurationError
  | capabilityError
  | certificateError
  | tlsPolicyError
  | handshakeError
  | networkError
  | protocolError
  | timeoutError
  | internalError
  deriving DecidableEq, Repr

/-- The number of an exit code. -/
def ExitCode.toNat : ExitCode → ℕ
  | .success => 0
  | .configurationError => 2
  | .capabilityError => 3
  | .certificateError => 4
  | .tlsPolicyError => 5
  | .handshakeError => 6
  | .networkError => 7
  | .protocolError => 8
  | .timeoutError => 9
  | .internalError => 70

/-- `exit_code_for`. -/
def exitCodeFor : ErrorCategory → ExitCode
  | .none => .success
  | .configuration => .configurationError
  | .capability => .capabilityError
  | .certificate => .certificateError
  | .tlsPolicy => .tlsPolicyError
  | .handshake => .handshakeError
  | .network => .networkError
  | .protocol => .protocolError
  | .timeout => .timeoutError
  | .internal => .internalError

/-- The exit code with which `main` ends on an exception: both binaries catch the errors of the
project and then every other `std::exception`. -/
def Thrown.exitCode : Thrown → ExitCode
  | .error category _ _ => exitCodeFor category
  | .exception _ => .internalError

/-- The category under which a connection function records an exception. -/
def Thrown.category : Thrown → ErrorCategory
  | .error category _ _ => category
  | .exception _ => .internal

/-- The text under which a connection function records an exception. -/
def Thrown.message : Thrown → Bytes
  | .error _ message _ => message
  | .exception what => what

/-- An exception is never recorded as the absence of an error. -/
theorem Thrown.category_ne_none (e : Thrown) : e.category ≠ .none := by
  cases e with
  | error category message genuine => exact genuine
  | exception what => simp [Thrown.category]

end PqtlsLab
