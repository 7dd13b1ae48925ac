import PqtlsLab.Protocol.Framing

/-!
# Configuration and its validation

The settings of the two binaries, with their defaults. `ConfigLoader::validate` is a
sequence of checks of which the first that fails is reported; whether the environment
has been declared to be production is an argument.
-/

namespace PqtlsLab

/-- `OutputFormat`. -/
inductive OutputFormat where
  | human
  | json
  deriving DecidableEq, Repr

/-- `CommonConfig`, with the defaults of its declaration. -/
structure CommonConfig where
  profileId : Bytes := ascii "classical-x25519"
  profilesFile : Bytes := []
  certificateFile : Bytes := []
  privateKeyFile : Bytes := []
  caCertificateFile : Bytes := []
  metricsFile : Bytes := []
  experimentId : Bytes := []
  maxFrameSize : UInt32 := UInt32.ofNat Framing.kDefaultMaxFrameSize
  handshakeTimeoutMs : UInt32 := 10000
  ioTimeoutMs : UInt32 := 30000
  outputFormat : OutputFormat := .human
  logLevel : Bytes := ascii "info"
  insecureDevelopmentMode : Bool := false
  keylogFile : Bytes := []

/-- `ClientConfig`, with the defaults of its declaration. -/
structure ClientConfig where
  common : CommonConfig := {}
  host : Bytes := ascii "localhost"
  port : UInt16 := 8443
  serverName : Bytes := []
  message : Bytes := []
  messageFile : Bytes := []
  connections : UInt32 := 1
  concurrency : UInt32 := 1
  warmupConnections : UInt32 := 0
  reuseSession : Bool := false
  messagesPerConnection : UInt32 := 1
  benchmarkOutput : Bytes := []

/-- `effective_server_name`. -/
def ClientConfig.effectiveServerName (c : ClientConfig) : Bytes :=
  if c.serverName.isEmpty then c.host else c.serverName

/-- `ServerConfig`, with the defaults of its declaration. -/
structure ServerConfig where
  common : CommonConfig := {}
  listenAddress : Bytes := ascii "0.0.0.0"
  port : UInt16 := 8443
  maxConnections : UInt32 := 256
  backlog : UInt32 := 128
  idleTimeoutMs : UInt32 := 60000
  maxMessagesPerConnection : UInt32 := 1024
  requireClientCertificate : Bool := false

/-- The configuration of a server with the primary profile and some limit on the frames. -/
def ServerConfig.sample (maxFrameSize : UInt32) : ServerConfig where
  common := {
    profileId := ascii "hybrid-x25519-mlkem768"
    certificateFile := ascii "server.crt"
    privateKeyFile := ascii "server.key"
    maxFrameSize := maxFrameSize }

/-- A sequence of checks, each a violated condition and its message. The first violation
is thrown. -/
def firstViolation (checks : List (Bool × Bytes)) : Except Thrown Unit :=
  match checks.find? Prod.fst with
  | some check => .error (configurationError check.2)
  | none => .ok ()

/-- The checks pass exactly when no condition is violated. -/
theorem firstViolation_eq_ok_iff (checks : List (Bool × Bytes)) :
    firstViolation checks = .ok () ↔ ∀ check ∈ checks, check.1 = false := by
  unfold firstViolation
  cases h : checks.find? Prod.fst with
  | none => simpa [List.find?_eq_none] using h
  | some check =>
    have hmem := List.mem_of_find?_eq_some h
    have htrue := List.find?_some h
    simp only [reduceCtorEq, false_iff, not_forall]
    exact ⟨check, hmem, by simp [htrue]⟩

/-- `validate_common`. -/
def commonChecks (c : CommonConfig) : List (Bool × Bytes) :=
  [(c.profileId.isEmpty, ascii "no security profile was selected"),
    (c.maxFrameSize.toNat == 0 || decide (c.maxFrameSize.toNat > Framing.kAbsoluteMaxFrameSize),
      ascii "max_frame_size must be in [1, " ++ decimal Framing.kAbsoluteMaxFrameSize ++
        ascii "], got " ++ decimal c.maxFrameSize.toNat),
    (c.handshakeTimeoutMs == 0,
      ascii "handshake_timeout_ms must be greater than zero; a zero timeout would let a " ++
        ascii "stalled peer hold the connection open indefinitely"),
    (c.ioTimeoutMs == 0, ascii "io_timeout_ms must be greater than zero"),
    (!c.certificateFile.isEmpty && c.privateKeyFile.isEmpty,
      ascii "a certificate was given without a matching private key"),
    (c.certificateFile.isEmpty && !c.privateKeyFile.isEmpty,
      ascii "a private key was given without a matching certificate")]

/-- `enforce_insecure_mode_policy`. -/
def insecureModeChecks (production : Bool) (c : CommonConfig) : List (Bool × Bytes) :=
  [((c.insecureDevelopmentMode || !c.keylogFile.isEmpty) && production,
    ascii "PQTLS_ENV=production forbids development-only options. " ++
      ascii "--insecure-development-mode disables peer authentication and --keylog-file " ++
      ascii "writes session secrets in the clear; neither is permitted in a production " ++
      ascii "environment.")]

/-- `ConfigLoader::validate(const ClientConfig&)`. -/
def ClientConfig.validate (production : Bool) (c : ClientConfig) : Except Thrown Unit :=
  firstViolation (commonChecks c.common ++
    [(c.host.isEmpty, ascii "no host was given"),
      (c.port == 0, ascii "port 0 is not a valid destination for a client"),
      (c.connections == 0, ascii "connections must be at least 1"),
      (c.concurrency == 0, ascii "concurrency must be at least 1"),
      (decide (c.concurrency > c.connections),
        ascii "concurrency (" ++ decimal c.concurrency.toNat ++
          ascii ") cannot exceed the number of connections (" ++
          decimal c.connections.toNat ++ ascii ")"),
      (c.messagesPerConnection == 0, ascii "messages_per_connection must be at least 1"),
      (!c.message.isEmpty && !c.messageFile.isEmpty,
        ascii "--message and --message-file are mutually exclusive; give exactly one"),
      (!c.common.insecureDevelopmentMode && c.effectiveServerName.isEmpty,
        ascii "hostname verification is enabled but no server name is available; pass " ++
          ascii "--server-name")] ++
    insecureModeChecks production c.common)

/-- `ConfigLoader::validate(const ServerConfig&)`. -/
def ServerConfig.validate (production : Bool) (c : ServerConfig) : Except Thrown Unit :=
  firstViolation (commonChecks c.common ++
    [(c.common.certificateFile.isEmpty || c.common.privateKeyFile.isEmpty,
        ascii "a server requires --certificate and --private-key. Generate a development pair " ++
          ascii "with scripts/generate-classical-certs.sh."),
      (c.listenAddress.isEmpty, ascii "no listen address was given"),
      (c.maxConnections == 0,
        ascii "max_connections must be at least 1; it bounds the worker pool and the accept " ++
          ascii "queue"),
      (c.maxMessagesPerConnection == 0,
        ascii "max_messages_per_connection must be at least 1"),
      (c.requireClientCertificate && c.common.caCertificateFile.isEmpty,
        ascii "mutual TLS requires --ca-certificate so that client certificates can be " ++
          ascii "verified")] ++
    insecureModeChecks production c.common)

/-- The frame size of a configuration that passes the common checks is one the framing
accepts. -/
theorem maxFrameSize_bounds_of_checks {c : CommonConfig}
    (h : ∀ check ∈ commonChecks c, check.1 = false) :
    1 ≤ c.maxFrameSize.toNat ∧ c.maxFrameSize.toNat ≤ Framing.kAbsoluteMaxFrameSize := by
  have hsize := h _ (List.mem_cons_of_mem _ List.mem_cons_self)
  simp only [Bool.or_eq_false_iff, beq_eq_false_iff_ne, decide_eq_false_iff_not] at hsize
  omega

/-- The numbers of connections, workers and messages of a validated client configuration. -/
theorem ClientConfig.counts_of_validate {production : Bool} {c : ClientConfig}
    (h : c.validate production = .ok ()) :
    0 < c.connections.toNat ∧ 0 < c.concurrency.toNat ∧
      c.concurrency.toNat ≤ c.connections.toNat ∧ 0 < c.messagesPerConnection.toNat := by
  rw [validate, firstViolation_eq_ok_iff] at h
  simp only [List.mem_append, List.mem_cons, or_imp, forall_and, forall_eq] at h
  obtain ⟨⟨-, -, -, hconnections, hconcurrency, horder, hmessages, -⟩, -⟩ := h
  simp only [beq_eq_false_iff_ne, ne_eq, decide_eq_false_iff_not, gt_iff_lt,
    ← UInt32.toNat_inj, UInt32.toNat_zero, UInt32.lt_iff_toNat_lt]
    at hconnections hconcurrency horder hmessages
  omega

/-- The limits of a validated server configuration. -/
theorem ServerConfig.bounds_of_validate {production : Bool} {c : ServerConfig}
    (h : c.validate production = .ok ()) :
    1 ≤ c.common.maxFrameSize.toNat ∧
      c.common.maxFrameSize.toNat ≤ Framing.kAbsoluteMaxFrameSize := by
  rw [validate, firstViolation_eq_ok_iff] at h
  apply maxFrameSize_bounds_of_checks
  intro check hcheck
  exact h check (List.mem_append_left _ (List.mem_append_left _ hcheck))

end PqtlsLab
