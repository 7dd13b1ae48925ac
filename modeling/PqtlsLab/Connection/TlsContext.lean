import PqtlsLab.Policy.Capabilities
import PqtlsLab.Policy.Config
import PqtlsLab.Policy.GroupPolicy

/-!
# Creating the context of the server

`validate-config` looks at the configuration, at the profile and at what OpenSSL accepted when it
was probed; `serve` then creates a context, which checks the same policy again with other code. The
calls that can fail are kept in the order of the source, with the category of error that each of
them leads to. The two agree but for one requirement that comes from the profile alone.
-/

namespace PqtlsLab

/-- What a `TlsContext` has been configured with. -/
structure TlsContext where
  profile : SecurityProfile
  /-- The list given to `SSL_CTX_set1_groups_list`. -/
  groups : Bytes
  /-- The list given to `SSL_CTX_set_ciphersuites`. -/
  cipherSuites : Bytes
  /-- `SSL_VERIFY_PEER | SSL_VERIFY_FAIL_IF_NO_PEER_CERT`. -/
  verifyPeer : Bool

/-- A call of OpenSSL whose failure is thrown. -/
def orThrow (succeeds : Bool) (e : Thrown) : Except Thrown Unit :=
  if succeeds then .ok () else .error e

/-- `TlsContext::install_keylog_callback`. -/
def installKeylogCallback (ssl : OpenSsl) (production : Bool) (config : CommonConfig) :
    Except Thrown Unit := do
  if config.keylogFile.isEmpty then return
  orThrow (!production) (configurationError
    (ascii "TLS key logging was requested but PQTLS_ENV=production. Key logging writes session " ++
      ascii "secrets in the clear and is refused outside development."))
  orThrow (ssl.openKeylog config.keylogFile) (configurationError
    (ascii "cannot open TLS key log file '" ++ config.keylogFile ++ ascii "' for appending"))

/-- `TlsContext::apply_common_policy`. -/
def applyCommonPolicy (ssl : OpenSsl) (production : Bool) (profile : SecurityProfile)
    (config : CommonConfig) : Except Thrown Unit := do
  orThrow ssl.setMinProtoVersion
    (configurationError (ascii "failed to set the minimum TLS version to 1.3"))
  orThrow ssl.setMaxProtoVersion
    (configurationError (ascii "failed to set the maximum TLS version to 1.3"))
  orThrow (ssl.setGroupsList (cString profile.opensslGroupsList)) (capabilityError
    (ascii "this OpenSSL build does not support the TLS group list required by profile '" ++
      profile.id ++ ascii "': " ++ profile.opensslGroupsList ++
      ascii ". Refusing to continue: substituting a different group would silently weaken the " ++
      ascii "requested profile."))
  orThrow (ssl.setCiphersuites (cString profile.opensslCiphersuitesList)) (configurationError
    (ascii "failed to apply the TLS 1.3 cipher suite allowlist for profile '" ++ profile.id ++
      ascii "': " ++ profile.opensslCiphersuitesList))
  orThrow ssl.setAlpnProtos (configurationError (ascii "failed to configure ALPN"))
  installKeylogCallback ssl production config

/-- `TlsContext::load_certificate_material`. -/
def loadCertificateMaterial (ssl : OpenSsl) (config : CommonConfig) (requireCertificate : Bool) :
    Except Thrown Unit := do
  if config.certificateFile.isEmpty || config.privateKeyFile.isEmpty then
    orThrow (!requireCertificate) (configurationError
      (ascii "a server requires both --certificate and --private-key. Generate a development " ++
        ascii "pair with scripts/generate-classical-certs.sh."))
    return
  orThrow (ssl.useCertificateChainFile (cString config.certificateFile)) (certificateError
    (ascii "failed to load the certificate chain from '" ++ config.certificateFile ++ ascii "'"))
  orThrow (ssl.usePrivateKeyFile (cString config.privateKeyFile)) (certificateError
    (ascii "failed to load the private key from '" ++ config.privateKeyFile ++ ascii "'"))
  orThrow (ssl.checkPrivateKey (cString config.certificateFile) (cString config.privateKeyFile))
    (certificateError (ascii "the private key in '" ++ config.privateKeyFile ++
      ascii "' does not match the certificate in '" ++ config.certificateFile ++ ascii "'"))

/-- `TlsContext::load_trust_store`. -/
def loadTrustStore (ssl : OpenSsl) (config : CommonConfig) : Except Thrown Unit :=
  if !config.caCertificateFile.isEmpty then
    orThrow (ssl.loadVerifyFile (cString config.caCertificateFile)) (certificateError
      (ascii "failed to load the CA trust anchor from '" ++ config.caCertificateFile ++ ascii "'"))
  else if config.insecureDevelopmentMode then .ok ()
  else
    orThrow ssl.setDefaultVerifyPaths (certificateError
      (ascii "no --ca-certificate was given and the system trust store could not be loaded"))

/-- `TlsContext::create_server`. -/
def createServer (ssl : OpenSsl) (production : Bool) (profile : SecurityProfile)
    (config : CommonConfig) (requireClientCertificate : Bool) : Except Thrown TlsContext := do
  orThrow ssl.initialized (internalError (ascii "OpenSSL initialisation failed"))
  firstViolation (insecureModeChecks production config)
  orThrow ssl.serverContext
    (internalError (ascii "SSL_CTX_new failed for the server context"))
  applyCommonPolicy ssl production profile config
  loadCertificateMaterial ssl config true
  let wantClientCert := requireClientCertificate || profile.requireClientCertificate
  if wantClientCert then
    loadTrustStore ssl config
    orThrow (!config.caCertificateFile.isEmpty) (configurationError
      (ascii "mutual TLS was requested but no --ca-certificate was given. Without a trust " ++
        ascii "anchor the server cannot verify client certificates."))
  return {
    profile
    groups := cString profile.opensslGroupsList
    cipherSuites := cString profile.opensslCiphersuitesList
    verifyPeer := wantClientCert }

/-- `command_validate_config`, from the configuration and the registry on: the exit code that it
returns. -/
def commandValidateConfig (ssl : OpenSsl) (production : Bool) (registry : ProfileRegistry)
    (config : ServerConfig) : Except Thrown ExitCode := do
  config.validate production
  let profile ← registry.get config.common.profileId
  let capabilities ← Capabilities.detect ssl registry
  match capabilities.profile profile.id with
  | some availability => return if availability.usable then .success else .capabilityError
  | none => return .capabilityError

/-- What is assumed of OpenSSL and of the files: a list of names is accepted exactly when each of
its names is, whatever their case; the protocol of the project is well-formed; and the files and the
system trust store can be loaded. -/
structure OpenSsl.Works (ssl : OpenSsl) (config : CommonConfig) : Prop where
  groups : ∀ names, names ≠ [] → (∀ name ∈ names, colon ∉ name) →
    (ssl.setGroupsList (join names colon) = true ↔ ∀ name ∈ names, ssl.setGroupsList name = true)
  groups_case : ∀ a b, iequals a b = true → ssl.setGroupsList a = ssl.setGroupsList b
  suites : ∀ names, names ≠ [] → (∀ name ∈ names, colon ∉ name) →
    (ssl.setCiphersuites (join names colon) = true ↔
      ∀ name ∈ names, ssl.setCiphersuites name = true)
  alpn : ssl.setAlpnProtos = true
  certificate : ssl.useCertificateChainFile (cString config.certificateFile) = true
  key : ssl.usePrivateKeyFile (cString config.privateKeyFile) = true
  pair : ssl.checkPrivateKey (cString config.certificateFile) (cString config.privateKeyFile) = true
  authority : config.caCertificateFile ≠ [] →
    ssl.loadVerifyFile (cString config.caCertificateFile) = true
  system : ssl.setDefaultVerifyPaths = true
  keylog : config.keylogFile ≠ [] → ssl.openKeylog config.keylogFile = true

/-- A call that succeeds throws nothing. -/
@[simp] theorem orThrow_true (e : Thrown) : orThrow true e = .ok () := rfl

/-- A call that fails throws. -/
@[simp] theorem orThrow_false (e : Thrown) : orThrow false e = .error e := rfl

/-- A list without zero bytes is read to its end. -/
theorem cString_join_of_not_mem {names : List Bytes} (h : ∀ name ∈ names, 0 ∉ name) :
    cString (join names colon) = join names colon := by
  have hbefore : beforeNul names = names := by
    induction names with
    | nil => rfl
    | cons name names ih =>
      rw [beforeNul, if_neg (h name List.mem_cons_self),
        ih fun n hn => h n (List.mem_cons_of_mem _ hn)]
  rw [cString_join (by decide), hbefore]

/-- Groups that were found when OpenSSL was probed are accepted as a list. -/
theorem setGroupsList_of_hasGroup {ssl : OpenSsl} {config : CommonConfig} (hssl : ssl.Works config)
    {p : SecurityProfile} (h : ∀ group ∈ p.groups, (Capabilities.probe ssl).hasGroup group = true) :
    ssl.setGroupsList (cString p.opensslGroupsList) = true := by
  have hknown : ∀ group ∈ p.groups, ∃ known ∈ kCandidateGroups,
      ssl.setGroupsList known = true ∧ iequals known group = true := by
    intro group hgroup
    obtain ⟨known, hmem, hequals⟩ := List.any_eq_true.mp (h group hgroup)
    obtain ⟨hcandidate, haccepted⟩ := List.mem_filter.mp hmem
    exact ⟨known, hcandidate, haccepted, hequals⟩
  have hclean : ∀ known ∈ kCandidateGroups, colon ∉ known ∧ 0 ∉ known := by decide
  have hcolon : ∀ group ∈ p.groups, colon ∉ group := by
    intro group hgroup hmem
    obtain ⟨known, hcandidate, -, hequals⟩ := hknown group hgroup
    exact (hclean known hcandidate).1
      (mem_of_iequals (forall_byte (by decide +kernel)) (by decide) hequals hmem)
  have hzero : ∀ group ∈ p.groups, 0 ∉ group := by
    intro group hgroup hmem
    obtain ⟨known, hcandidate, -, hequals⟩ := hknown group hgroup
    exact (hclean known hcandidate).2
      (mem_of_iequals (forall_byte (by decide +kernel)) (by decide) hequals hmem)
  rw [SecurityProfile.opensslGroupsList, cString_join_of_not_mem hzero,
    hssl.groups p.groups p.groups_ne_nil hcolon]
  intro group hgroup
  obtain ⟨known, -, haccepted, hequals⟩ := hknown group hgroup
  rw [← hssl.groups_case known group hequals, haccepted]

/-- Cipher suites that were found when OpenSSL was probed are accepted as a list. -/
theorem setCiphersuites_of_hasCipherSuite {ssl : OpenSsl} {config : CommonConfig}
    (hssl : ssl.Works config) {p : SecurityProfile}
    (h : ∀ suite ∈ p.cipherSuites, (Capabilities.probe ssl).hasCipherSuite suite = true) :
    ssl.setCiphersuites (cString p.opensslCiphersuitesList) = true := by
  have hknown : ∀ suite ∈ p.cipherSuites,
      suite ∈ kCandidateCipherSuites ∧ ssl.setCiphersuites suite = true := by
    intro suite hsuite
    obtain ⟨known, hmem, hequals⟩ := List.any_eq_true.mp (h suite hsuite)
    obtain rfl := beq_iff_eq.mp hequals
    exact List.mem_filter.mp hmem
  have hclean : ∀ known ∈ kCandidateCipherSuites, colon ∉ known ∧ 0 ∉ known := by decide
  rw [SecurityProfile.opensslCiphersuitesList,
    cString_join_of_not_mem fun suite hsuite => (hclean suite (hknown suite hsuite).1).2,
    hssl.suites p.cipherSuites p.suites_ne_nil
      fun suite hsuite => (hclean suite (hknown suite hsuite).1).1]
  exact fun suite hsuite => (hknown suite hsuite).2

/-- What a validated configuration says about the settings that `create_server` looks at again. -/
theorem ServerConfig.settings_of_validate {production : Bool} {c : ServerConfig}
    (h : c.validate production = .ok ()) :
    c.common.certificateFile ≠ [] ∧ c.common.privateKeyFile ≠ [] ∧
      (c.requireClientCertificate = true → c.common.caCertificateFile ≠ []) ∧
      firstViolation (insecureModeChecks production c.common) = .ok () := by
  rw [validate, firstViolation_eq_ok_iff] at h
  have hinsecure : firstViolation (insecureModeChecks production c.common) = .ok () :=
    (firstViolation_eq_ok_iff _).mpr fun check hcheck => h check (List.mem_append_right _ hcheck)
  simp only [List.mem_append, List.mem_cons, or_imp, forall_and, forall_eq] at h
  obtain ⟨⟨-, hcertificate, -, -, -, hclient, -⟩, -⟩ := h
  simp only [Bool.or_eq_false_iff, List.isEmpty_eq_false_iff] at hcertificate
  refine ⟨hcertificate.1, hcertificate.2, ?_, hinsecure⟩
  intro hrequire hempty
  simp [hrequire, hempty] at hclient

/-- Outside of production the key log is installed. -/
theorem installKeylogCallback_eq_ok {ssl : OpenSsl} {production : Bool} {config : CommonConfig}
    (hssl : ssl.Works config)
    (hinsecure : firstViolation (insecureModeChecks production config) = .ok ()) :
    installKeylogCallback ssl production config = .ok () := by
  have hpolicy := (firstViolation_eq_ok_iff _).mp hinsecure
  unfold installKeylogCallback
  by_cases hempty : config.keylogFile.isEmpty = true
  · rw [if_pos hempty]
    rfl
  · have hne : config.keylogFile ≠ [] := fun h => hempty (List.isEmpty_iff.mpr h)
    have hproduction : production = false := by
      simpa [insecureModeChecks, hempty] using hpolicy
    rw [if_neg hempty, hproduction, hssl.keylog hne]
    rfl

/-- The common policy can be applied for a usable profile. -/
theorem applyCommonPolicy_eq_ok {ssl : OpenSsl} {production : Bool} {config : CommonConfig}
    {p : SecurityProfile} (hssl : ssl.Works config)
    (husable : ((Capabilities.probe ssl).availability p).usable = true)
    (hinsecure : firstViolation (insecureModeChecks production config) = .ok ()) :
    applyCommonPolicy ssl production p config = .ok () := by
  obtain ⟨htls, hgroups, hsuites, -⟩ := (Capabilities.usable_availability_iff _ _).mp husable
  obtain ⟨hmin, hmax⟩ := Bool.and_eq_true_iff.mp htls
  unfold applyCommonPolicy
  rw [hmin, hmax, setGroupsList_of_hasGroup hssl hgroups,
    setCiphersuites_of_hasCipherSuite hssl hsuites, hssl.alpn,
    installKeylogCallback_eq_ok hssl hinsecure]
  rfl

/-- The certificate of a validated configuration can be loaded. -/
theorem loadCertificateMaterial_eq_ok {ssl : OpenSsl} {config : CommonConfig}
    (hssl : ssl.Works config) (hcertificate : config.certificateFile ≠ [])
    (hkey : config.privateKeyFile ≠ []) (requireCertificate : Bool) :
    loadCertificateMaterial ssl config requireCertificate = .ok () := by
  have hgiven : ¬ (config.certificateFile.isEmpty || config.privateKeyFile.isEmpty) = true := by
    simp [hcertificate, hkey]
  unfold loadCertificateMaterial
  rw [if_neg hgiven, hssl.certificate, hssl.key, hssl.pair]
  rfl

/-- A trust store can be loaded. -/
theorem loadTrustStore_eq_ok {ssl : OpenSsl} {config : CommonConfig} (hssl : ssl.Works config) :
    loadTrustStore ssl config = .ok () := by
  unfold loadTrustStore
  split
  · rename_i hgiven
    rw [hssl.authority (by simpa using hgiven)]
    rfl
  · split
    · rfl
    · rw [hssl.system]
      rfl

/-- What `validate-config` has established when it exits with 0. -/
theorem commandValidateConfig_eq_success {ssl : OpenSsl} {production : Bool}
    {registry : ProfileRegistry} {config : ServerConfig}
    (h : commandValidateConfig ssl production registry config = .ok .success) {p : SecurityProfile}
    (hget : registry.get config.common.profileId = .ok p) :
    config.validate production = .ok () ∧ ssl.initialized = true ∧
      ((Capabilities.probe ssl).availability p).usable = true := by
  simp only [commandValidateConfig, bind_eq_ok_iff] at h
  obtain ⟨_, hvalidate, p', hget', caps, hdetect, h⟩ := h
  rw [hget, Except.ok.injEq] at hget'
  subst hget'
  refine ⟨hvalidate, ?_, ?_⟩
  · unfold Capabilities.detect at hdetect
    split at hdetect
    · cases hdetect
    · rename_i hinit
      simpa using hinit
  · have hid : registry.find p.id = some p := by
      obtain ⟨-, hid⟩ := ProfileRegistry.mem_of_get hget
      unfold ProfileRegistry.get at hget
      split at hget
      · rename_i found hfind
        cases hget
        rw [hid, hfind]
      · cases hget
    rw [Capabilities.profile_of_detect hdetect, hid, Option.map_some] at h
    by_contra hnot
    simp [hnot, pure, Except.pure] at h

/-- Where `validate-config` exits with 0, only two of the failures of `create_server` are left. -/
theorem createServer_of_validated {ssl : OpenSsl} {production : Bool}
    {registry : ProfileRegistry} {config : ServerConfig} {p : SecurityProfile}
    (hssl : ssl.Works config.common)
    (hvalid : commandValidateConfig ssl production registry config = .ok .success)
    (hget : registry.get config.common.profileId = .ok p) :
    createServer ssl production p config.common config.requireClientCertificate =
      if ssl.serverContext = false then
        .error (internalError (ascii "SSL_CTX_new failed for the server context"))
      else if p.requireClientCertificate = true ∧ config.common.caCertificateFile = [] then
        .error (configurationError
          (ascii "mutual TLS was requested but no --ca-certificate was given. Without a trust " ++
            ascii "anchor the server cannot verify client certificates."))
      else .ok {
        profile := p
        groups := cString p.opensslGroupsList
        cipherSuites := cString p.opensslCiphersuitesList
        verifyPeer := config.requireClientCertificate || p.requireClientCertificate } := by
  obtain ⟨hvalidate, hinit, husable⟩ := commandValidateConfig_eq_success hvalid hget
  obtain ⟨hcertificate, hkey, hrequire, hinsecure⟩ :=
    ServerConfig.settings_of_validate hvalidate
  unfold createServer
  simp only [hinit, orThrow_true, hinsecure, applyCommonPolicy_eq_ok hssl husable hinsecure,
    loadCertificateMaterial_eq_ok hssl hcertificate hkey, loadTrustStore_eq_ok hssl, bind,
    Except.bind]
  cases hcontext : ssl.serverContext with
  | false => rfl
  | true =>
    simp only [orThrow_true, Bool.true_eq_false, if_false]
    by_cases hca : config.common.caCertificateFile = []
    · have hconfig : config.requireClientCertificate = false := by
        by_contra hwant
        exact hrequire (by simpa using hwant) hca
      cases hprofile : p.requireClientCertificate <;> simp [hca, hconfig, pure, Except.pure]
    · have hgiven : config.common.caCertificateFile.isEmpty = false := by simpa using hca
      simp [hca, hgiven, pure, Except.pure]

/-- Where `validate-config` exits with 0, creating the context throws neither a configuration nor a
capability error, unless the context can be created at all and the profile itself asks for client
certificates while no authority for them is configured. -/
theorem validated_server_context_iff {ssl : OpenSsl} {production : Bool}
    {registry : ProfileRegistry} {config : ServerConfig} {p : SecurityProfile}
    (hssl : ssl.Works config.common)
    (hvalid : commandValidateConfig ssl production registry config = .ok .success)
    (hget : registry.get config.common.profileId = .ok p) :
    (∀ e, createServer ssl production p config.common config.requireClientCertificate = .error e →
        e.category ≠ .configuration ∧ e.category ≠ .capability) ↔
      (ssl.serverContext = true → p.requireClientCertificate = true →
        config.common.caCertificateFile ≠ []) := by
  rw [createServer_of_validated hssl hvalid hget]
  constructor
  · intro h hcontext hprofile hca
    rw [if_neg (by simp [hcontext]), if_pos ⟨hprofile, hca⟩] at h
    exact (h _ rfl).1 rfl
  · intro h e he
    split at he
    · cases he
      exact ⟨by simp [internalError, Thrown.category], by simp [internalError, Thrown.category]⟩
    · rename_i hcontext
      split at he
      · rename_i hmissing
        exact absurd hmissing.2 (h (by simpa using hcontext) hmissing.1)
      · cases he

/-- An OpenSSL that knows all candidates and can load all files. -/
def OpenSsl.complete : OpenSsl where
  initialized := true
  clientContext := true
  serverContext := true
  setMinProtoVersion := true
  setMaxProtoVersion := true
  setGroupsList text := ((text.map asciiLower).splitOn colon).all fun name =>
    name ∈ kCandidateGroups.map fun known => known.map asciiLower
  setCiphersuites text := ((text.map asciiLower).splitOn colon).all fun name =>
    name ∈ kCandidateCipherSuites.map fun known => known.map asciiLower
  setAlpnProtos := true
  supportsMlDsa65 := true
  useCertificateChainFile _ := true
  usePrivateKeyFile _ := true
  checkPrivateKey _ _ := true
  loadVerifyFile _ := true
  setDefaultVerifyPaths := true
  openKeylog _ := true

/-- Folding a joined list folds its names. -/
theorem map_asciiLower_join (names : List Bytes) :
    (join names colon).map asciiLower = join (names.map fun name => name.map asciiLower) colon := by
  have hcolon : asciiLower colon = colon := by decide
  unfold join
  induction names with
  | nil => rfl
  | cons first rest ih =>
    cases rest with
    | nil => simp
    | cons second rest =>
      simp only [List.intercalate_cons_cons, List.map_append, List.map_cons, List.map_nil,
        hcolon] at ih ⊢
      rw [ih]

/-- A folded list of names is split into the folded names. -/
theorem splitOn_map_asciiLower_join {names : List Bytes} (hne : names ≠ [])
    (h : ∀ name ∈ names, colon ∉ name) :
    ((join names colon).map asciiLower).splitOn colon =
      names.map fun name => name.map asciiLower := by
  have hletter : ∀ b : UInt8, asciiLower b = colon → b = colon := forall_byte (by decide +kernel)
  rw [map_asciiLower_join, splitOn_join_iff (by simpa using hne)]
  intro folded hfolded hmem
  obtain ⟨name, hname, rfl⟩ := List.mem_map.mp hfolded
  obtain ⟨b, hb, hlower⟩ := List.mem_map.mp hmem
  exact h name hname (hletter b hlower ▸ hb)

/-- A test that looks at the folded names of a list accepts a list exactly when it accepts each of
its names. -/
theorem all_splitOn_join_iff (accepts : Bytes → Bool) {names : List Bytes} (hne : names ≠ [])
    (h : ∀ name ∈ names, colon ∉ name) :
    (((join names colon).map asciiLower).splitOn colon).all accepts = true ↔
      ∀ name ∈ names, ((name.map asciiLower).splitOn colon).all accepts = true := by
  have hsingle : ∀ name ∈ names, (name.map asciiLower).splitOn colon = [name.map asciiLower] := by
    intro name hname
    have hjoin : join [name] colon = name := by simp [join]
    have hsplit := @splitOn_map_asciiLower_join [name] (by simp) (by simpa using h name hname)
    rwa [hjoin] at hsplit
  rw [splitOn_map_asciiLower_join hne h, List.all_map, List.all_eq_true]
  refine forall₂_congr fun name hname => ?_
  rw [hsingle name hname]
  simp

/-- Such an OpenSSL works as assumed. -/
theorem OpenSsl.complete_works (config : CommonConfig) : OpenSsl.complete.Works config where
  groups _ hne h := all_splitOn_join_iff _ hne h
  groups_case a b h := by
    simp only [OpenSsl.complete, (iequals_iff a b).mp h]
  suites _ hne h := all_splitOn_join_iff _ hne h
  alpn := rfl
  certificate := rfl
  key := rfl
  pair := rfl
  authority _ := rfl
  system := rfl
  keylog _ := rfl

/-- The primary profile with client certificates. -/
def SecurityProfile.mutual : SecurityProfile where
  definition := { hybridX25519MlKem768 with requireClientCertificate := true }
  id_ne_nil := hybrid.id_ne_nil
  groups_ne_nil := hybrid.groups_ne_nil
  groups_nodup := hybrid.groups_nodup
  suites_ne_nil := hybrid.suites_ne_nil
  suites_named := hybrid.suites_named
  groups_named := hybrid.groups_named
  unmixed := hybrid.unmixed
  pure_experimental := hybrid.pure_experimental
  mldsa_experimental := hybrid.mldsa_experimental

/-- The configuration of a server with a given authority for client certificates. -/
def ServerConfig.withAuthority (file : Bytes) : ServerConfig :=
  let config := ServerConfig.sample 65536
  { config with common := { config.common with caCertificateFile := file } }

/-- With an authority for client certificates the context is created. -/
theorem validated_server_context_mutual :
    commandValidateConfig OpenSsl.complete false ⟨[SecurityProfile.mutual]⟩
        (ServerConfig.withAuthority (ascii "ca.crt")) = .ok .success ∧
      ∀ e, createServer OpenSsl.complete false SecurityProfile.mutual
        (ServerConfig.withAuthority (ascii "ca.crt")).common false = .error e →
          e.category ≠ .configuration ∧ e.category ≠ .capability := by
  have hvalid : commandValidateConfig OpenSsl.complete false ⟨[SecurityProfile.mutual]⟩
      (ServerConfig.withAuthority (ascii "ca.crt")) = .ok .success := by
    rfl
  refine ⟨hvalid, (validated_server_context_iff (OpenSsl.complete_works _) hvalid rfl).mpr ?_⟩
  intro _ _
  decide

/-- Without one, `validate-config` exits with 0 and creating the context throws a
`ConfigurationError`. -/
theorem validated_server_context_refused :
    ∃ (config : ServerConfig) (e : Thrown), OpenSsl.complete.Works config.common ∧
      commandValidateConfig OpenSsl.complete false ⟨[SecurityProfile.mutual]⟩ config =
        .ok .success ∧
      (⟨[SecurityProfile.mutual]⟩ : ProfileRegistry).get config.common.profileId =
        .ok SecurityProfile.mutual ∧
      createServer OpenSsl.complete false SecurityProfile.mutual config.common
        config.requireClientCertificate = .error e ∧ e.category = .configuration :=
  ⟨ServerConfig.withAuthority [], _, OpenSsl.complete_works _, rfl, rfl, rfl, rfl⟩

end PqtlsLab
