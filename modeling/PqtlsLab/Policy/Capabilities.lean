import PqtlsLab.Policy.OfferedGroups
import PqtlsLab.Policy.ProfileRegistry

/-!
# What the running OpenSSL can do

`Capabilities::detect` probes a fixed list of groups and cipher suites with the calls that a
connection makes later, and evaluates every profile of the registry against what was accepted.
OpenSSL is not part of the repository: the answers of its calls are a parameter. The versions,
providers, signature algorithms and the ML-KEM primitive are only printed and are left out.
-/

namespace PqtlsLab

/-- The answers of the OpenSSL calls that the model knows. A list argument is the C string that the
call reads. -/
structure OpenSsl where
  /-- `OPENSSL_init_ssl` succeeds. -/
  initialized : Bool
  /-- `SSL_CTX_new(TLS_client_method())` returns a context. -/
  clientContext : Bool
  /-- `SSL_CTX_new(TLS_server_method())` returns a context. -/
  serverContext : Bool
  /-- `SSL_CTX_set_min_proto_version` accepts TLS 1.3. -/
  setMinProtoVersion : Bool
  /-- `SSL_CTX_set_max_proto_version` accepts TLS 1.3. -/
  setMaxProtoVersion : Bool
  /-- `SSL_CTX_set1_groups_list` accepts the list. -/
  setGroupsList : Bytes → Bool
  /-- `SSL_CTX_set_ciphersuites` accepts the list. -/
  setCiphersuites : Bytes → Bool
  /-- `SSL_CTX_set_alpn_protos` accepts the protocol of the project. -/
  setAlpnProtos : Bool
  /-- `openssl_supports_algorithm("ML-DSA-65")`. -/
  supportsMlDsa65 : Bool
  /-- `SSL_CTX_use_certificate_chain_file` loads the file. -/
  useCertificateChainFile : Bytes → Bool
  /-- `SSL_CTX_use_PrivateKey_file` loads the file. -/
  usePrivateKeyFile : Bytes → Bool
  /-- `SSL_CTX_check_private_key` accepts the certificate and the key of these files. -/
  checkPrivateKey : Bytes → Bytes → Bool
  /-- `SSL_CTX_load_verify_file` loads the file. -/
  loadVerifyFile : Bytes → Bool
  /-- `SSL_CTX_set_default_verify_paths` succeeds. -/
  setDefaultVerifyPaths : Bool
  /-- The key log file is open after the attempt to open it. -/
  openKeylog : Bytes → Bool

/-- `kCandidateGroups`. -/
def kCandidateGroups : List Bytes :=
  [ascii "X25519", ascii "secp256r1", ascii "secp384r1", ascii "secp521r1", ascii "X448",
    ascii "ffdhe2048", ascii "ffdhe3072", ascii "MLKEM512", ascii "MLKEM768", ascii "MLKEM1024",
    ascii "X25519MLKEM768", ascii "SecP256r1MLKEM768", ascii "SecP384r1MLKEM1024"]

/-- `kCandidateCipherSuites`. -/
def kCandidateCipherSuites : List Bytes :=
  [ascii "TLS_AES_256_GCM_SHA384", ascii "TLS_CHACHA20_POLY1305_SHA256",
    ascii "TLS_AES_128_GCM_SHA256"]

/-- `ProfileAvailability`. -/
structure ProfileAvailability where
  profileId : Bytes
  usable : Bool
  experimental : Bool
  missingGroups : List Bytes
  missingCipherSuites : List Bytes
  blockingReason : Bytes

/-- `Capabilities`, as far as profiles are evaluated against it. -/
structure Capabilities where
  tls13Available : Bool
  tlsGroups : List Bytes
  cipherSuites : List Bytes
  mldsaAvailable : Bool
  profiles : List ProfileAvailability

namespace SecurityProfile

/-- `experimental()`. -/
def experimental (p : SecurityProfile) : Bool := p.definition.experimental

/-- `require_client_certificate()`. -/
def requireClientCertificate (p : SecurityProfile) : Bool := p.definition.requireClientCertificate

end SecurityProfile

namespace Capabilities

/-- `has_group`. -/
def hasGroup (caps : Capabilities) (group : Bytes) : Bool :=
  caps.tlsGroups.any fun known => iequals known group

/-- `has_cipher_suite`. -/
def hasCipherSuite (caps : Capabilities) (suite : Bytes) : Bool :=
  caps.cipherSuites.any fun known => known == suite

/-- `profile`. -/
def profile (caps : Capabilities) (id : Bytes) : Option ProfileAvailability :=
  caps.profiles.find? fun availability => availability.profileId == id

/-- The names of a list with a comma and a blank between them. -/
def commaSeparated (names : List Bytes) : Bytes := List.intercalate (ascii ", ") names

/-- The text that `detect` collects on why a profile cannot be used. -/
def reason (caps : Capabilities) (p : SecurityProfile) (missingGroups missingSuites : List Bytes) :
    Bytes :=
  (if caps.tls13Available then []
    else ascii "TLS 1.3 is not available in this OpenSSL build. ") ++
  ((if missingGroups.isEmpty then []
    else ascii "missing TLS groups: " ++ commaSeparated missingGroups ++ ascii ". ") ++
  ((if missingSuites.isEmpty then []
    else ascii "missing cipher suites: " ++ commaSeparated missingSuites ++ ascii ". ") ++
  (if p.authentication = .mlDsa65 ∧ caps.mldsaAvailable = false then
    ascii "ML-DSA-65 is not available, so this profile's post-quantum authentication " ++
      ascii "cannot be used. "
    else [])))

/-- The text without the blank at its end. -/
def withoutTrailingBlank (text : Bytes) : Bytes :=
  if text.getLast? = some 0x20 then text.dropLast else text

/-- The body of the loop of `detect` over the profiles. -/
def availability (caps : Capabilities) (p : SecurityProfile) : ProfileAvailability :=
  let missingGroups := p.groups.filter fun group => !caps.hasGroup group
  let missingCipherSuites := p.cipherSuites.filter fun suite => !caps.hasCipherSuite suite
  let blockingReason := withoutTrailingBlank (caps.reason p missingGroups missingCipherSuites)
  { profileId := p.id
    usable := blockingReason.isEmpty
    experimental := p.experimental
    missingGroups, missingCipherSuites, blockingReason }

/-- What `detect` has found out before it turns to the profiles. -/
def probe (ssl : OpenSsl) : Capabilities where
  tls13Available := ssl.setMinProtoVersion && ssl.setMaxProtoVersion
  tlsGroups := kCandidateGroups.filter ssl.setGroupsList
  cipherSuites := kCandidateCipherSuites.filter ssl.setCiphersuites
  mldsaAvailable := ssl.supportsMlDsa65
  profiles := []

/-- `Capabilities::detect`. -/
def detect (ssl : OpenSsl) (registry : ProfileRegistry) : Except Thrown Capabilities :=
  if !ssl.initialized then .error (internalError (ascii "OpenSSL initialisation failed"))
  else if !ssl.clientContext then
    .error (internalError (ascii "could not create a probe SSL_CTX for capability detection"))
  else
    let caps := probe ssl
    .ok { caps with profiles := registry.profiles.map caps.availability }

/-- Nothing, or a sentence with its stop and its blank. -/
def Sentence (text : Bytes) : Prop := text = [] ∨ 2 ≤ text.length

/-- Sentences can be put after each other. -/
theorem Sentence.append {left right : Bytes} (hleft : Sentence left) (hright : Sentence right) :
    Sentence (left ++ right) := by
  unfold Sentence at hleft hright ⊢
  rw [List.append_eq_nil_iff, List.length_append]
  rcases hleft with rfl | hleft
  · rcases hright with rfl | hright
    · exact .inl ⟨rfl, rfl⟩
    · exact .inr (by omega)
  · exact .inr (by omega)

/-- A sentence about some missing names. -/
theorem sentence_missing {opening : Bytes} (h : 2 ≤ opening.length) (names : List Bytes) :
    Sentence (if names.isEmpty then [] else opening ++ commaSeparated names ++ ascii ". ") := by
  unfold Sentence
  split
  · exact .inl rfl
  · right
    rw [List.length_append, List.length_append]
    omega

/-- The reason consists of sentences. -/
theorem sentence_reason (caps : Capabilities) (p : SecurityProfile)
    (missingGroups missingSuites : List Bytes) :
    Sentence (caps.reason p missingGroups missingSuites) := by
  unfold reason
  refine Sentence.append ?_ ((sentence_missing (by decide) _).append
    ((sentence_missing (by decide) _).append ?_))
  · split
    · exact .inl rfl
    · exact .inr (by decide)
  · split
    · exact .inr (by decide)
    · exact .inl rfl

/-- The blank at the end of a sentence is not all of it. -/
theorem withoutTrailingBlank_eq_nil_iff {text : Bytes} (h : Sentence text) :
    withoutTrailingBlank text = [] ↔ text = [] := by
  rcases h with rfl | hlength
  · exact iff_of_true rfl rfl
  · refine iff_of_false ?_ (List.ne_nil_of_length_pos (by omega))
    unfold withoutTrailingBlank
    split
    · apply List.ne_nil_of_length_pos
      rw [List.length_dropLast]
      omega
    · exact List.ne_nil_of_length_pos (by omega)

/-- There is no reason against a profile exactly when nothing that it needs is missing. -/
theorem reason_eq_nil_iff (caps : Capabilities) (p : SecurityProfile)
    (missingGroups missingSuites : List Bytes) :
    caps.reason p missingGroups missingSuites = [] ↔
      caps.tls13Available = true ∧ missingGroups = [] ∧ missingSuites = [] ∧
        (p.authentication = .mlDsa65 → caps.mldsaAvailable = true) := by
  have htexts : ascii "TLS 1.3 is not available in this OpenSSL build. " ≠ [] ∧
      ascii "missing TLS groups: " ≠ [] ∧ ascii "missing cipher suites: " ≠ [] ∧
      ascii "ML-DSA-65 is not available, so this profile's post-quantum authentication " ≠ [] := by
    decide
  obtain ⟨htls, hgroups, hsuites, hmldsa⟩ := htexts
  unfold reason
  simp only [List.append_eq_nil_iff]
  refine and_congr ?_ (and_congr ?_ (and_congr ?_ ?_))
  · split <;> simp [*]
  · split <;> simp_all
  · split <;> simp_all
  · split <;> simp_all

/-- A profile is usable exactly when TLS 1.3, all its groups and cipher suites and, if it asks for
ML-DSA authentication, ML-DSA are available. -/
theorem usable_availability_iff (caps : Capabilities) (p : SecurityProfile) :
    (caps.availability p).usable = true ↔
      caps.tls13Available = true ∧ (∀ group ∈ p.groups, caps.hasGroup group = true) ∧
        (∀ suite ∈ p.cipherSuites, caps.hasCipherSuite suite = true) ∧
        (p.authentication = .mlDsa65 → caps.mldsaAvailable = true) := by
  unfold availability
  simp only [List.isEmpty_iff]
  rw [withoutTrailingBlank_eq_nil_iff (sentence_reason _ _ _ _), reason_eq_nil_iff]
  simp only [List.filter_eq_nil_iff, Bool.not_eq_true', Bool.not_eq_false]

/-- The availability that is reported under an identifier is that of the profile which the registry
has under it. -/
theorem profile_of_detect {ssl : OpenSsl} {registry : ProfileRegistry} {caps : Capabilities}
    (hdetect : detect ssl registry = .ok caps) (id : Bytes) :
    caps.profile id = (registry.find id).map (probe ssl).availability := by
  unfold detect at hdetect
  split at hdetect
  · cases hdetect
  split at hdetect
  · cases hdetect
  cases hdetect
  simp only [profile, ProfileRegistry.find, List.find?_map]
  rfl

end Capabilities

end PqtlsLab
