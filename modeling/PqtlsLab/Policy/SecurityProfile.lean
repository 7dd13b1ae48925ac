import PqtlsLab.Error
import PqtlsLab.Foundation.Json

/-!
# Security profiles

A profile lists the TLS groups that a connection may use and says whether a
classical group is acceptable next to post-quantum ones. `SecurityProfile.create`
is the only way to obtain one, so what it checks is part of the type. After the
handshake the negotiated group is looked up without regard to ASCII case, because
OpenSSL reports its own spelling of the name.
-/

namespace PqtlsLab

/-- `TlsVersion`. -/
inductive TlsVersion where
  | tls13
  deriving DecidableEq, Repr

/-- `AuthenticationType`. -/
inductive AuthenticationType where
  | ecdsaP256
  | ecdsaP384
  | mlDsa65
  deriving DecidableEq, Repr

/-- `to_string(AuthenticationType)`. -/
def AuthenticationType.toText : AuthenticationType → Bytes
  | .ecdsaP256 => ascii "ecdsa-p256"
  | .ecdsaP384 => ascii "ecdsa-p384"
  | .mlDsa65 => ascii "ml-dsa-65"

/-- The name of an authentication type is plain text. -/
theorem AuthenticationType.plain_toText (t : AuthenticationType) : Json.Plain t.toText := by
  cases t <;> decide

/-- `is_post_quantum_authentication`. -/
def isPostQuantumAuthentication (type : AuthenticationType) : Bool := type = .mlDsa65

/-- `kHybridGroups`. -/
def kHybridGroups : List Bytes :=
  [ascii "X25519MLKEM768", ascii "SecP256r1MLKEM768", ascii "SecP384r1MLKEM1024"]

/-- `kPureMlKemGroups`. -/
def kPureMlKemGroups : List Bytes := [ascii "MLKEM512", ascii "MLKEM768", ascii "MLKEM1024"]

/-- The lower-case form of an ASCII letter; other bytes are left alone. -/
def asciiLower (b : UInt8) : UInt8 := if 0x41 ≤ b ∧ b ≤ 0x5A then b + 32 else b

/-- `iequals`. -/
def iequals (a b : Bytes) : Bool :=
  a.length == b.length && (a.zip b).all fun p => asciiLower p.1 == asciiLower p.2

/-- `contains`. -/
def contains (haystack : List Bytes) (needle : Bytes) : Bool :=
  haystack.any fun candidate => iequals candidate needle

/-- `join`. -/
def join (values : List Bytes) (separator : UInt8) : Bytes := List.intercalate [separator] values

/-- `is_hybrid_group`. -/
def isHybridGroup (group : Bytes) : Bool := kHybridGroups.any fun known => iequals known group

/-- `is_post_quantum_group`. -/
def isPostQuantumGroup (group : Bytes) : Bool :=
  isHybridGroup group || kPureMlKemGroups.any fun known => iequals known group

/-- `default_cipher_suites`. -/
def defaultCipherSuites : List Bytes :=
  [ascii "TLS_AES_256_GCM_SHA384", ascii "TLS_CHACHA20_POLY1305_SHA256",
    ascii "TLS_AES_128_GCM_SHA256"]

/-- `SecurityProfile::Definition`. -/
structure ProfileDefinition where
  id : Bytes
  description : Bytes
  minimumVersion : TlsVersion
  maximumVersion : TlsVersion
  groups : List Bytes
  cipherSuites : List Bytes
  authentication : AuthenticationType
  requireClientCertificate : Bool
  allowClassicalFallback : Bool
  experimental : Bool
  deriving DecidableEq

/-- The definition of the built-in profile `hybrid-x25519-mlkem768`. -/
def hybridX25519MlKem768 : ProfileDefinition where
  id := ascii "hybrid-x25519-mlkem768"
  description := ascii "Primary profile: hybrid X25519 + ML-KEM-768 key establishment, " ++
    ascii "ECDSA P-256 authentication"
  minimumVersion := .tls13
  maximumVersion := .tls13
  groups := [ascii "X25519MLKEM768"]
  cipherSuites := defaultCipherSuites
  authentication := .ecdsaP256
  requireClientCertificate := false
  allowClassicalFallback := false
  experimental := false

/-- The name has the form of a cipher suite. -/
def namesCipherSuite (name : Bytes) : Bool := (ascii "TLS_").isPrefixOf name

/-- `SecurityProfile`: a definition that has passed the checks of `create`. -/
structure SecurityProfile where
  /-- `def_`. -/
  definition : ProfileDefinition
  id_ne_nil : definition.id ≠ []
  groups_ne_nil : definition.groups ≠ []
  groups_nodup : definition.groups.Nodup
  suites_ne_nil : definition.cipherSuites ≠ []
  suites_named : ∀ suite ∈ definition.cipherSuites, namesCipherSuite suite = true
  groups_named : ∀ group ∈ definition.groups, namesCipherSuite group = false
  /-- Without fallback, a profile with a post-quantum group has no classical one. -/
  unmixed : definition.groups.any isPostQuantumGroup = true →
    definition.allowClassicalFallback = false → definition.groups.all isPostQuantumGroup = true
  pure_experimental : definition.groups.any (fun g => isPostQuantumGroup g && !isHybridGroup g) →
    definition.experimental = true
  mldsa_experimental : definition.authentication = .mlDsa65 → definition.experimental = true

namespace SecurityProfile

/-- The message of a rejected definition: the profile is named, then the violation. -/
def rejection (id violation : Bytes) : Thrown :=
  configurationError (ascii "profile '" ++ id ++ ascii "' " ++ violation)

/-- The rejection of a cipher suite whose name is not one. -/
def suiteRejection (id suite : Bytes) : Thrown :=
  rejection id (ascii "lists '" ++ suite ++
    ascii "' as a cipher suite. TLS 1.3 cipher suites are named TLS_*; note that TLS groups " ++
      ascii "(key establishment) and cipher suites (record protection) are different things.")

/-- The rejection of a group whose name is that of a cipher suite. -/
def groupRejection (id group : Bytes) : Thrown :=
  rejection id (ascii "lists '" ++ group ++
    ascii "' as a TLS group, but that is a cipher suite name. Groups control key establishment; " ++
      ascii "cipher suites control record protection.")

/-- The cipher suites of a definition, or the default ones where it lists none. -/
def effectiveSuites (d : ProfileDefinition) : List Bytes :=
  if d.cipherSuites.isEmpty then defaultCipherSuites else d.cipherSuites

/-- A profile is never left without cipher suites. -/
theorem effectiveSuites_ne_nil (d : ProfileDefinition) : effectiveSuites d ≠ [] := by
  unfold effectiveSuites
  split
  · decide
  · rename_i hne
    simpa using hne

/-- `SecurityProfile::create`. -/
def create (d : ProfileDefinition) : Except Thrown SecurityProfile :=
  if hid : d.id = [] then
    .error (configurationError (ascii "security profile is missing an 'id'"))
  else if hgroups : d.groups = [] then
    .error (rejection d.id (ascii "defines no TLS groups; an empty group list would let OpenSSL " ++
      ascii "choose its own defaults, which defeats the purpose of a profile"))
  else if hnodup : ¬ d.groups.Nodup then
    .error (rejection d.id (ascii "lists a TLS group more than once"))
  else
    match hsuites : (effectiveSuites d).find? fun suite => !namesCipherSuite suite with
    | some suite => .error (suiteRejection d.id suite)
    | none =>
      match hnames : d.groups.find? namesCipherSuite with
      | some group => .error (groupRejection d.id group)
      | none =>
        if d.minimumVersion ≠ .tls13 ∨ d.maximumVersion ≠ .tls13 then
          .error (rejection d.id (ascii "requests a TLS version other than 1.3; this project " ++
            ascii "negotiates TLS 1.3 only"))
        else if hmixed : d.groups.any isPostQuantumGroup = true ∧
            d.groups.any (fun g => !isPostQuantumGroup g) = true ∧
            d.allowClassicalFallback = false then
          .error (rejection d.id (ascii "offers both post-quantum and classical groups while " ++
            ascii "setting fallback.allow_classical=false. That combination would advertise a " ++
            ascii "classical group we would then refuse after the handshake. Either remove " ++
            ascii "the classical groups or set allow_classical=true and accept the weaker " ++
            ascii "guarantee."))
        else if hpure : d.groups.any (fun g => isPostQuantumGroup g && !isHybridGroup g) = true ∧
            d.experimental = false then
          .error (rejection d.id (ascii "uses a pure ML-KEM group but is not marked " ++
            ascii "experimental. Standalone ML-KEM groups are not covered by a finalised TLS " ++
            ascii "specification; mark the profile experimental to acknowledge that."))
        else if hmldsa : d.authentication = .mlDsa65 ∧ d.experimental = false then
          .error (rejection d.id (ascii "requests ML-DSA authentication but is not marked " ++
            ascii "experimental. Post-quantum certificate authentication is a capability-gated " ++
            ascii "experiment in this project."))
        else
          .ok {
            definition := { d with
              cipherSuites := effectiveSuites d
              description := if d.description.isEmpty then d.id else d.description }
            id_ne_nil := hid
            groups_ne_nil := hgroups
            groups_nodup := not_not.mp hnodup
            suites_ne_nil := effectiveSuites_ne_nil d
            suites_named := by simpa using hsuites
            groups_named := by simpa using hnames
            unmixed := by
              intro hpq hfallback
              by_contra hall
              exact hmixed ⟨hpq, by simpa using hall, hfallback⟩
            pure_experimental := by
              intro hany
              by_contra hexp
              exact hpure ⟨hany, by simpa using hexp⟩
            mldsa_experimental := by
              intro hauth
              by_contra hexp
              exact hmldsa ⟨hauth, by simpa using hexp⟩ }

/-- A definition becomes a profile with the defaults filled in, or it is rejected with an error of
the configuration. -/
theorem create_spec {d : ProfileDefinition} {result : Except Thrown SecurityProfile}
    (h : create d = result) :
    match result with
    | .ok p => p.definition = { d with
        cipherSuites := effectiveSuites d
        description := if d.description.isEmpty then d.id else d.description }
    | .error e => ∃ message, e = configurationError message := by
  unfold create at h
  split at h
  · subst h
    exact ⟨_, rfl⟩
  split at h
  · subst h
    exact ⟨_, rfl⟩
  split at h
  · subst h
    exact ⟨_, rfl⟩
  split at h
  · subst h
    exact ⟨_, rfl⟩
  split at h
  · subst h
    exact ⟨_, rfl⟩
  split at h
  · subst h
    exact ⟨_, rfl⟩
  split at h
  · subst h
    exact ⟨_, rfl⟩
  split at h
  · subst h
    exact ⟨_, rfl⟩
  split at h
  · subst h
    exact ⟨_, rfl⟩
  subst h
  rfl

/-- A profile is its definition with the defaults filled in. -/
theorem definition_of_create {d : ProfileDefinition} {p : SecurityProfile}
    (h : create d = .ok p) :
    p.definition = { d with
      cipherSuites := effectiveSuites d
      description := if d.description.isEmpty then d.id else d.description } :=
  create_spec h

/-- The built-in profile `hybrid-x25519-mlkem768`. -/
def hybrid : SecurityProfile where
  definition := hybridX25519MlKem768
  id_ne_nil := by decide
  groups_ne_nil := by decide
  groups_nodup := by decide
  suites_ne_nil := by decide
  suites_named := by decide
  groups_named := by decide
  unmixed := by decide
  pure_experimental := by decide
  mldsa_experimental := by decide

/-- The definition of the built-in profile passes the checks. -/
theorem create_hybrid : create hybridX25519MlKem768 = .ok hybrid := rfl

/-- A definition with two hybrid groups. -/
def twoHybrids : ProfileDefinition :=
  { hybridX25519MlKem768 with groups := [ascii "X25519MLKEM768", ascii "SecP256r1MLKEM768"] }

/-- `id()`. -/
def id (p : SecurityProfile) : Bytes := p.definition.id

/-- `groups()`. -/
def groups (p : SecurityProfile) : List Bytes := p.definition.groups

/-- `authentication()`. -/
def authentication (p : SecurityProfile) : AuthenticationType := p.definition.authentication

/-- `offers_post_quantum_key_establishment`. -/
def offersPostQuantumKeyEstablishment (p : SecurityProfile) : Bool :=
  p.groups.any isPostQuantumGroup

/-- `permits_negotiated_group`. -/
def permitsNegotiatedGroup (p : SecurityProfile) (negotiatedGroup : Bytes) : Bool :=
  if negotiatedGroup.isEmpty then false
  else if !contains p.groups negotiatedGroup then false
  else if !p.definition.allowClassicalFallback && !isPostQuantumGroup negotiatedGroup &&
      p.offersPostQuantumKeyEstablishment then false
  else true

/-- `explain_group_rejection`. -/
def explainGroupRejection (p : SecurityProfile) (negotiatedGroup : Bytes) : Bytes :=
  if negotiatedGroup.isEmpty then
    ascii "the negotiated TLS group could not be determined; profile '" ++ p.id ++
      ascii "' requires one of [" ++ join p.groups 0x20 ++
      ascii "] and cannot confirm the connection satisfies its policy"
  else if !contains p.groups negotiatedGroup then
    ascii "negotiated TLS group '" ++ negotiatedGroup ++ ascii "' is not permitted by profile '" ++
      p.id ++ ascii "', which allows only [" ++ join p.groups 0x20 ++ ascii "]"
  else
    ascii "negotiated TLS group '" ++ negotiatedGroup ++
      ascii "' provides classical key establishment only, and profile '" ++ p.id ++
      ascii "' sets fallback.allow_classical=false"

end SecurityProfile

end PqtlsLab
