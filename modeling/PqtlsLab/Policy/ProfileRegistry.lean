import PqtlsLab.Policy.GroupPolicy

/-!
# The registry of profiles

A binary looks its profile up by the identifier of the configuration. The records of a
connection name that identifier, and readers of the records take its first word for the kind of
key establishment that the profile demands.
-/

namespace PqtlsLab

/-- `ProfileRegistry`. -/
structure ProfileRegistry where
  /-- `profiles_`. -/
  profiles : List SecurityProfile

/-- The arguments of `ProfileRegistry::builtin` for one profile: the definition without the
fields that all built-in profiles share. -/
def builtinDefinition (id description : Bytes) (groups cipherSuites : List Bytes)
    (authentication : AuthenticationType) (allowClassicalFallback experimental : Bool) :
    ProfileDefinition where
  id := id
  description := description
  minimumVersion := .tls13
  maximumVersion := .tls13
  groups := groups
  cipherSuites := cipherSuites
  authentication := authentication
  requireClientCertificate := false
  allowClassicalFallback := allowClassicalFallback
  experimental := experimental

/-- `profile.startswith(("hybrid-", "pure-"))`: for the scripts, the name of a profile announces
post-quantum key establishment. -/
def announcesPostQuantum (profile : Bytes) : Bool :=
  (ascii "hybrid-").isPrefixOf profile || (ascii "pure-").isPrefixOf profile

/-- The definitions that `ProfileRegistry::builtin` adds, in their order. -/
def builtinDefinitions : List ProfileDefinition :=
  [builtinDefinition (ascii "classical-x25519")
      (ascii "Classical TLS 1.3 baseline using X25519 key establishment")
      [ascii "X25519"] defaultCipherSuites .ecdsaP256 true false,
    builtinDefinition (ascii "classical-p256")
      (ascii "Classical TLS 1.3 baseline using NIST P-256 key establishment")
      [ascii "secp256r1"] defaultCipherSuites .ecdsaP256 true false,
    hybridX25519MlKem768,
    builtinDefinition (ascii "hybrid-p256-mlkem768")
      (ascii "Secondary profile: hybrid NIST P-256 + ML-KEM-768 key establishment")
      [ascii "SecP256r1MLKEM768"] defaultCipherSuites .ecdsaP256 false false,
    builtinDefinition (ascii "hybrid-p384-mlkem1024")
      (ascii "High-security experiment: hybrid P-384 + ML-KEM-1024, ECDSA P-384")
      [ascii "SecP384r1MLKEM1024"] [ascii "TLS_AES_256_GCM_SHA384"] .ecdsaP384 false false,
    builtinDefinition (ascii "pure-mlkem768")
      (ascii "EXPERIMENTAL: standalone ML-KEM-768 key establishment, no classical " ++
        ascii "component. Disabled by default.")
      [ascii "MLKEM768"] defaultCipherSuites .ecdsaP256 false true,
    builtinDefinition (ascii "hybrid-pq-auth")
      (ascii "EXPERIMENTAL: hybrid X25519 + ML-KEM-768 key establishment with ML-DSA-65 " ++
        ascii "authentication. Capability-gated.")
      [ascii "X25519MLKEM768"] defaultCipherSuites .mlDsa65 false true]

namespace ProfileRegistry

/-- `ProfileRegistry::builtin`. -/
def builtin : Except Thrown ProfileRegistry := do
  let profiles ← builtinDefinitions.mapM SecurityProfile.create
  return ⟨profiles⟩

/-- `find`. -/
def find (registry : ProfileRegistry) (id : Bytes) : Option SecurityProfile :=
  registry.profiles.find? fun p => p.id == id

/-- `ids`. -/
def ids (registry : ProfileRegistry) : List Bytes := registry.profiles.map SecurityProfile.id

/-- `get`. -/
def get (registry : ProfileRegistry) (id : Bytes) : Except Thrown SecurityProfile :=
  match registry.find id with
  | some profile => .ok profile
  | none =>
    .error (configurationError (ascii "unknown security profile '" ++ id ++
      ascii "'. Available profiles: " ++ join registry.ids 0x20))

/-- A profile that is found is in the registry under the identifier asked for. -/
theorem mem_of_get {registry : ProfileRegistry} {id : Bytes} {p : SecurityProfile}
    (h : registry.get id = .ok p) : p ∈ registry.profiles ∧ p.id = id := by
  unfold get at h
  split at h
  · rename_i profile hfind
    cases h
    exact ⟨List.mem_of_find?_eq_some hfind, by simpa using List.find?_some hfind⟩
  · cases h

/-- Profiles whose names announce post-quantum key establishment list nothing else. -/
def NamesHonest (registry : ProfileRegistry) : Prop :=
  ∀ p ∈ registry.profiles, announcesPostQuantum p.id = true →
    ∀ group ∈ p.groups, isPostQuantumGroup group = true

/-- Under such a name only a post-quantum group is permitted. -/
theorem isPostQuantumGroup_of_announced {registry : ProfileRegistry} (h : registry.NamesHonest)
    {id group : Bytes} {p : SecurityProfile} (hget : registry.get id = .ok p)
    (hid : announcesPostQuantum id = true) (hpermits : p.permitsNegotiatedGroup group = true) :
    isPostQuantumGroup group = true := by
  obtain ⟨hmem, rfl⟩ := mem_of_get hget
  have hne : group ≠ [] := by
    rintro rfl
    rw [p.not_permits_nil] at hpermits
    cases hpermits
  obtain ⟨entry, hentry, hfold⟩ := (p.permits_iff_lists hne).mp hpermits
  rw [← isPostQuantumGroup_congr hfold]
  exact h p hmem hid entry hentry

/-- Each of the profiles comes from one of the definitions. -/
theorem create_of_mem_mapM {ds : List ProfileDefinition} {ps : List SecurityProfile}
    (h : ds.mapM SecurityProfile.create = .ok ps) {p : SecurityProfile} (hp : p ∈ ps) :
    ∃ d ∈ ds, SecurityProfile.create d = .ok p := by
  have hmem : Except.ok p ∈ ds.map SecurityProfile.create := by
    rw [mapM_eq_ok_iff.mp h]
    exact List.mem_map_of_mem hp
  exact List.mem_map.mp hmem

/-- The names of the built-in profiles are honest. -/
theorem namesHonest_builtin {registry : ProfileRegistry} (h : builtin = .ok registry) :
    registry.NamesHonest := by
  obtain ⟨ps, hps, h⟩ := bind_eq_ok_iff.mp h
  cases h
  intro p hp
  obtain ⟨d, hd, hcreate⟩ := create_of_mem_mapM hps hp
  have hdefinition := SecurityProfile.definition_of_create hcreate
  have hid : p.id = d.id := by rw [SecurityProfile.id, hdefinition]
  have hgroups : p.groups = d.groups := by rw [SecurityProfile.groups, hdefinition]
  rw [hid, hgroups]
  have hall : ∀ d ∈ builtinDefinitions, announcesPostQuantum d.id = true →
      ∀ group ∈ d.groups, isPostQuantumGroup group = true := by
    decide +kernel
  exact hall d hd

end ProfileRegistry

end PqtlsLab
