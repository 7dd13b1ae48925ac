import PqtlsLab.Policy.ConfigFile
import PqtlsLab.Policy.ProfileRegistry

/-!
# Loading a file of profiles

A profile is a security policy, so a key that has no meaning in its definition is an error. The
check for such keys looks at maps only, and so does the reading of a value by its key, except that a
scalar in the place of a map cannot be read from at all. A section that is given as a list passes
the check and has no values: what was written in it is not in the profile.
-/

namespace PqtlsLab

/-- `tls_version_from_string`. -/
def tlsVersionFromString (name : Bytes) : Option TlsVersion :=
  if name = ascii "TLS1.3" ∨ name = ascii "TLSv1.3" ∨ name = ascii "1.3" then some .tls13
  else none

/-- `authentication_type_from_string`. -/
def authenticationTypeFromString (name : Bytes) : Option AuthenticationType :=
  if name = ascii "ecdsa-p256" ∨ name = ascii "ECDSA-P256" then some .ecdsaP256
  else if name = ascii "ecdsa-p384" ∨ name = ascii "ECDSA-P384" then some .ecdsaP384
  else if name = ascii "ml-dsa-65" ∨ name = ascii "ML-DSA-65" then some .mlDsa65
  else none

namespace ProfileFile

variable (lib : YamlLibrary)

/-- `reject_unknown_keys` for one key. -/
def rejectIfUnknown (known : List Bytes) (context : Bytes) (key : Yaml) : Except Thrown Unit := do
  let text ← uncaught (key.asString lib)
  if text ∈ known then .ok ()
  else .error (configurationError (ascii "unknown key '" ++ text ++ ascii "' in " ++ context ++
    ascii ". Remove it or correct the spelling; unknown keys are rejected so that a typo cannot " ++
    ascii "silently weaken a policy."))

/-- `reject_unknown_keys`. -/
def rejectUnknownKeys (known : List Bytes) (context : Bytes) (node : Yaml) : Except Thrown Unit :=
  node.keys.forM (rejectIfUnknown lib known context)

/-- The value of an entry if it is present, and a default otherwise. -/
def ifPresent {α : Type} (node : Yaml) (key : Bytes) (fallback : α)
    (read : Yaml → Except Thrown α) : Except Thrown α := do
  match ← uncaught (node.index lib key) with
  | some value => read value
  | none => return fallback

/-- The beginning of a message about a profile. -/
def profileText (id : Bytes) : Bytes := ascii "profile '" ++ id ++ ascii "'"

/-- The value of `tls.minimum_version` or `tls.maximum_version`. -/
def readVersion (id field : Bytes) : Yaml → Except Thrown TlsVersion :=
  readNamed lib tlsVersionFromString fun raw => profileText id ++ ascii ": unsupported tls." ++
    field ++ ascii " '" ++ raw ++ ascii "'. Only TLS1.3 is supported."

/-- The value of `authentication.type`. -/
def readAuthenticationType (id : Bytes) : Yaml → Except Thrown AuthenticationType :=
  readNamed lib authenticationTypeFromString fun raw =>
    profileText id ++ ascii ": unknown authentication.type '" ++ raw ++ ascii "'"

/-- A list of texts. -/
def readList (id field : Bytes) : Yaml → Except Thrown (List Bytes)
  | .sequence items => items.mapM fun item => uncaught (item.asString lib)
  | _ => .error (configurationError
      (profileText id ++ ascii ": '" ++ field ++ ascii "' must be a list"))

/-- The keys of a profile definition. -/
def profileKeys : List Bytes :=
  [ascii "id", ascii "description", ascii "tls", ascii "groups", ascii "cipher_suites",
    ascii "authentication", ascii "fallback", ascii "experimental"]

/-- The keys of the `tls` section. -/
def tlsKeys : List Bytes := [ascii "minimum_version", ascii "maximum_version"]

/-- The keys of the `authentication` section. -/
def authenticationKeys : List Bytes := [ascii "type", ascii "require_client_certificate"]

/-- The keys of the `fallback` section. -/
def fallbackKeys : List Bytes := [ascii "allow_classical"]

/-- The `id` of a profile. -/
def readId (node : Yaml) : Except Thrown Bytes := do
  match ← uncaught (node.index lib (ascii "id")) with
  | some id => uncaught (id.asString lib)
  | none => .error (configurationError
      (ascii "profile definition is missing the mandatory 'id' key"))

/-- The `tls` section: the two versions. -/
def readTls (id : Bytes) (tls : Yaml) : Except Thrown (TlsVersion × TlsVersion) := do
  rejectUnknownKeys lib tlsKeys (profileText id ++ ascii " tls section") tls
  let minimum ← ifPresent lib tls (ascii "minimum_version") .tls13
    (readVersion lib id (ascii "minimum_version"))
  let maximum ← ifPresent lib tls (ascii "maximum_version") .tls13
    (readVersion lib id (ascii "maximum_version"))
  return (minimum, maximum)

/-- The `authentication` section: the type, and whether the client needs a certificate. -/
def readAuthentication (id : Bytes) (auth : Yaml) : Except Thrown (AuthenticationType × Bool) := do
  rejectUnknownKeys lib authenticationKeys (profileText id ++ ascii " authentication section") auth
  let type ← ifPresent lib auth (ascii "type") .ecdsaP256 (readAuthenticationType lib id)
  let requireClientCertificate ← ifPresent lib auth (ascii "require_client_certificate") false
    fun value => uncaught (value.asBool lib)
  return (type, requireClientCertificate)

/-- The `fallback` section: whether classical groups are acceptable. -/
def readFallback (id : Bytes) (fallback : Yaml) : Except Thrown Bool := do
  rejectUnknownKeys lib fallbackKeys (profileText id ++ ascii " fallback section") fallback
  ifPresent lib fallback (ascii "allow_classical") false fun value => uncaught (value.asBool lib)

/-- `parse_profile_node` before the call of `create`. -/
def readDefinition (node : Yaml) : Except Thrown ProfileDefinition := do
  rejectUnknownKeys lib profileKeys (ascii "profile definition") node
  let id ← readId lib node
  let description ← ifPresent lib node (ascii "description") []
    fun value => uncaught (value.asString lib)
  let tls ← ifPresent lib node (ascii "tls") (.tls13, .tls13) (readTls lib id)
  let groups ← ifPresent lib node (ascii "groups") [] (readList lib id (ascii "groups"))
  let cipherSuites ← ifPresent lib node (ascii "cipher_suites") []
    (readList lib id (ascii "cipher_suites"))
  let authentication ← ifPresent lib node (ascii "authentication") (.ecdsaP256, false)
    (readAuthentication lib id)
  let allowClassicalFallback ← ifPresent lib node (ascii "fallback") false (readFallback lib id)
  let experimental ← ifPresent lib node (ascii "experimental") false
    fun value => uncaught (value.asBool lib)
  return {
    id, description, groups, cipherSuites, allowClassicalFallback, experimental
    minimumVersion := tls.1
    maximumVersion := tls.2
    authentication := authentication.1
    requireClientCertificate := authentication.2 }

/-- `parse_profile_node`. -/
def parseProfileNode (node : Yaml) : Except Thrown SecurityProfile := do
  let definition ← readDefinition lib node
  SecurityProfile.create definition

variable {lib} {node : Yaml}

/-- No key is rejected exactly when all of them are known. -/
theorem rejectUnknownKeys_eq_ok_iff {known : List Bytes} {context : Bytes} :
    rejectUnknownKeys lib known context node = .ok () ↔ ∀ key ∈ node.keys, key.KnownAs known := by
  have hkey : ∀ key, rejectIfUnknown lib known context key = .ok () ↔ key.KnownAs known := by
    intro key
    simp only [rejectIfUnknown, bind_eq_ok_iff, uncaught_eq_ok_iff, Yaml.asString,
      Yaml.convert_eq_ok_iff, Yaml.KnownAs]
    refine exists_congr fun text => ?_
    by_cases hknown : text ∈ known <;> simp [hknown]
  rw [rejectUnknownKeys, forM_eq_ok_iff]
  exact forall₂_congr fun key _ => hkey key

/-- An entry that is read from a node has the value given there, or else the default. -/
theorem ifPresent_eq_ok {α : Type} {key : Bytes} {fallback a : α}
    {read : Yaml → Except Thrown α} (h : ifPresent lib node key fallback read = .ok a) :
    node.isScalar = false ∧ (∀ value, node.get? key = some value → read value = .ok a) ∧
      (node.get? key = none → a = fallback) := by
  obtain ⟨hscalar, h⟩ := of_index_bind_eq_ok h
  refine ⟨hscalar, ?_⟩
  cases hget : node.get? key with
  | none =>
    rw [hget] at h
    cases h
    simp
  | some value =>
    rw [hget] at h
    exact ⟨fun value' hvalue => by cases hvalue; exact h, fun hnone => by cases hnone⟩

/-- The sections of a profile definition, with their keys. -/
def sections : List (Bytes × List Bytes) :=
  [(ascii "tls", tlsKeys), (ascii "authentication", authenticationKeys),
    (ascii "fallback", fallbackKeys)]

/-- The value that is read for a key of a section. -/
def firstIn (node : Yaml) (name key : Bytes) : Option Yaml := (node.get? name).bind (·.get? key)

/-- All values that are given for a key of a section. -/
def givenIn (node : Yaml) (name key : Bytes) : List Yaml :=
  (node.getAll name).flatMap (·.getAll key)

/-- The values for a key of a section that are given again after the one that is read. -/
def againIn (node : Yaml) (name key : Bytes) : List Yaml :=
  ((node.get? name).toList.flatMap (·.repeats key)) ++ (node.repeats name).flatMap (·.getAll key)

/-- The authentication type that a value names. -/
def authenticationType? (value : Yaml) : Option AuthenticationType :=
  value.text?.bind authenticationTypeFromString

/-- The cipher suites that a value leads to. -/
def suites? (value : Yaml) : Option (List Bytes) :=
  value.texts?.map fun suites => if suites = [] then defaultCipherSuites else suites

/-- A profile holds what its definition gives, and the definition has nothing else. -/
structure Faithful (lib : YamlLibrary) (node : Yaml) (p : SecurityProfile) : Prop where
  map : node.isMap = true
  known : ∀ key ∈ node.keys, key.KnownAs profileKeys
  parts : ∀ entry ∈ sections, ∀ part ∈ node.getAll entry.1,
    (part.isMap = true ∨ part = .null) ∧ ∀ key ∈ part.keys, key.KnownAs entry.2
  type : ∀ value ∈ givenIn node (ascii "authentication") (ascii "type"),
    authenticationType? value = some p.authentication
  requireClientCertificate :
    ∀ value ∈ givenIn node (ascii "authentication") (ascii "require_client_certificate"),
      value.bool? lib = some p.definition.requireClientCertificate
  allowClassical : ∀ value ∈ givenIn node (ascii "fallback") (ascii "allow_classical"),
    value.bool? lib = some p.definition.allowClassicalFallback
  experimental : ∀ value ∈ node.getAll (ascii "experimental"),
    value.bool? lib = some p.definition.experimental
  groups : ∀ value ∈ node.getAll (ascii "groups"), value.texts? = some p.groups
  cipherSuites : ∀ value ∈ node.getAll (ascii "cipher_suites"),
    suites? value = some p.definition.cipherSuites
  defaultSuites : node.getAll (ascii "cipher_suites") = [] →
    p.definition.cipherSuites = defaultCipherSuites

/-- What a field is set to: the reading of its first value, or a default. -/
def inForce {α : Type} (reading : Yaml → Option α) (fallback : α) (first : Option Yaml) :
    Option α :=
  first.elim (some fallback) reading

/-- No section that is read is a list, and what is given again says nothing else. -/
structure WellFormed (lib : YamlLibrary) (node : Yaml) : Prop where
  lists : ∀ entry ∈ sections, ∀ part, node.get? entry.1 = some part → part.isSequence = false
  parts : ∀ entry ∈ sections, ∀ part ∈ node.repeats entry.1,
    (part.isMap = true ∨ part = .null) ∧ ∀ key ∈ part.keys, key.KnownAs entry.2
  type : ∀ value ∈ againIn node (ascii "authentication") (ascii "type"),
    authenticationType? value = inForce authenticationType? .ecdsaP256
      (firstIn node (ascii "authentication") (ascii "type"))
  requireClientCertificate :
    ∀ value ∈ againIn node (ascii "authentication") (ascii "require_client_certificate"),
      value.bool? lib = inForce (Yaml.bool? lib) false
        (firstIn node (ascii "authentication") (ascii "require_client_certificate"))
  allowClassical : ∀ value ∈ againIn node (ascii "fallback") (ascii "allow_classical"),
    value.bool? lib = inForce (Yaml.bool? lib) false
      (firstIn node (ascii "fallback") (ascii "allow_classical"))
  experimental : ∀ value ∈ node.repeats (ascii "experimental"),
    value.bool? lib = inForce (Yaml.bool? lib) false (node.get? (ascii "experimental"))
  groups : ∀ value ∈ node.repeats (ascii "groups"),
    value.texts? = inForce Yaml.texts? [] (node.get? (ascii "groups"))
  cipherSuites : ∀ value ∈ node.repeats (ascii "cipher_suites"),
    suites? value = inForce suites? defaultCipherSuites (node.get? (ascii "cipher_suites"))

/-- Every value of a section's key is the one that is read, or given again. -/
theorem givenIn_iff (node : Yaml) (name key : Bytes) (value : Yaml) :
    value ∈ givenIn node name key ↔
      firstIn node name key = some value ∨ value ∈ againIn node name key := by
  rw [givenIn, Yaml.getAll_eq, List.flatMap_append, againIn, firstIn]
  cases hpart : node.get? name with
  | none => simp
  | some part => simp [Yaml.getAll_eq part key]

/-- Where the value in force is held, all values are held exactly when those given again say the
same. -/
theorem held_iff {α : Type} {reading : Yaml → Option α} {fallback held : α} {first : Option Yaml}
    (hheld : inForce reading fallback first = some held) {all again : List Yaml}
    (hall : ∀ value, value ∈ all ↔ first = some value ∨ value ∈ again) :
    (∀ value ∈ all, reading value = some held) ↔
      ∀ value ∈ again, reading value = inForce reading fallback first := by
  rw [hheld]
  constructor
  · intro h value hvalue
    exact h value ((hall value).mpr (.inr hvalue))
  · intro h value hvalue
    rcases (hall value).mp hvalue with rfl | hagain
    · exact hheld
    · exact h value hagain

/-- What has been read for a definition, field by field. -/
structure Reads (lib : YamlLibrary) (node : Yaml) (d : ProfileDefinition) : Prop where
  keys : ∀ key ∈ node.keys, key.KnownAs profileKeys
  id : readId lib node = .ok d.id
  description : ifPresent lib node (ascii "description") []
    (fun value => uncaught (value.asString lib)) = .ok d.description
  tls : ifPresent lib node (ascii "tls") (.tls13, .tls13) (readTls lib d.id) =
    .ok (d.minimumVersion, d.maximumVersion)
  groups : ifPresent lib node (ascii "groups") [] (readList lib d.id (ascii "groups")) =
    .ok d.groups
  cipherSuites : ifPresent lib node (ascii "cipher_suites") []
    (readList lib d.id (ascii "cipher_suites")) = .ok d.cipherSuites
  authentication : ifPresent lib node (ascii "authentication") (.ecdsaP256, false)
    (readAuthentication lib d.id) = .ok (d.authentication, d.requireClientCertificate)
  fallback : ifPresent lib node (ascii "fallback") false (readFallback lib d.id) =
    .ok d.allowClassicalFallback
  experimental : ifPresent lib node (ascii "experimental") false
    (fun value => uncaught (value.asBool lib)) = .ok d.experimental

/-- A definition is read field by field. -/
theorem reads_of_readDefinition {d : ProfileDefinition} (h : readDefinition lib node = .ok d) :
    Reads lib node d := by
  obtain ⟨_, hkeys, h⟩ := bind_eq_ok_iff.mp h
  obtain ⟨id, hid, h⟩ := bind_eq_ok_iff.mp h
  obtain ⟨description, hdescription, h⟩ := bind_eq_ok_iff.mp h
  obtain ⟨tls, htls, h⟩ := bind_eq_ok_iff.mp h
  obtain ⟨groups, hgroups, h⟩ := bind_eq_ok_iff.mp h
  obtain ⟨suites, hsuites, h⟩ := bind_eq_ok_iff.mp h
  obtain ⟨authentication, hauthentication, h⟩ := bind_eq_ok_iff.mp h
  obtain ⟨fallback, hfallback, h⟩ := bind_eq_ok_iff.mp h
  obtain ⟨experimental, hexperimental, h⟩ := bind_eq_ok_iff.mp h
  cases h
  exact ⟨rejectUnknownKeys_eq_ok_iff.mp hkeys, hid, hdescription, htls, hgroups, hsuites,
    hauthentication, hfallback, hexperimental⟩

/-- An entry that is read sets its field. -/
theorem inForce_of_ifPresent {α : Type} {key : Bytes} {fallback a : α}
    {read : Yaml → Except Thrown α} {reading : Yaml → Option α}
    (h : ifPresent lib node key fallback read = .ok a)
    (hread : ∀ value, read value = .ok a → reading value = some a) :
    inForce reading fallback (node.get? key) = some a := by
  obtain ⟨-, hsome, hnone⟩ := ifPresent_eq_ok h
  cases hget : node.get? key with
  | none => rw [hnone hget]; rfl
  | some value => exact hread value (hsome value hget)

/-- A section that is read sets its fields. -/
theorem inForce_firstIn {α : Type} {name key : Bytes} {fallback a : α} {reading : Yaml → Option α}
    (hsome : ∀ part, node.get? name = some part →
      inForce reading fallback (part.get? key) = some a)
    (hnone : node.get? name = none → a = fallback) :
    inForce reading fallback (firstIn node name key) = some a := by
  unfold firstIn
  cases hget : node.get? name with
  | none => rw [hnone hget]; rfl
  | some part => exact hsome part hget

/-- A list of texts is read as it is given. -/
theorem texts?_of_readList {id field : Bytes} {texts : List Bytes} {value : Yaml}
    (h : readList lib id field value = .ok texts) : value.texts? = some texts := by
  cases value with
  | null => cases h
  | scalar text => cases h
  | map entries => cases h
  | sequence items =>
    change items.mapM Yaml.text? = some texts
    replace h := mapM_eq_ok_iff.mp h
    induction items generalizing texts with
    | nil =>
      cases texts with
      | nil => rfl
      | cons text texts => cases h
    | cons item items ih =>
      cases texts with
      | nil => cases h
      | cons text texts =>
        obtain ⟨hfirst, hrest⟩ := List.cons.inj h
        rw [List.mapM_cons, text?_of_asString hfirst, ih hrest]
        rfl

/-- The text of a value names it. -/
theorem parse_of_readNamed {α : Type} {parse : Bytes → Option α} {complaint : Bytes → Bytes}
    {a : α} {value : Yaml} (h : readNamed lib parse complaint value = .ok a) :
    value.text?.bind parse = some a := by
  obtain ⟨raw, hraw, h⟩ := bind_eq_ok_iff.mp h
  rw [text?_of_asString hraw, Option.bind_some]
  cases hparse : parse raw with
  | none =>
    rw [hparse] at h
    cases h
  | some value =>
    rw [hparse] at h
    cases h
    rfl

/-- A truth value is read as it is given. -/
theorem bool?_of_asBool {value : Yaml} {b : Bool} (h : uncaught (value.asBool lib) = .ok b) :
    value.bool? lib = some b :=
  Yaml.convert_eq_ok_iff.mp (uncaught_eq_ok_iff.mp h)

/-- A section that is read is no scalar, and its keys are known. -/
theorem readTls_eq_ok {id : Bytes} {part : Yaml} {versions : TlsVersion × TlsVersion}
    (h : readTls lib id part = .ok versions) :
    part.isScalar = false ∧ ∀ key ∈ part.keys, key.KnownAs tlsKeys := by
  obtain ⟨_, hkeys, h⟩ := bind_eq_ok_iff.mp h
  obtain ⟨minimum, hminimum, -⟩ := bind_eq_ok_iff.mp h
  exact ⟨(ifPresent_eq_ok hminimum).1, rejectUnknownKeys_eq_ok_iff.mp hkeys⟩

/-- A section that is read is no scalar, its keys are known, and it sets its fields. -/
theorem readAuthentication_eq_ok {id : Bytes} {part : Yaml} {result : AuthenticationType × Bool}
    (h : readAuthentication lib id part = .ok result) :
    (part.isScalar = false ∧ ∀ key ∈ part.keys, key.KnownAs authenticationKeys) ∧
      inForce authenticationType? .ecdsaP256 (part.get? (ascii "type")) = some result.1 ∧
      inForce (Yaml.bool? lib) false (part.get? (ascii "require_client_certificate")) =
        some result.2 := by
  obtain ⟨_, hkeys, h⟩ := bind_eq_ok_iff.mp h
  obtain ⟨type, htype, h⟩ := bind_eq_ok_iff.mp h
  obtain ⟨require, hrequire, h⟩ := bind_eq_ok_iff.mp h
  cases h
  exact ⟨⟨(ifPresent_eq_ok htype).1, rejectUnknownKeys_eq_ok_iff.mp hkeys⟩,
    inForce_of_ifPresent htype fun _ => parse_of_readNamed,
    inForce_of_ifPresent hrequire fun _ => bool?_of_asBool⟩

/-- A section that is read is no scalar, its keys are known, and it sets its field. -/
theorem readFallback_eq_ok {id : Bytes} {part : Yaml} {allow : Bool}
    (h : readFallback lib id part = .ok allow) :
    (part.isScalar = false ∧ ∀ key ∈ part.keys, key.KnownAs fallbackKeys) ∧
      inForce (Yaml.bool? lib) false (part.get? (ascii "allow_classical")) = some allow := by
  obtain ⟨_, hkeys, h⟩ := bind_eq_ok_iff.mp h
  exact ⟨⟨(ifPresent_eq_ok h).1, rejectUnknownKeys_eq_ok_iff.mp hkeys⟩,
    inForce_of_ifPresent h fun _ => bool?_of_asBool⟩

section Held

variable {d : ProfileDefinition}

/-- The sections of a definition that is read are no scalars, and their keys are known. -/
theorem Reads.sections (h : Reads lib node d) :
    ∀ entry ∈ sections, ∀ part, node.get? entry.1 = some part →
      part.isScalar = false ∧ ∀ key ∈ part.keys, key.KnownAs entry.2 := by
  have htls := (ifPresent_eq_ok h.tls).2.1
  have hauthentication := (ifPresent_eq_ok h.authentication).2.1
  have hfallback := (ifPresent_eq_ok h.fallback).2.1
  simp only [ProfileFile.sections, List.forall_mem_cons]
  exact ⟨fun part hpart => readTls_eq_ok (htls part hpart),
    fun part hpart => (readAuthentication_eq_ok (hauthentication part hpart)).1,
    fun part hpart => (readFallback_eq_ok (hfallback part hpart)).1, by simp⟩

/-- Only a map has an entry. -/
theorem Reads.isMap (h : Reads lib node d) : node.isMap = true := by
  obtain ⟨-, hid⟩ := of_index_bind_eq_ok h.id
  cases node <;> first | rfl | cases hid

/-- The type in force is held. -/
theorem Reads.type_inForce (h : Reads lib node d) :
    inForce authenticationType? .ecdsaP256
      (firstIn node (ascii "authentication") (ascii "type")) = some d.authentication := by
  obtain ⟨-, hsome, hnone⟩ := ifPresent_eq_ok h.authentication
  refine inForce_firstIn (fun part hpart => ?_) fun hget => congrArg Prod.fst (hnone hget)
  exact (readAuthentication_eq_ok (hsome part hpart)).2.1

/-- The demand in force is held. -/
theorem Reads.requireClientCertificate_inForce (h : Reads lib node d) :
    inForce (Yaml.bool? lib) false
      (firstIn node (ascii "authentication") (ascii "require_client_certificate")) =
        some d.requireClientCertificate := by
  obtain ⟨-, hsome, hnone⟩ := ifPresent_eq_ok h.authentication
  refine inForce_firstIn (fun part hpart => ?_) fun hget => congrArg Prod.snd (hnone hget)
  exact (readAuthentication_eq_ok (hsome part hpart)).2.2

/-- The permission in force is held. -/
theorem Reads.allowClassical_inForce (h : Reads lib node d) :
    inForce (Yaml.bool? lib) false (firstIn node (ascii "fallback") (ascii "allow_classical")) =
      some d.allowClassicalFallback := by
  obtain ⟨-, hsome, hnone⟩ := ifPresent_eq_ok h.fallback
  exact inForce_firstIn (fun part hpart => (readFallback_eq_ok (hsome part hpart)).2) hnone

/-- The cipher suites in force are held. -/
theorem Reads.suites_inForce (h : Reads lib node d) :
    inForce suites? defaultCipherSuites (node.get? (ascii "cipher_suites")) =
      some (SecurityProfile.effectiveSuites d) := by
  obtain ⟨-, hsome, hnone⟩ := ifPresent_eq_ok h.cipherSuites
  cases hget : node.get? (ascii "cipher_suites") with
  | none => simp [inForce, SecurityProfile.effectiveSuites, hnone hget]
  | some value =>
    have htexts := texts?_of_readList (hsome value hget)
    simp [inForce, suites?, htexts, SecurityProfile.effectiveSuites]

/-- All values of a key are the first and those given again. -/
theorem mem_getAll_iff (node : Yaml) (key : Bytes) (value : Yaml) :
    value ∈ node.getAll key ↔ node.get? key = some value ∨ value ∈ node.repeats key := by
  rw [Yaml.getAll_eq, List.mem_append, Option.mem_toList]

/-- Of the sections that are read, all but lists are maps of known keys, or null. -/
theorem Reads.parts_iff (h : Reads lib node d) :
    (∀ entry ∈ ProfileFile.sections, ∀ part ∈ node.getAll entry.1,
      (part.isMap = true ∨ part = .null) ∧ ∀ key ∈ part.keys, key.KnownAs entry.2) ↔
    (∀ entry ∈ ProfileFile.sections, ∀ part, node.get? entry.1 = some part →
      part.isSequence = false) ∧
    ∀ entry ∈ ProfileFile.sections, ∀ part ∈ node.repeats entry.1,
      (part.isMap = true ∨ part = .null) ∧ ∀ key ∈ part.keys, key.KnownAs entry.2 := by
  constructor
  · intro hparts
    refine ⟨fun entry hentry part hpart => ?_, fun entry hentry part hpart =>
      hparts entry hentry part ((mem_getAll_iff node _ _).mpr (.inr hpart))⟩
    have hpart := hparts entry hentry part ((mem_getAll_iff node _ _).mpr (.inl hpart))
    rcases hpart.1 with hmap | rfl
    · cases part <;> first | rfl | cases hmap
    · rfl
  · rintro ⟨hlists, hrepeated⟩ entry hentry part hpart
    rcases (mem_getAll_iff node _ _).mp hpart with hfirst | hagain
    · obtain ⟨hscalar, hknown⟩ := h.sections entry hentry part hfirst
      refine ⟨?_, hknown⟩
      cases part with
      | null => exact .inr rfl
      | scalar text => cases hscalar
      | sequence items => cases hlists entry hentry _ hfirst
      | map entries => exact .inl rfl
    · exact hrepeated entry hentry part hagain

end Held

/-- A profile that is accepted holds what its definition gives exactly when no section of the
definition that is read is a list and what is given again says nothing else. -/
theorem faithful_iff {p : SecurityProfile} (h : parseProfileNode lib node = .ok p) :
    Faithful lib node p ↔ WellFormed lib node := by
  obtain ⟨d, hread, hcreate⟩ := bind_eq_ok_iff.mp h
  have hreads := reads_of_readDefinition hread
  have hdefinition := SecurityProfile.definition_of_create hcreate
  have htype := held_iff hreads.type_inForce (givenIn_iff node _ _)
  have hrequire := held_iff hreads.requireClientCertificate_inForce (givenIn_iff node _ _)
  have hallow := held_iff hreads.allowClassical_inForce (givenIn_iff node _ _)
  have hexperimental := held_iff
    (inForce_of_ifPresent hreads.experimental fun _ => bool?_of_asBool) (mem_getAll_iff node _)
  have hgroups := held_iff
    (inForce_of_ifPresent hreads.groups fun _ => texts?_of_readList) (mem_getAll_iff node _)
  have hsuites := held_iff hreads.suites_inForce (mem_getAll_iff node _)
  have hdefault : node.getAll (ascii "cipher_suites") = [] →
      SecurityProfile.effectiveSuites d = defaultCipherSuites := by
    intro hnone
    rw [Yaml.getAll_eq, List.append_eq_nil_iff, Option.toList_eq_nil_iff] at hnone
    have hforce := hreads.suites_inForce
    rw [hnone.1] at hforce
    exact (Option.some.inj hforce).symm
  constructor
  · rintro ⟨-, -, hparts, hf₁, hf₂, hf₃, hf₄, hf₅, hf₆, -⟩
    simp only [SecurityProfile.authentication, SecurityProfile.groups, hdefinition]
      at hf₁ hf₂ hf₃ hf₄ hf₅ hf₆
    obtain ⟨hlists, hrepeated⟩ := hreads.parts_iff.mp hparts
    exact ⟨hlists, hrepeated, htype.mp hf₁, hrequire.mp hf₂, hallow.mp hf₃,
      hexperimental.mp hf₄, hgroups.mp hf₅, hsuites.mp hf₆⟩
  · rintro ⟨hlists, hrepeated, hp₁, hp₂, hp₃, hp₄, hp₅, hp₆⟩
    refine ⟨hreads.isMap, hreads.keys, hreads.parts_iff.mpr ⟨hlists, hrepeated⟩, ?_, ?_, ?_, ?_,
      ?_, ?_, ?_⟩
    all_goals simp only [SecurityProfile.authentication, SecurityProfile.groups, hdefinition]
    · exact htype.mpr hp₁
    · exact hrequire.mpr hp₂
    · exact hallow.mpr hp₃
    · exact hexperimental.mpr hp₄
    · exact hgroups.mpr hp₅
    · exact hsuites.mpr hp₆
    · exact hdefault

/-- A definition with a demand for client certificates in a section. -/
def demandingDefinition (authentication : Yaml) : Yaml :=
  .map [(.scalar (ascii "id"), .scalar (ascii "internal")),
    (.scalar (ascii "groups"), .sequence [.scalar (ascii "X25519MLKEM768")]),
    (.scalar (ascii "authentication"), authentication)]

/-- The demand as an entry of a map. -/
def demand : Yaml :=
  .map [(.scalar (ascii "require_client_certificate"), .scalar (ascii "true"))]

/-- The demand in a map is held by the profile. -/
theorem faithful_demand :
    ∃ p, parseProfileNode .plain (demandingDefinition demand) = .ok p ∧
      Faithful .plain (demandingDefinition demand) p ∧
        p.definition.requireClientCertificate = true := by
  refine ⟨_, rfl, (faithful_iff rfl).mpr ?_, rfl⟩
  refine ⟨?_, ?_, ?_, ?_, ?_, ?_, ?_, ?_⟩
  · simp only [sections, List.forall_mem_cons]
    refine ⟨fun part hpart => ?_, fun part hpart => ?_, fun part hpart => ?_, by simp⟩
    · cases hpart
    · cases hpart
      rfl
    · cases hpart
  · simp only [sections, List.forall_mem_cons]
    refine ⟨fun part hpart => ?_, fun part hpart => ?_, fun part hpart => ?_, by simp⟩
    all_goals cases hpart
  all_goals
    intro value hvalue
    cases hvalue

/-- The demand in a list is lost, and the definition is accepted. -/
theorem listed_demand_lost :
    ∃ p, parseProfileNode .plain (demandingDefinition (.sequence [demand])) = .ok p ∧
      p.definition.requireClientCertificate = false ∧
        ¬Faithful .plain (demandingDefinition (.sequence [demand])) p := by
  refine ⟨_, rfl, rfl, fun hfaithful => ?_⟩
  have hpart := hfaithful.parts (ascii "authentication", authenticationKeys) (by decide)
    (.sequence [demand]) (List.mem_singleton_self _)
  simp [Yaml.isMap] at hpart

end ProfileFile

namespace ProfileRegistry

/-- The profile in the place of the first one with its identifier, or at the end. -/
def place (profile : SecurityProfile) : List SecurityProfile → List SecurityProfile
  | [] => [profile]
  | p :: rest => if p.id = profile.id then profile :: rest else p :: place profile rest

/-- `add_or_replace`. -/
def addOrReplace (registry : ProfileRegistry) (profile : SecurityProfile) : ProfileRegistry :=
  ⟨place profile registry.profiles⟩

/-- `YAML::LoadFile` in `from_yaml_file`. -/
def loadFile (path : Bytes) : YamlFile → Except Thrown Yaml
  | .ok root => .ok root
  | .error failure => .error (configurationError
      (ascii "failed to parse profiles file '" ++ path ++ ascii "': " ++ failure.what))

/-- `ProfileRegistry::from_yaml_file`. -/
def fromYamlFile (lib : YamlLibrary) (path : Bytes) (file : YamlFile) :
    Except Thrown ProfileRegistry := do
  let registry ← builtin
  let root ← loadFile path file
  ProfileFile.rejectUnknownKeys lib [ascii "profiles", ascii "schema_version"]
    (ascii "profiles file '" ++ path ++ ascii "'") root
  match ← uncaught (root.index lib (ascii "profiles")) with
  | some (.sequence nodes) =>
    nodes.foldlM (fun registry node => do
      let profile ← ProfileFile.parseProfileNode lib node
      return registry.addOrReplace profile) registry
  | _ => .error (configurationError (ascii "profiles file '" ++ path ++
      ascii "' must contain a top-level 'profiles' list"))

end ProfileRegistry

end PqtlsLab
