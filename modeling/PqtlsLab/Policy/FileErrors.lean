import PqtlsLab.Policy.ProfileFile

/-!
# How loading a file fails

A key or value that the program does not accept is reported as an error of the configuration. A node
of the wrong kind, or a text that is no value of its type, makes the YAML library throw, and only
reading the file is guarded against its exceptions. The problem that comes first in the order of
reading decides which of the two happens. These problems are described here from the document
alone, and each loader is shown to fail as the first of them.
-/

namespace PqtlsLab

/-- What is wrong at some place of a document. -/
inductive Problem where
  /-- A key, a value or a definition that the program does not accept. -/
  | rejected
  /-- A node that is used as something it is not: a scalar as a map, a list or map as a key, or a
  text as a value of a type to which it does not belong. -/
  | mismatch
  deriving DecidableEq, Repr

/-- The problem that an exception reports. -/
def Thrown.problem (e : Thrown) : Problem :=
  if e.category = .configuration then .rejected else .mismatch

/-- A scalar in the place of a map. -/
def subscriptProblem (node : Yaml) : Option Problem :=
  if node.isScalar then some .mismatch else none

/-- A node without a value of the wanted type. -/
def conversionProblem {α : Type} (value : Option α) : Option Problem :=
  if value.isNone then some .mismatch else none

/-- The problem of an entry: that of its value if it is present. -/
def entryProblem (node : Yaml) (key : Bytes) (missing : Option Problem)
    (check : Yaml → Option Problem) : Option Problem :=
  if node.isScalar then some .mismatch
  else match node.get? key with
    | some value => check value
    | none => missing

/-- The problem of a text that stands for one of several values. -/
def namedProblem {α : Type} (parse : Bytes → Option α) (value : Yaml) : Option Problem :=
  match value.text? with
  | none => some .mismatch
  | some raw => if (parse raw).isNone then some .rejected else none

/-- The problem of a value of some kind. -/
def Kind.problem (lib : YamlLibrary) (value : Yaml) : Kind → Option Problem
  | string => conversionProblem value.text?
  | bool => conversionProblem (value.bool? lib)
  | uint32 => conversionProblem (value.scalar?.bind lib.uint32)
  | port =>
    match value.scalar?.bind lib.int with
    | none => some .mismatch
    | some n => if n.toInt < 0 ∨ 65535 < n.toInt then some .rejected else none
  | outputFormat => namedProblem outputFormatFromString value

/-- The problem of an option. -/
def Setting.problem {σ : Type} (lib : YamlLibrary) (node : Yaml) (setting : Setting σ) :
    Option Problem :=
  entryProblem node setting.key none (setting.kind.problem lib ·)

/-- The problem of a key of a configuration. -/
def keyProblem (key : Yaml) : Option Problem := conversionProblem key.text?

/-- The first problem of the common part of a configuration. -/
def commonProblem (lib : YamlLibrary) (root : Yaml) : Option Problem :=
  (subscriptProblem root).or <|
    ((root.part commonName).keys.findSome? keyProblem).or <|
      commonSettings.findSome? (Setting.problem lib (root.part commonName))

/-- The first problem of a configuration. -/
def ConfigRole.problem {σ : Type} (role : ConfigRole σ) (lib : YamlLibrary) (root : Yaml) :
    Option Problem :=
  (commonProblem lib root).or <|
    (role.settings.findSome? (Setting.problem lib (root.part role.name))).or <|
      (root.get? role.name).bind fun part => part.keys.findSome? keyProblem

section Reading

variable {lib : YamlLibrary} {node root : Yaml} {key : Bytes} {β : Type}

/-- A conversion fails as a mismatch. -/
theorem failureAs_convert {α : Type} (value : Option α) :
    failureAs Thrown.problem (uncaught (Yaml.convert lib node value)) =
      conversionProblem value := by
  cases value <;> rfl

/-- A text fails as described. -/
theorem failureAs_asString (value : Yaml) :
    failureAs Thrown.problem (uncaught (value.asString lib)) = conversionProblem value.text? :=
  failureAs_convert _

/-- A truth value fails as described. -/
theorem failureAs_asBool (value : Yaml) :
    failureAs Thrown.problem (uncaught (value.asBool lib)) = conversionProblem (value.bool? lib) :=
  failureAs_convert _

/-- An entry that is looked up and read fails as described. -/
theorem failureAs_index {f : Option Yaml → Except Thrown β} {missing : Option Problem}
    {check : Yaml → Option Problem} (hnone : failureAs Thrown.problem (f none) = missing)
    (hsome : ∀ value, failureAs Thrown.problem (f (some value)) = check value) :
    failureAs Thrown.problem (uncaught (node.index lib key) >>= f) =
      entryProblem node key missing check := by
  have hfound : ∀ found : Option Yaml, failureAs Thrown.problem (f found) =
      match found with
      | some value => check value
      | none => missing := by
    intro found
    cases found with
    | none => exact hnone
    | some value => exact hsome value
  unfold entryProblem
  cases node <;> first | rfl | exact hfound _

/-- A text that stands for one of several values fails as described. -/
theorem failureAs_readNamed {α : Type} (parse : Bytes → Option α) (complaint : Bytes → Bytes)
    (value : Yaml) :
    failureAs Thrown.problem (readNamed lib parse complaint value) = namedProblem parse value := by
  unfold readNamed namedProblem Yaml.asString Yaml.convert
  cases value.text? with
  | none => rfl
  | some raw =>
    simp only [uncaught, bind, Except.bind]
    cases parse raw <;> rfl

/-- A value of some kind fails as described. -/
theorem failureAs_read (kind : Kind) (value : Yaml) :
    failureAs Thrown.problem (kind.read lib key value) = kind.problem lib value := by
  cases kind with
  | string => exact failureAs_asString _
  | bool => exact failureAs_asBool _
  | uint32 => exact failureAs_convert _
  | outputFormat => exact failureAs_readNamed _ _ _
  | port =>
    unfold Kind.read Kind.problem Yaml.asInt Yaml.convert
    cases value.scalar?.bind lib.int with
    | none => rfl
    | some n =>
      simp only [uncaught, bind, Except.bind]
      split <;> rfl

/-- An option fails as described. -/
theorem failureAs_assignIfPresent {σ : Type} (place : List ℕ) (setting : Setting σ) :
    failureAs Thrown.problem (assignIfPresent lib place node setting) =
      setting.problem lib node := by
  refine failureAs_index rfl fun value => ?_
  exact (failureAs_bind_pure _ _).trans (failureAs_read _ _)

/-- A key fails as described. -/
theorem failureAs_warnIfUnknown {σ : Type} (known : List Bytes) (context : Bytes) (key : Yaml) :
    failureAs Thrown.problem (warnIfUnknown (σ := σ) lib known context key) = keyProblem key :=
  (failureAs_bind_pure _ _).trans (failureAs_asString key)

/-- Choosing a part fails as described. -/
theorem failureAs_choosePart (name : Bytes) :
    failureAs Thrown.problem (choosePart lib root name) = subscriptProblem root := by
  have hindex : failureAs Thrown.problem (choosePart lib root name) =
      entryProblem root name none fun _ => none :=
    failureAs_index rfl fun _ => rfl
  rw [hindex, entryProblem, subscriptProblem]
  cases root.get? name <;> rfl

/-- Loading the common part fails as its first problem. -/
theorem failureAs_loadCommonYaml (path : Bytes) (s : Loading CommonConfig) :
    failureAs Thrown.problem (loadCommonYaml lib path (.ok root) s) = commonProblem lib root := by
  have hpart : ∀ chosen, choosePart lib root commonName = .ok chosen →
      failureAs Thrown.problem (Statement.run
        (rejectUnknownKeys lib commonKnown (ascii "'" ++ path ++ ascii "'") chosen.2 ++
          commonSettings.map (assignIfPresent lib chosen.1 chosen.2)) s) =
        ((root.part commonName).keys.findSome? keyProblem).or
          (commonSettings.findSome? (Setting.problem lib (root.part commonName))) := by
    intro chosen hchosen
    obtain ⟨-, rfl⟩ := chosen_of_choosePart hchosen
    rw [failureAs_run, List.findSome?_append, rejectUnknownKeys, List.findSome?_map,
      List.findSome?_map]
    simp only [Function.comp_def, failureAs_warnIfUnknown, failureAs_assignIfPresent]
  exact (failureAs_bind hpart).trans (by rw [failureAs_choosePart]; rfl)

/-- A loader that gets beyond the common part has no scalar before it. -/
theorem isScalar_of_loadCommonYaml {path : Bytes} {s s' : Loading CommonConfig}
    (h : loadCommonYaml lib path (.ok root) s = .ok s') : root.isScalar = false := by
  obtain ⟨_, hroot, h⟩ := bind_eq_ok_iff.mp h
  cases hroot
  obtain ⟨chosen, hchosen, -⟩ := bind_eq_ok_iff.mp h
  exact (chosen_of_choosePart hchosen).1

/-- Checking the section of a binary fails as described. -/
theorem ConfigRole.failureAs_checkSection {σ : Type} (role : ConfigRole σ) (path : Bytes)
    (hscalar : root.isScalar = false) (s : Loading σ) :
    failureAs Thrown.problem (role.checkSection lib path root s) =
      (root.get? role.name).bind fun part => part.keys.findSome? keyProblem := by
  have hindex : failureAs Thrown.problem (role.checkSection lib path root s) =
      entryProblem root role.name none fun part => part.keys.findSome? keyProblem := by
    refine failureAs_index rfl fun part => ?_
    rw [failureAs_run, rejectUnknownKeys, List.findSome?_map]
    simp only [Function.comp_def, failureAs_warnIfUnknown]
  rw [hindex, entryProblem, if_neg (by simp [hscalar])]
  cases root.get? role.name <;> rfl

/-- Loading a configuration fails as its first problem. -/
theorem ConfigRole.failureAs_loadYaml {σ : Type} (role : ConfigRole σ) (path : Bytes)
    (s : Loading σ) :
    failureAs Thrown.problem (role.loadYaml lib path (.ok root) s) = role.problem lib root := by
  have hown : ∀ common, loadCommonYaml lib path (.ok root)
      ⟨role.common s.config, s.warnings, s.assigned⟩ = .ok common →
      failureAs Thrown.problem (choosePart lib root role.name >>= fun chosen =>
        Statement.run (role.settings.map (assignIfPresent lib chosen.1 chosen.2))
          ⟨role.setCommon common.config s.config, common.warnings, common.assigned⟩ >>=
            role.checkSection lib path root) =
        (role.settings.findSome? (Setting.problem lib (root.part role.name))).or
          ((root.get? role.name).bind fun part => part.keys.findSome? keyProblem) := by
    intro common hcommon
    have hscalar := isScalar_of_loadCommonYaml hcommon
    have hnone : subscriptProblem root = none := by simp [subscriptProblem, hscalar]
    refine (failureAs_bind fun chosen hchosen => ?_).trans
      (by rw [failureAs_choosePart, hnone, Option.none_or])
    obtain ⟨-, rfl⟩ := chosen_of_choosePart hchosen
    rw [failureAs_bind fun s' _ => role.failureAs_checkSection path hscalar s', failureAs_run,
      List.findSome?_map]
    simp only [Function.comp_def, failureAs_assignIfPresent]
  exact (failureAs_bind hown).trans (by rw [failureAs_loadCommonYaml]; rfl)

end Reading

namespace ProfileFile

variable (lib : YamlLibrary)

/-- The first problem of the keys of a map. -/
def keysProblem (known : List Bytes) (node : Yaml) : Option Problem :=
  node.keys.findSome? (namedProblem fun text => if text ∈ known then some text else none)

/-- The first problem of a list of texts. -/
def listProblem : Yaml → Option Problem
  | .sequence items => items.findSome? fun item => conversionProblem item.text?
  | _ => some .rejected

/-- The first problem of the `tls` section. -/
def tlsProblem (tls : Yaml) : Option Problem :=
  (keysProblem tlsKeys tls).or <|
    (entryProblem tls (ascii "minimum_version") none (namedProblem tlsVersionFromString)).or <|
      entryProblem tls (ascii "maximum_version") none (namedProblem tlsVersionFromString)

/-- The first problem of the `authentication` section. -/
def authenticationProblem (auth : Yaml) : Option Problem :=
  (keysProblem authenticationKeys auth).or <|
    (entryProblem auth (ascii "type") none (namedProblem authenticationTypeFromString)).or <|
      entryProblem auth (ascii "require_client_certificate") none fun value =>
        conversionProblem (value.bool? lib)

/-- The first problem of the `fallback` section. -/
def fallbackProblem (fallback : Yaml) : Option Problem :=
  (keysProblem fallbackKeys fallback).or <|
    entryProblem fallback (ascii "allow_classical") none fun value =>
      conversionProblem (value.bool? lib)

/-- The first problem of a definition as it is written. -/
def definitionProblem (node : Yaml) : Option Problem :=
  (keysProblem profileKeys node).or <|
    (entryProblem node (ascii "id") (some .rejected) fun id => conversionProblem id.text?).or <|
    (entryProblem node (ascii "description") none fun value => conversionProblem value.text?).or <|
    (entryProblem node (ascii "tls") none tlsProblem).or <|
    (entryProblem node (ascii "groups") none listProblem).or <|
    (entryProblem node (ascii "cipher_suites") none listProblem).or <|
    (entryProblem node (ascii "authentication") none (authenticationProblem lib)).or <|
    (entryProblem node (ascii "fallback") none (fallbackProblem lib)).or <|
      entryProblem node (ascii "experimental") none fun value => conversionProblem (value.bool? lib)

/-- The definition as it is written. -/
def definitionOf (node : Yaml) : ProfileDefinition where
  id := ((node.get? (ascii "id")).bind Yaml.text?).getD []
  description := (inForce Yaml.text? [] (node.get? (ascii "description"))).getD []
  minimumVersion := .tls13
  maximumVersion := .tls13
  groups := (inForce Yaml.texts? [] (node.get? (ascii "groups"))).getD []
  cipherSuites := (inForce Yaml.texts? [] (node.get? (ascii "cipher_suites"))).getD []
  authentication := (inForce authenticationType? .ecdsaP256
    (firstIn node (ascii "authentication") (ascii "type"))).getD .ecdsaP256
  requireClientCertificate := (inForce (Yaml.bool? lib) false
    (firstIn node (ascii "authentication") (ascii "require_client_certificate"))).getD false
  allowClassicalFallback := (inForce (Yaml.bool? lib) false
    (firstIn node (ascii "fallback") (ascii "allow_classical"))).getD false
  experimental :=
    (inForce (Yaml.bool? lib) false (node.get? (ascii "experimental"))).getD false

/-- The problem of a definition that does not pass the checks of `create`. -/
def createProblem (d : ProfileDefinition) : Option Problem :=
  match SecurityProfile.create d with
  | .ok _ => none
  | .error _ => some .rejected

/-- The first problem of a profile. -/
def profileProblem (node : Yaml) : Option Problem :=
  (definitionProblem lib node).or (createProblem (definitionOf lib node))

/-- The first problem of a file of profiles. -/
def registryProblem (root : Yaml) : Option Problem :=
  (keysProblem [ascii "profiles", ascii "schema_version"] root).or <|
    entryProblem root (ascii "profiles") (some .rejected) fun profiles =>
      match profiles with
      | .sequence nodes => nodes.findSome? (profileProblem lib)
      | _ => some .rejected

variable {lib} {node : Yaml}

/-- The checks of `create` fail with errors of the configuration. -/
theorem failureAs_create (d : ProfileDefinition) :
    failureAs Thrown.problem (SecurityProfile.create d) = createProblem d := by
  unfold createProblem
  cases hcreate : SecurityProfile.create d with
  | ok p => rfl
  | error e =>
    obtain ⟨message, rfl⟩ := SecurityProfile.create_spec hcreate
    rfl

/-- Checking keys fails as described. -/
theorem failureAs_rejectUnknownKeys (known : List Bytes) (context : Bytes) :
    failureAs Thrown.problem (rejectUnknownKeys lib known context node) =
      keysProblem known node := by
  have hkey : ∀ key, failureAs Thrown.problem (rejectIfUnknown lib known context key) =
      namedProblem (fun text => if text ∈ known then some text else none) key := by
    intro key
    unfold rejectIfUnknown namedProblem Yaml.asString Yaml.convert
    cases key.text? with
    | none => rfl
    | some text =>
      simp only [uncaught, bind, Except.bind]
      split <;> rfl
  rw [rejectUnknownKeys, failureAs_forM, keysProblem]
  simp only [hkey]

/-- An optional entry fails as described. -/
theorem failureAs_ifPresent {α : Type} {key : Bytes} {fallback : α}
    {read : Yaml → Except Thrown α} {check : Yaml → Option Problem}
    (hread : ∀ value, failureAs Thrown.problem (read value) = check value) :
    failureAs Thrown.problem (ifPresent lib node key fallback read) =
      entryProblem node key none check :=
  failureAs_index rfl hread

/-- A list of texts fails as described. -/
theorem failureAs_readList (id field : Bytes) (value : Yaml) :
    failureAs Thrown.problem (readList lib id field value) = listProblem value := by
  cases value with
  | sequence items =>
    refine (failureAs_mapM _ _).trans ?_
    simp only [Yaml.asString, failureAs_convert]
    rfl
  | null => rfl
  | scalar text => rfl
  | map entries => rfl

/-- The `tls` section fails as described. -/
theorem failureAs_readTls (id : Bytes) (tls : Yaml) :
    failureAs Thrown.problem (readTls lib id tls) = tlsProblem tls :=
  failureAs_then (failureAs_rejectUnknownKeys _ _) fun _ =>
    failureAs_then (failureAs_ifPresent (failureAs_readNamed _ _)) fun _ =>
      (failureAs_bind_pure _ _).trans (failureAs_ifPresent (failureAs_readNamed _ _))

/-- The `authentication` section fails as described. -/
theorem failureAs_readAuthentication (id : Bytes) (auth : Yaml) :
    failureAs Thrown.problem (readAuthentication lib id auth) = authenticationProblem lib auth :=
  failureAs_then (failureAs_rejectUnknownKeys _ _) fun _ =>
    failureAs_then (failureAs_ifPresent (failureAs_readNamed _ _)) fun _ =>
      (failureAs_bind_pure _ _).trans (failureAs_ifPresent failureAs_asBool)

/-- The `fallback` section fails as described. -/
theorem failureAs_readFallback (id : Bytes) (fallback : Yaml) :
    failureAs Thrown.problem (readFallback lib id fallback) = fallbackProblem lib fallback :=
  failureAs_then (failureAs_rejectUnknownKeys _ _) fun _ => failureAs_ifPresent failureAs_asBool

/-- The identifier fails as described. -/
theorem failureAs_readId :
    failureAs Thrown.problem (readId lib node) =
      entryProblem node (ascii "id") (some .rejected) fun id => conversionProblem id.text? :=
  failureAs_index rfl failureAs_asString

/-- A definition fails as described. -/
theorem failureAs_readDefinition :
    failureAs Thrown.problem (readDefinition lib node) = definitionProblem lib node :=
  failureAs_then (failureAs_rejectUnknownKeys _ _) fun _ =>
    failureAs_then failureAs_readId fun id =>
    failureAs_then (failureAs_ifPresent failureAs_asString) fun _ =>
    failureAs_then (failureAs_ifPresent (failureAs_readTls id)) fun _ =>
    failureAs_then (failureAs_ifPresent (failureAs_readList id _)) fun _ =>
    failureAs_then (failureAs_ifPresent (failureAs_readList id _)) fun _ =>
    failureAs_then (failureAs_ifPresent (failureAs_readAuthentication id)) fun _ =>
    failureAs_then (failureAs_ifPresent (failureAs_readFallback id)) fun _ =>
      (failureAs_bind_pure _ _).trans (failureAs_ifPresent failureAs_asBool)

/-- What has been read is the definition as it is written. -/
theorem Reads.eq_definitionOf {d : ProfileDefinition} (h : Reads lib node d) :
    d = definitionOf lib node := by
  have hid : (node.get? (ascii "id")).bind Yaml.text? = some d.id := by
    obtain ⟨-, hid⟩ := of_index_bind_eq_ok h.id
    cases hget : node.get? (ascii "id") with
    | none =>
      rw [hget] at hid
      cases hid
    | some value =>
      rw [hget] at hid
      exact text?_of_asString hid
  have hdescription : inForce Yaml.text? [] (node.get? (ascii "description")) =
      some d.description :=
    inForce_of_ifPresent h.description fun _ => text?_of_asString
  have hgroups := inForce_of_ifPresent h.groups fun _ => texts?_of_readList
  have hsuites := inForce_of_ifPresent h.cipherSuites fun _ => texts?_of_readList
  have hexperimental := inForce_of_ifPresent h.experimental fun _ => bool?_of_asBool
  unfold definitionOf
  rw [hid, hdescription, hgroups, hsuites, h.type_inForce, h.requireClientCertificate_inForce,
    h.allowClassical_inForce, hexperimental]
  rfl

/-- A profile fails as its first problem. -/
theorem failureAs_parseProfileNode :
    failureAs Thrown.problem (parseProfileNode lib node) = profileProblem lib node := by
  refine (failureAs_bind fun d hd => ?_).trans (by rw [failureAs_readDefinition]; rfl)
  rw [failureAs_create, (reads_of_readDefinition hd).eq_definitionOf]

/-- A file of profiles fails as its first problem. -/
theorem failureAs_fromYamlFile (path : Bytes) (root : Yaml) :
    failureAs Thrown.problem (ProfileRegistry.fromYamlFile lib path (.ok root)) =
      registryProblem lib root := by
  have hbuiltin : failureAs Thrown.problem ProfileRegistry.builtin = none := rfl
  have hnodes : ∀ (nodes : List Yaml) (registry : ProfileRegistry),
      failureAs Thrown.problem (nodes.foldlM (fun registry node => do
        let profile ← parseProfileNode lib node
        return registry.addOrReplace profile) registry) =
      nodes.findSome? (profileProblem lib) := by
    intro nodes registry
    refine failureAs_foldlM (fun registry node => ?_) registry
    exact (failureAs_bind_pure _ _).trans failureAs_parseProfileNode
  refine (failureAs_then hbuiltin fun registry => ?_).trans Option.none_or
  refine (failureAs_bind fun document hdocument => ?_).trans Option.none_or
  cases hdocument
  refine failureAs_then (failureAs_rejectUnknownKeys _ _) fun _ => ?_
  refine failureAs_index rfl fun profiles => ?_
  cases profiles with
  | sequence nodes => exact hnodes nodes registry
  | null => rfl
  | scalar text => rfl
  | map entries => rfl

end ProfileFile

/-- The result is a return, or an error of the configuration, with which the process exits with
code 2. -/
def EndsAsConfiguration {α : Type} (x : Except Thrown α) : Prop :=
  ∀ e, x = .error e → e.category = .configuration ∧ e.exitCode.toNat = 2

/-- The end of a computation by its failure. -/
theorem endsAsConfiguration_iff {α : Type} {x : Except Thrown α} :
    EndsAsConfiguration x ↔ failureAs Thrown.problem x ≠ some .mismatch := by
  constructor
  · intro hends hmismatch
    cases x with
    | ok a => cases hmismatch
    | error e =>
      have hcategory := (hends e rfl).1
      simp [failureAs, Thrown.problem, hcategory] at hmismatch
  · rintro hfirst e rfl
    have hcategory : e.category = .configuration := by
      by_contra hother
      exact hfirst (by simp [failureAs, Thrown.problem, hother])
    refine ⟨hcategory, ?_⟩
    cases e with
    | error category message genuine =>
      cases hcategory
      rfl
    | exception what => cases hcategory

/-- Each of the three loaders returns or ends with an error of the configuration exactly when the
first problem of the document is not a mismatch. -/
theorem only_configuration_errors_iff (lib : YamlLibrary) (path : Bytes) (root : Yaml) :
    (EndsAsConfiguration (ProfileRegistry.fromYamlFile lib path (.ok root)) ↔
      ProfileFile.registryProblem lib root ≠ some .mismatch) ∧
    (∀ s, EndsAsConfiguration (loadClientYaml lib path (.ok root) s) ↔
      clientRole.problem lib root ≠ some .mismatch) ∧
    ∀ s, EndsAsConfiguration (loadServerYaml lib path (.ok root) s) ↔
      serverRole.problem lib root ≠ some .mismatch := by
  refine ⟨?_, fun s => ?_, fun s => ?_⟩
  · rw [endsAsConfiguration_iff, ProfileFile.failureAs_fromYamlFile]
  · rw [endsAsConfiguration_iff, loadClientYaml, ConfigRole.failureAs_loadYaml]
  · rw [endsAsConfiguration_iff, loadServerYaml, ConfigRole.failureAs_loadYaml]

/-- A port that is no number ends the process with code 70. -/
theorem port_not_a_number :
    ∃ e, loadServerYaml .plain (ascii "server.yaml")
        (.ok (.map [(.scalar (ascii "port"), .scalar (ascii "abc"))])) ⟨{}, [], []⟩ = .error e ∧
      e.exitCode.toNat = 70 ∧
      ¬EndsAsConfiguration (loadServerYaml .plain (ascii "server.yaml")
        (.ok (.map [(.scalar (ascii "port"), .scalar (ascii "abc"))])) ⟨{}, [], []⟩) := by
  refine ⟨_, rfl, rfl, fun h => ?_⟩
  exact absurd (h _ rfl).2 (by decide)

end PqtlsLab
