import PqtlsLab.Foundation.Statements
import PqtlsLab.Foundation.Yaml
import PqtlsLab.Policy.Config

/-!
# Loading a configuration file

A file has a part that is common to the two binaries and a part for each of them. Either part may
be a section of its own or stand at the top level, and the loader decides this for each part from
the presence of its section. An option is read from the part that it belongs to, where the first
entry of its name counts; keys without a meaning are reported as warnings. Each entry that has been
assigned is noted with its place in the document, as the numbers of the entries that lead to it.
-/

namespace PqtlsLab

/-- The exceptions of `YAML::LoadFile`. -/
inductive YamlFailure where
  | badFile (what : Bytes)
  | other (what : Bytes)

/-- `what()`. -/
def YamlFailure.what : YamlFailure → Bytes
  | badFile what => what
  | other what => what

/-- The content of a file, as `YAML::LoadFile` gives it. -/
abbrev YamlFile := Except YamlFailure Yaml

/-- An exception of the YAML library that nobody catches. -/
def uncaught {α : Type} : Except YamlException α → Except Thrown α
  | .ok a => .ok a
  | .error e => .error (.exception e.what)

/-- `load_yaml`. -/
def loadYaml (path : Bytes) : YamlFile → Except Thrown Yaml
  | .ok root => .ok root
  | .error (.badFile _) => .error (configurationError
      (ascii "configuration file '" ++ path ++ ascii "' could not be opened"))
  | .error (.other what) => .error (configurationError
      (ascii "configuration file '" ++ path ++ ascii "' is not valid YAML: " ++ what))

/-- `output_format_from_string`. -/
def outputFormatFromString (name : Bytes) : Option OutputFormat :=
  if name = ascii "human" then some .human
  else if name = ascii "json" then some .json
  else none

/-- A text that stands for one of several values. -/
def readNamed {α : Type} (lib : YamlLibrary) (parse : Bytes → Option α)
    (complaint : Bytes → Bytes) (node : Yaml) : Except Thrown α := do
  let raw ← uncaught (node.asString lib)
  match parse raw with
  | some value => .ok value
  | none => .error (configurationError (complaint raw))

/-- The kinds of values that options have. -/
inductive Kind where
  | string
  | bool
  | uint32
  | port
  | outputFormat
  deriving DecidableEq, Repr

namespace Kind

/-- The values of a kind. -/
abbrev Value : Kind → Type
  | string => Bytes
  | bool => Bool
  | uint32 => UInt32
  | port => UInt16
  | outputFormat => OutputFormat

/-- The value of an option from its node, with the checks of `parse_port` and of the output
format. -/
def read (lib : YamlLibrary) (key : Bytes) (node : Yaml) : (kind : Kind) → Except Thrown kind.Value
  | string => uncaught (node.asString lib)
  | bool => uncaught (node.asBool lib)
  | uint32 => uncaught (node.asUInt32 lib)
  | port => do
    let value ← uncaught (node.asInt lib)
    if value.toInt < 0 ∨ 65535 < value.toInt then
      .error (configurationError (ascii "'" ++ key ++ ascii "' must be in [0, 65535], got " ++
        decimalInt value.toInt))
    else .ok (UInt16.ofNat value.toInt.toNat)
  | outputFormat =>
    readNamed lib outputFormatFromString
      (fun raw => ascii "unknown output_format '" ++ raw ++ ascii "'; expected human or json") node

end Kind

/-- An option of a configuration: its key, and the field that its value is assigned to. -/
structure Setting (σ : Type) where
  key : Bytes
  kind : Kind
  get : σ → kind.Value
  assign : kind.Value → σ → σ

/-- What a loader works on: the configuration, the warnings so far, and the places of the entries
that have been assigned. -/
structure Loading (σ : Type) where
  config : σ
  warnings : List Bytes
  assigned : List (List ℕ)

/-- The place of the entry that is read for a key. -/
def Yaml.placeOf (node : Yaml) (place : List ℕ) (key : Bytes) : List (List ℕ) :=
  (node.position? key).toList.map fun i => place ++ [i]

/-- `assign_if_present`, `assign_string_if_present`, `parse_port` and the reading of the output
format. -/
def assignIfPresent {σ : Type} (lib : YamlLibrary) (place : List ℕ) (node : Yaml)
    (setting : Setting σ) : Except Thrown (Loading σ → Loading σ) := do
  match ← uncaught (node.index lib setting.key) with
  | none => return fun s => s
  | some entry =>
    let value ← setting.kind.read lib setting.key entry
    return fun s => { s with
      config := setting.assign value s.config
      assigned := s.assigned ++ node.placeOf place setting.key }

/-- `reject_unknown_keys` for one key. -/
def warnIfUnknown {σ : Type} (lib : YamlLibrary) (known : List Bytes) (context : Bytes)
    (key : Yaml) : Except Thrown (Loading σ → Loading σ) := do
  let text ← uncaught (key.asString lib)
  return fun s =>
    if text ∈ known then s
    else { s with warnings := s.warnings ++
      [ascii "unknown configuration key '" ++ text ++ ascii "' in " ++ context ++
        ascii " was ignored"] }

/-- `reject_unknown_keys`. -/
def rejectUnknownKeys {σ : Type} (lib : YamlLibrary) (known : List Bytes) (context : Bytes)
    (node : Yaml) : List (Statement Thrown (Loading σ)) :=
  node.keys.map (warnIfUnknown lib known context)

/-- `root[name] ? root[name] : root`, with the place of the part. -/
def choosePart (lib : YamlLibrary) (root : Yaml) (name : Bytes) :
    Except Thrown (List ℕ × Yaml) := do
  match ← uncaught (root.index lib name) with
  | some part => return ((root.position? name).toList, part)
  | none => return ([], root)

/-- The name of the section for the common options. -/
def commonName : Bytes := ascii "common"

/-- The common options, in the order in which they are read. -/
def commonSettings : List (Setting CommonConfig) :=
  [⟨ascii "profile", .string, CommonConfig.profileId, fun v c => { c with profileId := v }⟩,
    ⟨ascii "profiles_file", .string, CommonConfig.profilesFile,
      fun v c => { c with profilesFile := v }⟩,
    ⟨ascii "certificate", .string, CommonConfig.certificateFile,
      fun v c => { c with certificateFile := v }⟩,
    ⟨ascii "private_key", .string, CommonConfig.privateKeyFile,
      fun v c => { c with privateKeyFile := v }⟩,
    ⟨ascii "ca_certificate", .string, CommonConfig.caCertificateFile,
      fun v c => { c with caCertificateFile := v }⟩,
    ⟨ascii "metrics", .string, CommonConfig.metricsFile, fun v c => { c with metricsFile := v }⟩,
    ⟨ascii "experiment_id", .string, CommonConfig.experimentId,
      fun v c => { c with experimentId := v }⟩,
    ⟨ascii "log_level", .string, CommonConfig.logLevel, fun v c => { c with logLevel := v }⟩,
    ⟨ascii "keylog_file", .string, CommonConfig.keylogFile, fun v c => { c with keylogFile := v }⟩,
    ⟨ascii "max_frame_size", .uint32, CommonConfig.maxFrameSize,
      fun v c => { c with maxFrameSize := v }⟩,
    ⟨ascii "handshake_timeout_ms", .uint32, CommonConfig.handshakeTimeoutMs,
      fun v c => { c with handshakeTimeoutMs := v }⟩,
    ⟨ascii "io_timeout_ms", .uint32, CommonConfig.ioTimeoutMs,
      fun v c => { c with ioTimeoutMs := v }⟩,
    ⟨ascii "insecure_development_mode", .bool, CommonConfig.insecureDevelopmentMode,
      fun v c => { c with insecureDevelopmentMode := v }⟩,
    ⟨ascii "output_format", .outputFormat, CommonConfig.outputFormat,
      fun v c => { c with outputFormat := v }⟩]

/-- The keys that `load_common_yaml` knows: its own, those of the two other parts in the flat form
of the file, and the names of the sections. -/
def commonKnown : List Bytes :=
  [ascii "profile", ascii "profiles_file", ascii "certificate", ascii "private_key",
    ascii "ca_certificate", ascii "metrics", ascii "experiment_id", ascii "max_frame_size",
    ascii "handshake_timeout_ms", ascii "io_timeout_ms", ascii "output_format",
    ascii "log_level", ascii "insecure_development_mode", ascii "keylog_file",
    ascii "host", ascii "port", ascii "server_name", ascii "message", ascii "message_file",
    ascii "connections", ascii "concurrency", ascii "warmup_connections",
    ascii "reuse_session", ascii "messages_per_connection", ascii "benchmark_output",
    ascii "listen", ascii "listen_address", ascii "max_connections", ascii "backlog",
    ascii "idle_timeout_ms", ascii "max_messages_per_connection",
    ascii "require_client_certificate", ascii "client", ascii "server", ascii "common"]

/-- `ConfigLoader::load_common_yaml`. -/
def loadCommonYaml (lib : YamlLibrary) (path : Bytes) (file : YamlFile)
    (s : Loading CommonConfig) : Except Thrown (Loading CommonConfig) := do
  let root ← loadYaml path file
  let (place, node) ← choosePart lib root commonName
  Statement.run (rejectUnknownKeys lib commonKnown (ascii "'" ++ path ++ ascii "'") node ++
    commonSettings.map (assignIfPresent lib place node)) s

/-- The part of a configuration file that belongs to one of the binaries. -/
structure ConfigRole (σ : Type) where
  name : Bytes
  /-- Its options, in the order in which they are read. -/
  settings : List (Setting σ)
  /-- The keys that are known in its section. -/
  known : List Bytes
  /-- The pairs of options, in the order in which they are read, that stand for one field. -/
  synonyms : List (Bytes × Bytes)
  common : σ → CommonConfig
  setCommon : CommonConfig → σ → σ

/-- The check of the keys in the section of a binary, if there is one. -/
def ConfigRole.checkSection {σ : Type} (role : ConfigRole σ) (lib : YamlLibrary) (path : Bytes)
    (root : Yaml) (s : Loading σ) : Except Thrown (Loading σ) := do
  match ← uncaught (root.index lib role.name) with
  | none => return s
  | some part =>
    Statement.run (rejectUnknownKeys lib role.known
      (ascii "the '" ++ role.name ++ ascii "' section of '" ++ path ++ ascii "'") part) s

/-- `ConfigLoader::load_client_yaml` and `ConfigLoader::load_server_yaml`. -/
def ConfigRole.loadYaml {σ : Type} (role : ConfigRole σ) (lib : YamlLibrary) (path : Bytes)
    (file : YamlFile) (s : Loading σ) : Except Thrown (Loading σ) := do
  let common ← loadCommonYaml lib path file ⟨role.common s.config, s.warnings, s.assigned⟩
  let root ← PqtlsLab.loadYaml path file
  let (place, node) ← choosePart lib root role.name
  let s ← Statement.run (role.settings.map (assignIfPresent lib place node))
    ⟨role.setCommon common.config s.config, common.warnings, common.assigned⟩
  role.checkSection lib path root s

/-- The part for the client. -/
def clientRole : ConfigRole ClientConfig where
  name := ascii "client"
  settings := [
    ⟨ascii "host", .string, ClientConfig.host, fun v c => { c with host := v }⟩,
    ⟨ascii "server_name", .string, ClientConfig.serverName, fun v c => { c with serverName := v }⟩,
    ⟨ascii "message", .string, ClientConfig.message, fun v c => { c with message := v }⟩,
    ⟨ascii "message_file", .string, ClientConfig.messageFile,
      fun v c => { c with messageFile := v }⟩,
    ⟨ascii "benchmark_output", .string, ClientConfig.benchmarkOutput,
      fun v c => { c with benchmarkOutput := v }⟩,
    ⟨ascii "port", .port, ClientConfig.port, fun v c => { c with port := v }⟩,
    ⟨ascii "connections", .uint32, ClientConfig.connections,
      fun v c => { c with connections := v }⟩,
    ⟨ascii "concurrency", .uint32, ClientConfig.concurrency,
      fun v c => { c with concurrency := v }⟩,
    ⟨ascii "warmup_connections", .uint32, ClientConfig.warmupConnections,
      fun v c => { c with warmupConnections := v }⟩,
    ⟨ascii "reuse_session", .bool, ClientConfig.reuseSession,
      fun v c => { c with reuseSession := v }⟩,
    ⟨ascii "messages_per_connection", .uint32, ClientConfig.messagesPerConnection,
      fun v c => { c with messagesPerConnection := v }⟩]
  known := [ascii "host", ascii "port", ascii "server_name", ascii "message",
    ascii "message_file", ascii "connections", ascii "concurrency",
    ascii "warmup_connections", ascii "reuse_session", ascii "messages_per_connection",
    ascii "benchmark_output"]
  synonyms := []
  common := ClientConfig.common
  setCommon common c := { c with common := common }

/-- The part for the server. -/
def serverRole : ConfigRole ServerConfig where
  name := ascii "server"
  settings := [
    ⟨ascii "listen", .string, ServerConfig.listenAddress, fun v c => { c with listenAddress := v }⟩,
    ⟨ascii "listen_address", .string, ServerConfig.listenAddress,
      fun v c => { c with listenAddress := v }⟩,
    ⟨ascii "port", .port, ServerConfig.port, fun v c => { c with port := v }⟩,
    ⟨ascii "max_connections", .uint32, ServerConfig.maxConnections,
      fun v c => { c with maxConnections := v }⟩,
    ⟨ascii "backlog", .uint32, ServerConfig.backlog, fun v c => { c with backlog := v }⟩,
    ⟨ascii "idle_timeout_ms", .uint32, ServerConfig.idleTimeoutMs,
      fun v c => { c with idleTimeoutMs := v }⟩,
    ⟨ascii "max_messages_per_connection", .uint32, ServerConfig.maxMessagesPerConnection,
      fun v c => { c with maxMessagesPerConnection := v }⟩,
    ⟨ascii "require_client_certificate", .bool, ServerConfig.requireClientCertificate,
      fun v c => { c with requireClientCertificate := v }⟩]
  known := [ascii "listen", ascii "listen_address", ascii "port", ascii "max_connections",
    ascii "backlog", ascii "idle_timeout_ms", ascii "max_messages_per_connection",
    ascii "require_client_certificate"]
  synonyms := [(ascii "listen", ascii "listen_address")]
  common := ServerConfig.common
  setCommon common c := { c with common := common }

/-- `ConfigLoader::load_client_yaml`. -/
def loadClientYaml (lib : YamlLibrary) (path : Bytes) (file : YamlFile)
    (s : Loading ClientConfig) : Except Thrown (Loading ClientConfig) :=
  clientRole.loadYaml lib path file s

/-- `ConfigLoader::load_server_yaml`. -/
def loadServerYaml (lib : YamlLibrary) (path : Bytes) (file : YamlFile)
    (s : Loading ServerConfig) : Except Thrown (Loading ServerConfig) :=
  serverRole.loadYaml lib path file s

/-- Only a return of the library is a return. -/
@[simp] theorem uncaught_eq_ok_iff {α : Type} {x : Except YamlException α} {a : α} :
    uncaught x = .ok a ↔ x = .ok a := by
  cases x <;> simp [uncaught]

section Spec

variable {σ : Type} {lib : YamlLibrary} {place : List ℕ} {node root : Yaml}
  {known : List Bytes} {context name : Bytes}

/-- What is looked up in a node and then goes on has found the first entry, in a node that is no
scalar. -/
theorem of_index_bind_eq_ok {β : Type} {key : Bytes} {f : Option Yaml → Except Thrown β} {b : β}
    (h : (uncaught (node.index lib key) >>= f) = .ok b) :
    node.isScalar = false ∧ f (node.get? key) = .ok b := by
  obtain ⟨found, hindex, h⟩ := bind_eq_ok_iff.mp h
  obtain ⟨hscalar, rfl⟩ := Yaml.index_eq_ok_iff.mp (uncaught_eq_ok_iff.mp hindex)
  exact ⟨hscalar, h⟩

/-- A text that has been read is that of the node. -/
theorem text?_of_asString {text : Bytes} (h : uncaught (node.asString lib) = .ok text) :
    node.text? = some text :=
  Yaml.convert_eq_ok_iff.mp (uncaught_eq_ok_iff.mp h)

/-- An option without an entry changes nothing, and one with an entry assigns the value that is read
from it and notes its place. -/
theorem cases_of_assignIfPresent {setting : Setting σ} {f : Loading σ → Loading σ}
    (h : assignIfPresent lib place node setting = .ok f) :
    (node.get? setting.key = none ∧ f = fun s => s) ∨
      ∃ entry value, node.get? setting.key = some entry ∧
        setting.kind.read lib setting.key entry = .ok value ∧
        f = fun s => { s with
          config := setting.assign value s.config
          assigned := s.assigned ++ node.placeOf place setting.key } := by
  obtain ⟨-, h⟩ := of_index_bind_eq_ok h
  cases hget : node.get? setting.key with
  | none =>
    rw [hget] at h
    cases h
    exact .inl ⟨rfl, rfl⟩
  | some entry =>
    rw [hget] at h
    obtain ⟨value, hread, h⟩ := bind_eq_ok_iff.mp h
    cases h
    exact .inr ⟨entry, value, rfl, hread, rfl⟩

/-- Reading an option notes the entry that it is read from. -/
theorem assigned_of_assignIfPresent {setting : Setting σ} {f : Loading σ → Loading σ}
    (h : assignIfPresent lib place node setting = .ok f) (s : Loading σ) :
    (f s).warnings = s.warnings ∧
      (f s).assigned = s.assigned ++ node.placeOf place setting.key := by
  rcases cases_of_assignIfPresent h with ⟨hget, rfl⟩ | ⟨entry, value, -, -, rfl⟩
  · have hnone : node.position? setting.key = none := Yaml.position?_eq_none_iff.mpr hget
    simp [Yaml.placeOf, hnone]
  · exact ⟨rfl, rfl⟩

/-- Reading options notes the entries that they are read from. -/
theorem run_assignIfPresent {settings : List (Setting σ)} {s s' : Loading σ}
    (h : Statement.run (settings.map (assignIfPresent lib place node)) s = .ok s') :
    s'.warnings = s.warnings ∧
      s'.assigned = s.assigned ++ settings.flatMap fun setting =>
        node.placeOf place setting.key := by
  induction settings generalizing s with
  | nil =>
    cases h
    simp
  | cons setting settings ih =>
    obtain ⟨f, hf, h⟩ := Statement.run_cons_eq_ok_iff.mp h
    obtain ⟨hwarnings, hassigned⟩ := assigned_of_assignIfPresent hf s
    obtain ⟨hwarnings', hassigned'⟩ := ih h
    rw [List.flatMap_cons, ← List.append_assoc, ← hassigned, ← hwarnings]
    exact ⟨hwarnings', hassigned'⟩

/-- A field can be assigned. -/
def Setting.Lawful (setting : Setting σ) : Prop := ∀ v c, setting.get (setting.assign v c) = v

/-- Assigning the second field leaves the first as it is. -/
def Setting.Independent (left right : Setting σ) : Prop :=
  ∀ v c, left.get (right.assign v c) = left.get c

/-- The two options assign a text to the same field. -/
def Setting.SameField (left right : Setting σ) : Prop :=
  ∃ (key key' : Bytes) (get : σ → Bytes) (assign : Bytes → σ → σ),
    left = ⟨key, .string, get, assign⟩ ∧ right = ⟨key', .string, get, assign⟩

/-- The field of an option has the value that is read from the entry. -/
def Setting.InForce (lib : YamlLibrary) (setting : Setting σ) (entry : Yaml) (c : σ) : Prop :=
  setting.kind.read lib setting.key entry = .ok (setting.get c)

/-- What a node has for the second option leaves in force what it has for the first. -/
def Setting.Spared (lib : YamlLibrary) (node : Yaml) (left right : Setting σ) : Prop :=
  ∀ x y v, node.get? left.key = some x → node.get? right.key = some y →
    right.kind.read lib right.key y = .ok v → ∀ c, left.InForce lib x c →
      left.InForce lib x (right.assign v c)

/-- Options for different fields spare each other. -/
theorem Setting.Independent.spared {left right : Setting σ} (h : left.Independent right) :
    left.Spared lib node right := by
  intro x y v _ _ _ c hforce
  rw [Setting.InForce, h]
  exact hforce

/-- A text is in force when the field has it. -/
theorem inForce_string_iff {key : Bytes} {get : σ → Bytes} {assign : Bytes → σ → σ} {entry : Yaml}
    {c : σ} :
    (Setting.mk key .string get assign).InForce lib entry c ↔ entry.text? = some (get c) := by
  rw [Setting.InForce, Kind.read, uncaught_eq_ok_iff, Yaml.asString, Yaml.convert_eq_ok_iff]

/-- Two options for the same field spare each other if their entries have the same text. -/
theorem Setting.SameField.spared {left right : Setting σ} (h : left.SameField right)
    (hlawful : right.Lawful)
    (hsame : ∀ x y, node.get? left.key = some x → node.get? right.key = some y →
      x.text? = y.text?) : left.Spared lib node right := by
  obtain ⟨key, key', get, assign, rfl, rfl⟩ := h
  intro x y v hx hy hread c _
  rw [inForce_string_iff, hsame x y hx hy]
  exact (text?_of_asString hread).trans (congrArg some (hlawful v c).symm)

/-- Two options for the same field that are both in force have the same text. -/
theorem Setting.SameField.text?_eq {left right : Setting σ} (h : left.SameField right)
    {x y : Yaml} {c : σ} (hleft : left.InForce lib x c) (hright : right.InForce lib y c) :
    x.text? = y.text? := by
  obtain ⟨key, key', get, assign, rfl, rfl⟩ := h
  rw [inForce_string_iff] at hleft hright
  rw [hleft, hright]

/-- What no entry disturbs stays as it is. -/
theorem invariant_of_run {P : σ → Prop} {settings : List (Setting σ)} {s s' : Loading σ}
    (hkept : ∀ setting ∈ settings, ∀ y v, node.get? setting.key = some y →
      setting.kind.read lib setting.key y = .ok v → ∀ c, P c → P (setting.assign v c))
    (h : Statement.run (settings.map (assignIfPresent lib place node)) s = .ok s')
    (hs : P s.config) : P s'.config := by
  induction settings generalizing s with
  | nil =>
    cases h
    exact hs
  | cons setting settings ih =>
    obtain ⟨f, hf, hrest⟩ := Statement.run_cons_eq_ok_iff.mp h
    refine ih (fun a ha => hkept a (List.mem_cons_of_mem _ ha)) hrest ?_
    rcases cases_of_assignIfPresent hf with ⟨-, rfl⟩ | ⟨entry, value, hget, hread, rfl⟩
    · exact hs
    · exact hkept setting List.mem_cons_self entry value hget hread s.config hs

/-- After the options have been read, the first entry of each is in force, if the later ones spare
it. -/
theorem inForce_of_run {settings : List (Setting σ)} {s s' : Loading σ}
    (hlawful : ∀ setting ∈ settings, setting.Lawful)
    (hspared : settings.Pairwise (Setting.Spared lib node))
    (h : Statement.run (settings.map (assignIfPresent lib place node)) s = .ok s') :
    ∀ setting ∈ settings, ∀ x, node.get? setting.key = some x →
      setting.InForce lib x s'.config := by
  induction settings generalizing s with
  | nil => simp
  | cons first settings ih =>
    obtain ⟨f, hf, hrest⟩ := Statement.run_cons_eq_ok_iff.mp h
    obtain ⟨hfirst, hothers⟩ := List.pairwise_cons.mp hspared
    rw [List.forall_mem_cons] at hlawful ⊢
    refine ⟨fun x hx => ?_, ih hlawful.2 hothers hrest⟩
    refine invariant_of_run (fun right hright y v => hfirst right hright x y v hx) hrest ?_
    rcases cases_of_assignIfPresent hf with ⟨hnone, -⟩ | ⟨entry, value, hget, hread, rfl⟩
    · rw [hnone] at hx
      cases hx
    · rw [hget] at hx
      cases hx
      rw [Setting.InForce, hread]
      exact congrArg Except.ok (hlawful.1 value s.config).symm

/-- The text of the key is one of the known ones. -/
def Yaml.KnownAs (known : List Bytes) (key : Yaml) : Prop := ∃ text ∈ known, key.text? = some text

/-- A key that causes no warning is known. -/
theorem knownAs_of_warnIfUnknown {key : Yaml} {f : Loading σ → Loading σ}
    (h : warnIfUnknown lib known context key = .ok f) (s : Loading σ) :
    (f s).config = s.config ∧ (f s).assigned = s.assigned ∧
      ((f s).warnings = [] → s.warnings = [] ∧ key.KnownAs known) := by
  obtain ⟨text, htext, h⟩ := bind_eq_ok_iff.mp h
  cases h
  by_cases hknown : text ∈ known
  · simp only [if_pos hknown]
    exact ⟨trivial, trivial, fun hwarnings => ⟨hwarnings, text, hknown, text?_of_asString htext⟩⟩
  · simp [hknown]

/-- Keys that cause no warning are known. -/
theorem run_warnIfUnknown {keys : List Yaml} {s s' : Loading σ}
    (h : Statement.run (keys.map (warnIfUnknown lib known context)) s = .ok s') :
    s'.config = s.config ∧ s'.assigned = s.assigned ∧
      (s'.warnings = [] → s.warnings = [] ∧ ∀ key ∈ keys, key.KnownAs known) := by
  induction keys generalizing s with
  | nil =>
    cases h
    simp
  | cons key keys ih =>
    obtain ⟨f, hf, h⟩ := Statement.run_cons_eq_ok_iff.mp h
    obtain ⟨hconfig, hassigned, hwarnings⟩ := ih h
    obtain ⟨hconfig', hassigned', hwarnings'⟩ := knownAs_of_warnIfUnknown hf s
    refine ⟨hconfig.trans hconfig', hassigned.trans hassigned', fun hnone => ?_⟩
    obtain ⟨hrest, hkeys⟩ := hwarnings hnone
    obtain ⟨hstart, hkey⟩ := hwarnings' hrest
    exact ⟨hstart, List.forall_mem_cons.mpr ⟨hkey, hkeys⟩⟩

/-- The place of the part that is read for a section. -/
def Yaml.partPlace (root : Yaml) (name : Bytes) : List ℕ := (root.position? name).toList

/-- The part that is read for a section: the first section of the name, or the whole document. -/
def Yaml.part (root : Yaml) (name : Bytes) : Yaml := (root.get? name).getD root

/-- The loader chooses the section, or the whole document if there is none. -/
theorem chosen_of_choosePart {chosen : List ℕ × Yaml}
    (h : choosePart lib root name = .ok chosen) :
    root.isScalar = false ∧ chosen = (root.partPlace name, root.part name) := by
  obtain ⟨hscalar, h⟩ := of_index_bind_eq_ok h
  refine ⟨hscalar, ?_⟩
  cases hget : root.get? name with
  | none =>
    rw [hget] at h
    cases h
    simp [Yaml.partPlace, Yaml.part, hget, Yaml.position?_eq_none_iff.mpr hget]
  | some part =>
    rw [hget] at h
    cases h
    simp [Yaml.partPlace, Yaml.part, hget]

/-- The places of the entries that are read for some options. -/
def Yaml.placesOf (root : Yaml) (name : Bytes) (settings : List (Setting σ)) : List (List ℕ) :=
  settings.flatMap fun setting => (root.part name).placeOf (root.partPlace name) setting.key

/-- What loading the common part consists of. -/
theorem stages_of_loadCommonYaml {path : Bytes} {s s' : Loading CommonConfig}
    (h : loadCommonYaml lib path (.ok root) s = .ok s') :
    ∃ s₁, Statement.run (rejectUnknownKeys lib commonKnown (ascii "'" ++ path ++ ascii "'")
        (root.part commonName)) s = .ok s₁ ∧
      Statement.run (commonSettings.map (assignIfPresent lib (root.partPlace commonName)
        (root.part commonName))) s₁ = .ok s' := by
  obtain ⟨_, hroot, h⟩ := bind_eq_ok_iff.mp h
  cases hroot
  obtain ⟨chosen, hchosen, h⟩ := bind_eq_ok_iff.mp h
  obtain ⟨-, rfl⟩ := chosen_of_choosePart hchosen
  exact Statement.run_append_eq_ok_iff.mp h

/-- What loading a file consists of: the common part, the binary's own options, and the check of
its section. -/
theorem ConfigRole.stages_of_loadYaml {role : ConfigRole σ} {path : Bytes} {s s' : Loading σ}
    (h : role.loadYaml lib path (.ok root) s = .ok s') :
    ∃ common s₁, loadCommonYaml lib path (.ok root) ⟨role.common s.config, s.warnings, s.assigned⟩ =
        .ok common ∧
      Statement.run (role.settings.map (assignIfPresent lib (root.partPlace role.name)
        (root.part role.name))) ⟨role.setCommon common.config s.config, common.warnings,
          common.assigned⟩ = .ok s₁ ∧
      role.checkSection lib path root s₁ = .ok s' := by
  obtain ⟨common, hcommon, h⟩ := bind_eq_ok_iff.mp h
  obtain ⟨_, hroot, h⟩ := bind_eq_ok_iff.mp h
  cases hroot
  obtain ⟨chosen, hchosen, h⟩ := bind_eq_ok_iff.mp h
  obtain ⟨-, rfl⟩ := chosen_of_choosePart hchosen
  obtain ⟨s₁, hsettings, h⟩ := bind_eq_ok_iff.mp h
  exact ⟨common, s₁, hcommon, hsettings, h⟩

/-- The check of the section changes only the warnings, and without warnings every key of the
section is known. -/
theorem ConfigRole.checkSection_spec {role : ConfigRole σ} {path : Bytes} {s s' : Loading σ}
    (h : role.checkSection lib path root s = .ok s') :
    s'.config = s.config ∧ s'.assigned = s.assigned ∧
      (s'.warnings = [] → s.warnings = [] ∧
        ∀ part, root.get? role.name = some part → ∀ key ∈ part.keys, key.KnownAs role.known) := by
  obtain ⟨-, h⟩ := of_index_bind_eq_ok h
  cases hget : root.get? role.name with
  | none =>
    rw [hget] at h
    cases h
    exact ⟨rfl, rfl, fun hnone => ⟨hnone, fun part hpart => by cases hpart⟩⟩
  | some part =>
    rw [hget] at h
    obtain ⟨hconfig, hassigned, hwarnings⟩ := run_warnIfUnknown h
    refine ⟨hconfig, hassigned, fun hnone => ?_⟩
    obtain ⟨hstart, hpart⟩ := hwarnings hnone
    exact ⟨hstart, fun part' hpart' => by cases hpart'; exact hpart⟩

/-- Loading the common part notes the entries of its options, and without warnings every key of the
part is known. -/
theorem loadCommonYaml_spec {path : Bytes} {s s' : Loading CommonConfig}
    (h : loadCommonYaml lib path (.ok root) s = .ok s') :
    s'.assigned = s.assigned ++ root.placesOf commonName commonSettings ∧
      (s'.warnings = [] → s.warnings = [] ∧
        ∀ key ∈ (root.part commonName).keys, key.KnownAs commonKnown) := by
  obtain ⟨s₁, hkeys, hsettings⟩ := stages_of_loadCommonYaml h
  obtain ⟨-, hassigned, hwarnings⟩ := run_warnIfUnknown hkeys
  obtain ⟨hwarnings', hassigned'⟩ := run_assignIfPresent hsettings
  rw [hassigned', hassigned, hwarnings']
  exact ⟨rfl, hwarnings⟩

/-- Loading notes the entries of the common options and those of the binary's own, and without
warnings every key of the common part and of the binary's section is known. -/
theorem ConfigRole.loadYaml_spec {role : ConfigRole σ} {path : Bytes} {s s' : Loading σ}
    (h : role.loadYaml lib path (.ok root) s = .ok s') :
    s'.assigned = s.assigned ++ root.placesOf commonName commonSettings ++
        root.placesOf role.name role.settings ∧
      (s'.warnings = [] → s.warnings = [] ∧
        (∀ key ∈ (root.part commonName).keys, key.KnownAs commonKnown) ∧
        ∀ part, root.get? role.name = some part → ∀ key ∈ part.keys, key.KnownAs role.known) := by
  obtain ⟨common, s₁, hcommon, hsettings, hsection⟩ := role.stages_of_loadYaml h
  obtain ⟨hassigned, hwarnings⟩ := loadCommonYaml_spec hcommon
  obtain ⟨hwarnings₁, hassigned₁⟩ := run_assignIfPresent hsettings
  obtain ⟨-, hassigned₂, hwarnings₂⟩ := role.checkSection_spec hsection
  rw [hassigned₂, hassigned₁, hassigned]
  refine ⟨rfl, fun hnone => ?_⟩
  obtain ⟨hnone₁, hpart⟩ := hwarnings₂ hnone
  obtain ⟨hstart, hkeys⟩ := hwarnings (hwarnings₁.symm.trans hnone₁)
  exact ⟨hstart, hkeys, hpart⟩

/-- Different options stand for different fields, apart from the synonyms, and an option of the
binary's own leaves the common configuration as it is. -/
structure ConfigRole.Lawful (role : ConfigRole σ) : Prop where
  lawful : ∀ setting ∈ role.settings, setting.Lawful
  independent : role.settings.Pairwise fun left right => left.Independent right ∨
    left.SameField right ∧ (left.key, right.key) ∈ role.synonyms
  synonyms : ∀ pair ∈ role.synonyms, ∃ left ∈ role.settings, ∃ right ∈ role.settings,
    pair = (left.key, right.key) ∧ left.SameField right
  common_setCommon : ∀ common c, role.common (role.setCommon common c) = common
  common_assign : ∀ setting ∈ role.settings, ∀ v c,
    role.common (setting.assign v c) = role.common c

/-- The common options stand for different fields. -/
theorem commonSettings_independent : (∀ setting ∈ commonSettings, setting.Lawful) ∧
    commonSettings.Pairwise Setting.Independent := by
  constructor
  · simp only [commonSettings, List.forall_mem_cons, List.not_mem_nil, false_imp_iff,
      implies_true, and_true]
    repeat' apply And.intro
    all_goals exact fun _ _ => rfl
  · simp only [commonSettings, List.pairwise_cons, List.forall_mem_cons, List.not_mem_nil,
      false_imp_iff, implies_true, and_true, List.Pairwise.nil]
    repeat' apply And.intro
    all_goals exact fun _ _ => rfl

/-- After a file has been loaded, the entries that are read for the common options are in force, and
also those for the binary's own if the synonyms among them have the same texts. -/
theorem ConfigRole.Lawful.inForce {role : ConfigRole σ} (hrole : role.Lawful) {path : Bytes}
    {s s' : Loading σ} (h : role.loadYaml lib path (.ok root) s = .ok s') :
    (∀ setting ∈ commonSettings, ∀ x, (root.part commonName).get? setting.key = some x →
      setting.InForce lib x (role.common s'.config)) ∧
    ((∀ pair ∈ role.synonyms, ∀ x y, (root.part role.name).get? pair.1 = some x →
        (root.part role.name).get? pair.2 = some y → x.text? = y.text?) →
      ∀ setting ∈ role.settings, ∀ x, (root.part role.name).get? setting.key = some x →
        setting.InForce lib x s'.config) := by
  obtain ⟨common, s₁, hcommon, hsettings, hsection⟩ := role.stages_of_loadYaml h
  obtain ⟨s₂, -, hcommonSettings⟩ := stages_of_loadCommonYaml hcommon
  rw [(role.checkSection_spec hsection).1]
  constructor
  · have hkept : role.common s₁.config = common.config := by
      refine invariant_of_run (P := fun c => role.common c = common.config) ?_ hsettings
        (hrole.common_setCommon _ _)
      intro setting hsetting y v _ _ c hc
      rw [hrole.common_assign setting hsetting, hc]
    rw [hkept]
    obtain ⟨hlawful, hindependent⟩ := commonSettings_independent
    exact inForce_of_run hlawful (hindependent.imp Setting.Independent.spared) hcommonSettings
  · intro hsame
    refine inForce_of_run hrole.lawful ?_ hsettings
    refine hrole.independent.imp_of_mem fun {left right} _ hright hpair => ?_
    rcases hpair with hindependent | ⟨hfield, hsynonym⟩
    · exact hindependent.spared
    · exact hfield.spared (hrole.lawful right hright) (hsame _ hsynonym)

end Spec

end PqtlsLab
