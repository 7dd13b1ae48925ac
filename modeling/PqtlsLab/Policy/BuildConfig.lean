import PqtlsLab.Policy.CommandLine
import PqtlsLab.Policy.ConfigFile

/-!
# The configuration in force

`build_config` starts from the defaults, loads the configuration file if the command line names
one, and then lets every option of the command line overwrite what it stands for. A number has to
fit into the type of its field. Which options have been given, and with which values, is decided by
the parser of the command line, for which the last value of an option counts.
-/

namespace PqtlsLab

/-- `value`. -/
def Arguments.value (args : Arguments) (name : Bytes) : Option Bytes := args.options.lookup name

namespace CommandLine

/-- The kinds of fields that an option of the command line can overwrite. -/
inductive ArgumentKind where
  | string
  | bool
  | uint16
  | uint32
  deriving DecidableEq, Repr

/-- The values of a kind. -/
abbrev ArgumentKind.Value : ArgumentKind → Type
  | string => Bytes
  | bool => Bool
  | uint16 => UInt16
  | uint32 => UInt32

/-- The bytes are digits. -/
def isDigit (b : UInt8) : Bool := 0x30 ≤ b && b ≤ 0x39

/-- `std::from_chars` for a number of 64 bits: the number and what follows its digits. -/
def fromChars (text : Bytes) : Option (ℕ × Bytes) :=
  let digits := text.takeWhile isDigit
  let value := digits.foldl (fun n b => 10 * n + (b.toNat - 0x30)) 0
  if digits.isEmpty || UInt64.size ≤ value then none else some (value, text.dropWhile isDigit)

/-- `apply_integer`, for a type with this maximum. -/
def integerArgument (name value : Bytes) (max : ℕ) : Except Thrown ℕ :=
  match fromChars value with
  | some (parsed, []) =>
    if max < parsed then
      .error (configurationError (ascii "--" ++ name ++ ascii " value " ++ value ++
        ascii " is out of range"))
    else .ok parsed
  | _ => .error (configurationError (ascii "--" ++ name ++
      ascii " expects a non-negative integer, got '" ++ value ++ ascii "'"))

/-- What `apply_string`, `apply_bool` and `apply_integer` make of a value. -/
def readArgument (name value : Bytes) : (kind : ArgumentKind) → Except Thrown kind.Value
  | .string => .ok value
  | .bool =>
    if value = ascii "true" ∨ value = ascii "1" ∨ value = [] then .ok true
    else if value = ascii "false" ∨ value = ascii "0" then .ok false
    else .error (configurationError (ascii "--" ++ name ++
      ascii " expects true or false, got '" ++ value ++ ascii "'"))
  | .uint16 => (integerArgument name value (UInt16.size - 1)).map UInt16.ofNat
  | .uint32 => (integerArgument name value (UInt32.size - 1)).map UInt32.ofNat

/-- An option of the command line and the field that it stands for. -/
structure CliOption (σ : Type) where
  name : Bytes
  kind : ArgumentKind
  get : σ → kind.Value
  set : kind.Value → σ → σ

/-- `apply_string`, `apply_bool` and `apply_integer`. -/
def applyOption {σ : Type} (args : Arguments) (option : CliOption σ) : Statement Thrown σ :=
  match args.value option.name with
  | none => .ok id
  | some value => (readArgument option.name value option.kind).map option.set

end CommandLine

/-- What `build_config` finds on the host: the library that reads configuration files, and the
files. -/
structure ConfigHost where
  yaml : YamlLibrary
  files : Bytes → YamlFile

open CommandLine

/-- The options of the client, in the order of `build_config`. -/
def ClientConfig.cliOptions : List (CliOption ClientConfig) :=
  [⟨ascii "host", .string, ClientConfig.host, fun v c => { c with host := v }⟩,
    ⟨ascii "port", .uint16, ClientConfig.port, fun v c => { c with port := v }⟩,
    ⟨ascii "server-name", .string, ClientConfig.serverName, fun v c => { c with serverName := v }⟩,
    ⟨ascii "profile", .string, fun c => c.common.profileId,
      fun v c => { c with common := { c.common with profileId := v } }⟩,
    ⟨ascii "profiles-file", .string, fun c => c.common.profilesFile,
      fun v c => { c with common := { c.common with profilesFile := v } }⟩,
    ⟨ascii "ca-certificate", .string, fun c => c.common.caCertificateFile,
      fun v c => { c with common := { c.common with caCertificateFile := v } }⟩,
    ⟨ascii "certificate", .string, fun c => c.common.certificateFile,
      fun v c => { c with common := { c.common with certificateFile := v } }⟩,
    ⟨ascii "private-key", .string, fun c => c.common.privateKeyFile,
      fun v c => { c with common := { c.common with privateKeyFile := v } }⟩,
    ⟨ascii "message", .string, ClientConfig.message, fun v c => { c with message := v }⟩,
    ⟨ascii "message-file", .string, ClientConfig.messageFile,
      fun v c => { c with messageFile := v }⟩,
    ⟨ascii "metrics", .string, fun c => c.common.metricsFile,
      fun v c => { c with common := { c.common with metricsFile := v } }⟩,
    ⟨ascii "experiment-id", .string, fun c => c.common.experimentId,
      fun v c => { c with common := { c.common with experimentId := v } }⟩,
    ⟨ascii "log-level", .string, fun c => c.common.logLevel,
      fun v c => { c with common := { c.common with logLevel := v } }⟩,
    ⟨ascii "keylog-file", .string, fun c => c.common.keylogFile,
      fun v c => { c with common := { c.common with keylogFile := v } }⟩,
    ⟨ascii "output", .string, ClientConfig.benchmarkOutput,
      fun v c => { c with benchmarkOutput := v }⟩,
    ⟨ascii "insecure-development-mode", .bool, fun c => c.common.insecureDevelopmentMode,
      fun v c => { c with common := { c.common with insecureDevelopmentMode := v } }⟩,
    ⟨ascii "reuse-session", .bool, ClientConfig.reuseSession,
      fun v c => { c with reuseSession := v }⟩,
    ⟨ascii "max-frame-size", .uint32, fun c => c.common.maxFrameSize,
      fun v c => { c with common := { c.common with maxFrameSize := v } }⟩,
    ⟨ascii "handshake-timeout", .uint32, fun c => c.common.handshakeTimeoutMs,
      fun v c => { c with common := { c.common with handshakeTimeoutMs := v } }⟩,
    ⟨ascii "io-timeout", .uint32, fun c => c.common.ioTimeoutMs,
      fun v c => { c with common := { c.common with ioTimeoutMs := v } }⟩,
    ⟨ascii "connections", .uint32, ClientConfig.connections,
      fun v c => { c with connections := v }⟩,
    ⟨ascii "concurrency", .uint32, ClientConfig.concurrency,
      fun v c => { c with concurrency := v }⟩,
    ⟨ascii "warmup", .uint32, ClientConfig.warmupConnections,
      fun v c => { c with warmupConnections := v }⟩,
    ⟨ascii "messages-per-connection", .uint32, ClientConfig.messagesPerConnection,
      fun v c => { c with messagesPerConnection := v }⟩]

/-- The options of the server, in the order of `build_config`. -/
def ServerConfig.cliOptions : List (CliOption ServerConfig) :=
  [⟨ascii "listen", .string, ServerConfig.listenAddress, fun v c => { c with listenAddress := v }⟩,
    ⟨ascii "port", .uint16, ServerConfig.port, fun v c => { c with port := v }⟩,
    ⟨ascii "profile", .string, fun c => c.common.profileId,
      fun v c => { c with common := { c.common with profileId := v } }⟩,
    ⟨ascii "profiles-file", .string, fun c => c.common.profilesFile,
      fun v c => { c with common := { c.common with profilesFile := v } }⟩,
    ⟨ascii "certificate", .string, fun c => c.common.certificateFile,
      fun v c => { c with common := { c.common with certificateFile := v } }⟩,
    ⟨ascii "private-key", .string, fun c => c.common.privateKeyFile,
      fun v c => { c with common := { c.common with privateKeyFile := v } }⟩,
    ⟨ascii "ca-certificate", .string, fun c => c.common.caCertificateFile,
      fun v c => { c with common := { c.common with caCertificateFile := v } }⟩,
    ⟨ascii "metrics", .string, fun c => c.common.metricsFile,
      fun v c => { c with common := { c.common with metricsFile := v } }⟩,
    ⟨ascii "experiment-id", .string, fun c => c.common.experimentId,
      fun v c => { c with common := { c.common with experimentId := v } }⟩,
    ⟨ascii "log-level", .string, fun c => c.common.logLevel,
      fun v c => { c with common := { c.common with logLevel := v } }⟩,
    ⟨ascii "keylog-file", .string, fun c => c.common.keylogFile,
      fun v c => { c with common := { c.common with keylogFile := v } }⟩,
    ⟨ascii "require-client-cert", .bool, ServerConfig.requireClientCertificate,
      fun v c => { c with requireClientCertificate := v }⟩,
    ⟨ascii "insecure-development-mode", .bool, fun c => c.common.insecureDevelopmentMode,
      fun v c => { c with common := { c.common with insecureDevelopmentMode := v } }⟩,
    ⟨ascii "max-connections", .uint32, ServerConfig.maxConnections,
      fun v c => { c with maxConnections := v }⟩,
    ⟨ascii "backlog", .uint32, ServerConfig.backlog, fun v c => { c with backlog := v }⟩,
    ⟨ascii "max-frame-size", .uint32, fun c => c.common.maxFrameSize,
      fun v c => { c with common := { c.common with maxFrameSize := v } }⟩,
    ⟨ascii "handshake-timeout", .uint32, fun c => c.common.handshakeTimeoutMs,
      fun v c => { c with common := { c.common with handshakeTimeoutMs := v } }⟩,
    ⟨ascii "io-timeout", .uint32, fun c => c.common.ioTimeoutMs,
      fun v c => { c with common := { c.common with ioTimeoutMs := v } }⟩,
    ⟨ascii "max-messages", .uint32, ServerConfig.maxMessagesPerConnection,
      fun v c => { c with maxMessagesPerConnection := v }⟩]

/-- The configuration before the options of the command line: the defaults, or what the file that
the command line names makes of them. -/
def ConfigRole.base {σ : Type} (role : ConfigRole σ) (defaults : σ) (host : ConfigHost)
    (args : Arguments) : Except Thrown σ :=
  match args.value (ascii "config") with
  | none => .ok defaults
  | some path =>
    (role.loadYaml host.yaml path (host.files path) ⟨defaults, [], []⟩).map Loading.config

/-- `config.common.output_format = format`. -/
def ClientConfig.withOutputFormat (c : ClientConfig) (format : OutputFormat) : ClientConfig :=
  { c with common := { c.common with outputFormat := format } }

/-- `config.common.metrics_file = path`. -/
def ClientConfig.withMetricsFile (c : ClientConfig) (path : Bytes) : ClientConfig :=
  { c with common := { c.common with metricsFile := path } }

/-- `config.common.output_format = format`. -/
def ServerConfig.withOutputFormat (c : ServerConfig) (format : OutputFormat) : ServerConfig :=
  { c with common := { c.common with outputFormat := format } }

/-- `build_config` of the client, without logging the warnings about the file. -/
def ClientConfig.build (host : ConfigHost) (args : Arguments) : Except Thrown ClientConfig := do
  let config ← clientRole.base {} host args
  let config ← Statement.run (cliOptions.map (applyOption args)) config
  let config := if args.has (ascii "json") then config.withOutputFormat .json else config
  -- `--output` is benchmark shorthand for the metrics destination.
  if !config.benchmarkOutput.isEmpty && config.common.metricsFile.isEmpty then
    return config.withMetricsFile config.benchmarkOutput
  else return config

/-- `build_config` of the server, without logging the warnings about the file. -/
def ServerConfig.build (host : ConfigHost) (args : Arguments) : Except Thrown ServerConfig := do
  let config ← serverRole.base {} host args
  let config ← Statement.run (cliOptions.map (applyOption args)) config
  return if args.has (ascii "json") then config.withOutputFormat .json else config

namespace CommandLine

/-- The value that a piece gives to an option. -/
def Piece.valueFor (name : Bytes) : Piece → Option Bytes
  | assigned n value | spaced n value => if n = name then some value else none
  | flag n => if n = name then some (ascii "true") else none
  | bare _ => none

/-- The last value that an option is given. -/
def lastValue (parts : List Piece) (name : Bytes) : Option Bytes :=
  parts.reverse.findSome? (Piece.valueFor name)

/-- Assigning an option changes the value of this option only. -/
theorem lookup_assignOption (name value n : Bytes) (options : List (Bytes × Bytes)) :
    (assignOption name value options).lookup n =
      if n = name then some value else options.lookup n := by
  fun_induction assignOption name value options with
  | case1 =>
    by_cases hn : n = name
    · simp [hn]
    · simp [hn, beq_false_of_ne hn]
  | case2 v rest =>
    by_cases hn : n = name
    · simp [hn]
    · simp [hn, List.lookup_cons, beq_false_of_ne hn]
  | case3 n' v rest hne hlt =>
    by_cases hn : n = name
    · simp [hn]
    · rw [if_neg hn, List.lookup_cons, beq_false_of_ne hn]
  | case4 n' v rest hne hlt ih =>
    rw [List.lookup_cons, ih, List.lookup_cons]
    by_cases hn : n = n'
    · subst hn
      simp [Ne.symm hne]
    · rw [beq_false_of_ne hn]

/-- After some pieces an option has the last value that they give to it. -/
theorem value_foldl (parts : List Piece) (args : Arguments) (name : Bytes) :
    (parts.foldl Piece.apply args).value name =
      (lastValue parts name).or (args.value name) := by
  induction parts using List.reverseRecOn with
  | nil => rfl
  | append_singleton parts part ih =>
    have happly : (Piece.apply (parts.foldl Piece.apply args) part).value name =
        (part.valueFor name).or ((parts.foldl Piece.apply args).value name) := by
      cases part with
      | bare word => rfl
      | assigned n value | spaced n value | flag n =>
        rw [Piece.apply, Arguments.value, assign, lookup_assignOption, Piece.valueFor]
        by_cases hn : n = name
        · simp [hn]
        · simp [hn, Ne.symm hn, Arguments.value]
    rw [List.foldl_append, List.foldl_cons, List.foldl_nil, happly, ih, lastValue, lastValue,
      List.reverse_append, List.reverse_singleton, List.singleton_append, List.findSome?_cons]
    cases part.valueFor name <;> rfl

/-- A field can be overwritten. -/
def CliOption.Lawful {σ : Type} (option : CliOption σ) : Prop :=
  ∀ v s, option.get (option.set v s) = v

/-- Overwriting one field leaves the other as it is. -/
def CliOption.Independent {σ : Type} (left right : CliOption σ) : Prop :=
  (∀ v s, left.get (right.set v s) = left.get s) ∧ ∀ v s, right.get (left.set v s) = right.get s

/-- The field of an option has the given value, or what it had before if none is given. -/
def CliOption.Chosen {σ : Type} (option : CliOption σ) (value : Option Bytes) (base s : σ) : Prop :=
  match value with
  | none => option.get s = option.get base
  | some value => readArgument option.name value option.kind = .ok (option.get s)

section Fields

variable {σ : Type} {args : Arguments} {s s' : σ}

/-- An option that is not given changes nothing, and one that is given sets its field. -/
theorem cases_of_applyOption {option : CliOption σ} {f : σ → σ}
    (h : applyOption args option = .ok f) :
    (args.value option.name = none ∧ f = id) ∨
      ∃ value v, args.value option.name = some value ∧
        readArgument option.name value option.kind = .ok v ∧ f = option.set v := by
  unfold applyOption at h
  split at h
  · rename_i hnone
    exact .inl ⟨hnone, (Except.ok.inj h).symm⟩
  · rename_i value hvalue
    cases hread : readArgument option.name value option.kind with
    | error e =>
      rw [hread] at h
      cases h
    | ok v =>
      rw [hread] at h
      exact .inr ⟨value, v, hvalue, hread, (Except.ok.inj h).symm⟩

/-- What none of the options sets stays as it is. -/
theorem get_of_run {α : Type} {g : σ → α} {options : List (CliOption σ)}
    (hkept : ∀ option ∈ options, ∀ v s, g (option.set v s) = g s)
    (h : Statement.run (options.map (applyOption args)) s = .ok s') : g s' = g s := by
  induction options generalizing s with
  | nil =>
    cases h
    rfl
  | cons option options ih =>
    obtain ⟨f, hf, hrest⟩ := Statement.run_cons_eq_ok_iff.mp h
    rw [ih (fun o ho => hkept o (List.mem_cons_of_mem _ ho)) hrest]
    rcases cases_of_applyOption hf with ⟨-, rfl⟩ | ⟨value, v, -, -, rfl⟩
    · rfl
    · exact hkept option List.mem_cons_self v s

/-- After the options of the command line every field has the value that it has been given, or what
it had before. -/
theorem chosen_of_run {options : List (CliOption σ)} (hlawful : ∀ option ∈ options, option.Lawful)
    (hindependent : options.Pairwise CliOption.Independent)
    (h : Statement.run (options.map (applyOption args)) s = .ok s') :
    ∀ option ∈ options, option.Chosen (args.value option.name) s s' := by
  induction options generalizing s with
  | nil => simp
  | cons first options ih =>
    obtain ⟨f, hf, hrest⟩ := Statement.run_cons_eq_ok_iff.mp h
    obtain ⟨hfirst, hothers⟩ := List.pairwise_cons.mp hindependent
    have hrun := ih (fun o ho => hlawful o (List.mem_cons_of_mem _ ho)) hothers hrest
    rw [List.forall_mem_cons]
    constructor
    · have hkept := get_of_run (fun o ho => (hfirst o ho).1) hrest
      unfold CliOption.Chosen
      rw [hkept]
      rcases cases_of_applyOption hf with ⟨hnone, rfl⟩ | ⟨value, v, hvalue, hread, rfl⟩
      · rw [hnone]
        rfl
      · simp only [hvalue, hread, hlawful first List.mem_cons_self v s]
    · intro option hoption
      have hsame : option.get (f s) = option.get s := by
        rcases cases_of_applyOption hf with ⟨-, rfl⟩ | ⟨value, v, -, -, rfl⟩
        · rfl
        · exact (hfirst option hoption).2 v s
      have hchosen := hrun option hoption
      unfold CliOption.Chosen at hchosen ⊢
      split
      · rename_i hnone
        rw [hnone] at hchosen
        exact hchosen.trans hsame
      · rename_i value hvalue
        rw [hvalue] at hchosen
        exact hchosen

end Fields

/-- The options of the client stand for different fields. -/
theorem independent_client :
    (∀ option ∈ ClientConfig.cliOptions, option.Lawful) ∧
      ClientConfig.cliOptions.Pairwise CliOption.Independent := by
  constructor
  · simp only [ClientConfig.cliOptions, List.forall_mem_cons, List.not_mem_nil, false_imp_iff,
      implies_true, and_true]
    repeat' apply And.intro
    all_goals exact fun _ _ => rfl
  · simp only [ClientConfig.cliOptions, List.pairwise_cons, List.forall_mem_cons, List.not_mem_nil,
      false_imp_iff, implies_true, and_true, List.Pairwise.nil]
    repeat' apply And.intro
    all_goals exact fun _ _ => rfl

/-- The options of the server stand for different fields. -/
theorem independent_server :
    (∀ option ∈ ServerConfig.cliOptions, option.Lawful) ∧
      ServerConfig.cliOptions.Pairwise CliOption.Independent := by
  constructor
  · simp only [ServerConfig.cliOptions, List.forall_mem_cons, List.not_mem_nil, false_imp_iff,
      implies_true, and_true]
    repeat' apply And.intro
    all_goals exact fun _ _ => rfl
  · simp only [ServerConfig.cliOptions, List.pairwise_cons, List.forall_mem_cons, List.not_mem_nil,
      false_imp_iff, implies_true, and_true, List.Pairwise.nil]
    repeat' apply And.intro
    all_goals exact fun _ _ => rfl

/-- An option has been given if it has a value. -/
theorem has_eq_isSome_value (args : Arguments) (name : Bytes) :
    args.has name = (args.value name).isSome := by
  unfold Arguments.has Arguments.value
  induction args.options with
  | nil => rfl
  | cons option options ih =>
    rw [List.any_cons, List.lookup_cons, ih]
    by_cases hname : name = option.1
    · simp [hname]
    · rw [beq_false_of_ne hname, beq_false_of_ne (Ne.symm hname)]
      rfl

/-- The values of the options after an accepted command line. -/
theorem Binary.Accepts.values {binary : Binary} {argv : List Bytes} {args : Arguments}
    (h : binary.Accepts argv args) : ∃ parts, pieces binary.kFlags (argv.drop 2) = .ok parts ∧
      ∀ name, args.value name = lastValue parts name := by
  obtain ⟨-, parts, hpieces, hargs⟩ := h.exists_pieces
  refine ⟨parts, hpieces, fun name => ?_⟩
  rw [hargs, value_foldl]
  exact Option.or_none

end CommandLine

/-- The output format does not belong to an option with a value, and the place of the metrics to one
only. -/
theorem ClientConfig.get_modified : ∀ option ∈ cliOptions,
    (∀ v c, (option.set v c).common.outputFormat = c.common.outputFormat) ∧
      ∀ (c : ClientConfig) (format : OutputFormat),
        option.get (c.withOutputFormat format) = option.get c ∧
          (option.name ≠ ascii "metrics" → ∀ path : Bytes,
            option.get (c.withMetricsFile path) = option.get c) := by
  simp [cliOptions, withOutputFormat, withMetricsFile]

/-- The output format does not belong to an option with a value. -/
theorem ServerConfig.get_modified : ∀ option ∈ cliOptions,
    (∀ v c, (option.set v c).common.outputFormat = c.common.outputFormat) ∧
      ∀ (c : ServerConfig) (format : OutputFormat),
        option.get (c.withOutputFormat format) = option.get c := by
  simp [cliOptions, withOutputFormat]

/-- What is chosen for a field is all that counts. -/
theorem CommandLine.CliOption.Chosen.congr {σ : Type} {option : CliOption σ}
    {value : Option Bytes} {base s s' : σ} (h : option.Chosen value base s)
    (hget : option.get s' = option.get s) : option.Chosen value base s' := by
  unfold Chosen at h ⊢
  rwa [hget]

/-- The fields of the configuration of a server. -/
theorem ServerConfig.chosen_of_build {host : ConfigHost} {args : Arguments} {config : ServerConfig}
    (h : build host args = .ok config) : ∃ base, serverRole.base {} host args = .ok base ∧
      (∀ option ∈ cliOptions, option.Chosen (args.value option.name) base config) ∧
      config.common.outputFormat =
        if args.has (ascii "json") then .json else base.common.outputFormat := by
  obtain ⟨base, hbase, h⟩ := bind_eq_ok_iff.mp h
  obtain ⟨c, hrun, h⟩ := bind_eq_ok_iff.mp h
  have hchosen := chosen_of_run independent_server.1 independent_server.2 hrun
  have hformat := get_of_run (g := fun c => c.common.outputFormat)
    (fun o ho => (get_modified o ho).1) hrun
  cases h
  refine ⟨base, hbase, fun option ho => (hchosen option ho).congr ?_, ?_⟩
  · split
    · exact (get_modified option ho).2 c .json
    · rfl
  · split
    · rfl
    · exact hformat

/-- The fields of the configuration of a client. -/
theorem ClientConfig.chosen_of_build {host : ConfigHost} {args : Arguments} {config : ClientConfig}
    (h : build host args = .ok config) : ∃ base, clientRole.base {} host args = .ok base ∧
      (∀ option ∈ cliOptions, option.name ≠ ascii "metrics" →
        option.Chosen (args.value option.name) base config) ∧
      config.common.outputFormat =
        (if args.has (ascii "json") then .json else base.common.outputFormat) ∧
      config.common.metricsFile =
        let metrics := (args.value (ascii "metrics")).getD base.common.metricsFile
        if metrics.isEmpty then config.benchmarkOutput else metrics := by
  obtain ⟨base, hbase, h⟩ := bind_eq_ok_iff.mp h
  obtain ⟨c, hrun, h⟩ := bind_eq_ok_iff.mp h
  have hchosen := chosen_of_run independent_client.1 independent_client.2 hrun
  have hformat := get_of_run (g := fun c => c.common.outputFormat)
    (fun o ho => (get_modified o ho).1) hrun
  have hmetrics : c.common.metricsFile =
      (args.value (ascii "metrics")).getD base.common.metricsFile := by
    have hoption := hchosen _ (List.mem_of_getElem? (i := 10) rfl)
    unfold CliOption.Chosen at hoption
    cases hvalue : args.value (ascii "metrics") with
    | none =>
      rw [hvalue] at hoption
      exact hoption
    | some value =>
      rw [hvalue] at hoption
      exact (Except.ok.inj hoption).symm
  -- The configuration before the shorthand is considered.
  generalize hformatted :
    (if args.has (ascii "json") = true then c.withOutputFormat .json else c) = c' at h
  have hget : ∀ option ∈ cliOptions, option.get c' = option.get c := by
    intro option ho
    rw [← hformatted]
    split
    · exact ((get_modified option ho).2 c .json).1
    · rfl
  have hfile : c'.common.metricsFile = c.common.metricsFile := by
    rw [← hformatted]
    split <;> rfl
  have hformat' : c'.common.outputFormat =
      if args.has (ascii "json") then .json else base.common.outputFormat := by
    rw [← hformatted]
    split
    · rfl
    · exact hformat
  refine ⟨base, hbase, ?_⟩
  rw [← hmetrics, ← hfile]
  dsimp only at h ⊢
  split at h
  · rename_i hshorthand
    cases h
    have hempty := (Bool.and_eq_true_iff.mp hshorthand).2
    refine ⟨fun option ho hname => (hchosen option ho).congr ?_, hformat', ?_⟩
    · rw [((get_modified option ho).2 c' .json).2 hname, hget option ho]
    · exact (if_pos hempty).symm
  · rename_i hshorthand
    cases h
    refine ⟨fun option ho hname => (hchosen option ho).congr (hget option ho), hformat', ?_⟩
    split
    · rename_i hempty
      simp only [hempty, Bool.and_true, Bool.not_eq_true', Bool.not_eq_false,
        List.isEmpty_iff] at hshorthand
      rw [hshorthand, List.isEmpty_iff.mp hempty]
    · rfl

/-- The configuration that a binary works with. Of the command line the last value of every option
counts; what is not given there is what the configuration file says, or else the default. The client
writes its metrics where `--output` says if no other place is given. -/
theorem effective_config (host : ConfigHost) (argv : List Bytes) (args : Arguments) :
    (Binary.client.Accepts argv args → ∀ config, ClientConfig.build host args = .ok config →
      ∃ parts base, pieces Binary.client.kFlags (argv.drop 2) = .ok parts ∧
        clientRole.base {} host args = .ok base ∧
        (∀ option ∈ ClientConfig.cliOptions, option.name ≠ ascii "metrics" →
          option.Chosen (lastValue parts option.name) base config) ∧
        config.common.outputFormat =
          (if (lastValue parts (ascii "json")).isSome then .json else base.common.outputFormat) ∧
        config.common.metricsFile =
          let metrics := (lastValue parts (ascii "metrics")).getD base.common.metricsFile
          if metrics.isEmpty then config.benchmarkOutput else metrics) ∧
    (Binary.server.Accepts argv args → ∀ config, ServerConfig.build host args = .ok config →
      ∃ parts base, pieces Binary.server.kFlags (argv.drop 2) = .ok parts ∧
        serverRole.base {} host args = .ok base ∧
        (∀ option ∈ ServerConfig.cliOptions,
          option.Chosen (lastValue parts option.name) base config) ∧
        config.common.outputFormat =
          if (lastValue parts (ascii "json")).isSome then .json else base.common.outputFormat) := by
  constructor
  · intro haccepts config hbuild
    obtain ⟨parts, hpieces, hvalues⟩ := haccepts.values
    obtain ⟨base, hbase, hchosen, hformat, hmetrics⟩ := ClientConfig.chosen_of_build hbuild
    simp only [has_eq_isSome_value, hvalues] at hchosen hformat hmetrics
    exact ⟨parts, base, hpieces, hbase, hchosen, hformat, hmetrics⟩
  · intro haccepts config hbuild
    obtain ⟨parts, hpieces, hvalues⟩ := haccepts.values
    obtain ⟨base, hbase, hchosen, hformat⟩ := ServerConfig.chosen_of_build hbuild
    simp only [has_eq_isSome_value, hvalues] at hchosen hformat
    exact ⟨parts, base, hpieces, hbase, hchosen, hformat⟩

/-- A command line that names two profiles. -/
def repeatedProfile : List Bytes :=
  [ascii "pqtls-client", ascii "connect", ascii "--profile", ascii "classical-x25519",
    ascii "--json", ascii "--profile=hybrid-x25519-mlkem768"]

/-- The second profile is the one in force. -/
theorem effective_config_repeated :
    ∃ args config, Binary.client.Accepts repeatedProfile args ∧
      ClientConfig.build ⟨.plain, fun _ => .error (.badFile [])⟩ args = .ok config ∧
      config.common.profileId = ascii "hybrid-x25519-mlkem768" ∧
      config.common.outputFormat = .json := by
  let args : Arguments :=
    { command := ascii "connect"
      options := [(ascii "json", ascii "true"),
        (ascii "profile", ascii "hybrid-x25519-mlkem768")] }
  have haccepts : Binary.client.Accepts repeatedProfile args :=
    ⟨by decide +kernel, by decide +kernel, by decide, by decide, by decide⟩
  let host : ConfigHost := ⟨.plain, fun _ => .error (.badFile [])⟩
  obtain ⟨config, hbuild⟩ : ∃ config, ClientConfig.build host args = .ok config := ⟨_, rfl⟩
  obtain ⟨parts, base, hpieces, hbase, hchosen, hformat, -⟩ :=
    (effective_config host repeatedProfile args).1 haccepts config hbuild
  have hparts : pieces Binary.client.kFlags (repeatedProfile.drop 2) =
      .ok [.spaced (ascii "profile") (ascii "classical-x25519"), .flag (ascii "json"),
        .assigned (ascii "profile") (ascii "hybrid-x25519-mlkem768")] := rfl
  obtain rfl := Except.ok.inj (hpieces.symm.trans hparts)
  have hprofile := hchosen _ (List.mem_of_getElem? (i := 3) rfl) (by decide)
  exact ⟨args, config, haccepts, hbuild, (Except.ok.inj hprofile).symm, hformat⟩

end PqtlsLab
