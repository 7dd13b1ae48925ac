import PqtlsLab.Connection.TlsContext
import PqtlsLab.Experiment.RunBenchmarks
import PqtlsLab.Policy.BuildConfig
import PqtlsLab.Policy.ProfileFile

/-!
# What the two binaries have in common

`main` parses the command line, answers the requests for help and for the version, rejects options
that the binary does not declare, sets the level of the log and calls the command. An exception
that leaves a command becomes an exit code. The texts that are only printed are left out, but not
that a JSON text which cannot be written ends a command with an exception.
-/

namespace PqtlsLab

/-- What becomes of the attempt to open a file for appending. -/
inductive AppendTarget where
  /-- `create_directories` fails, with this message. -/
  | noDirectory (message : Bytes)
  /-- The file cannot be opened. -/
  | refused
  /-- The file is open; it has these lines. -/
  | opened (lines : List Bytes)

/-- What the commands find on the host. -/
structure CommandHost where
  lib : JsonLibrary
  config : ConfigHost
  /-- `PQTLS_ENV` is `production`. -/
  production : Bool
  ssl : OpenSsl
  append : Bytes → AppendTarget

/-- `MetricsWriter::MetricsWriter`. -/
def MetricsWriter.create (append : Bytes → AppendTarget) (path : Bytes) :
    Except Thrown MetricsWriter :=
  if path.isEmpty then .ok ⟨false, [], []⟩
  else
    match append path with
    | .noDirectory message => .error (configurationError
        (ascii "cannot create the directory for the metrics file '" ++ path ++ ascii "': " ++
          message))
    | .refused => .error (configurationError
        (ascii "cannot open the metrics file '" ++ path ++ ascii "' for appending"))
    | .opened lines => .ok ⟨true, [], lines⟩

namespace CommandLine

/-- `configure_logging`, as far as it can fail. -/
def configureLogging (level : Bytes) : Except Thrown Unit :=
  if level ∈ [ascii "trace", ascii "debug", ascii "info", ascii "warn", ascii "error",
      ascii "off"] then .ok ()
  else .error (configurationError (ascii "unknown log level '" ++ level ++
    ascii "'; expected trace, debug, info, warn, error or off"))

/-- The answer to a command line before any command is called. -/
inductive Prelude where
  /-- Help or the version has been printed. -/
  | answered (code : ExitCode)
  /-- The command is called. -/
  | command (args : Arguments)

/-- `main`, up to the choice of the command. -/
def Binary.begin (binary : Binary) (argv : List Bytes) : Except Thrown Prelude := do
  let args ← parse binary.kFlags argv
  if args.has (ascii "help") || args.command == ascii "help" || args.command.isEmpty then
    return .answered (if args.command.isEmpty && !args.has (ascii "help") then
      .configurationError else .success)
  if args.has (ascii "version") then return .answered .success
  rejectUnknownOptions binary.kAcceptedOptions args
  configureLogging ((args.value (ascii "log-level")).getD (ascii "info"))
  return .command args

/-- The exit code of what a command returns or throws. -/
def exitCodeOf : Except Thrown ExitCode → ExitCode
  | .ok code => code
  | .error e => e.exitCode

/-- `main`, with the choice of the command. There is no exit code while the command has not
ended. -/
def Binary.mainWith (binary : Binary)
    (command : Arguments → Option (Except Thrown ExitCode)) (argv : List Bytes) :
    Option ExitCode :=
  match binary.begin argv with
  | .error e => some e.exitCode
  | .ok (.answered code) => some code
  | .ok (.command args) => (command args).map exitCodeOf

end CommandLine

namespace CommandHost

open CommandLine

/-- `load_registry`. -/
def loadRegistry (host : CommandHost) (profilesFile : Bytes) : Except Thrown ProfileRegistry :=
  if profilesFile.isEmpty then ProfileRegistry.builtin
  else ProfileRegistry.fromYamlFile host.config.yaml profilesFile (host.config.files profilesFile)

/-- A JSON text on the standard output. -/
def print (host : CommandHost) (j : Json) : Except Thrown Unit :=
  match host.lib.dump j with
  | .ok _ => .ok ()
  | .error e => .error e.toThrown

/-- `command_capabilities`. -/
def commandCapabilities (host : CommandHost) (args : Arguments) : Except Thrown ExitCode := do
  let registry ← host.loadRegistry ((args.value (ascii "profiles-file")).getD [])
  let capabilities ← Capabilities.detect host.ssl registry
  if args.has (ascii "json") then host.print capabilities.toJson
  return .success

end CommandHost

namespace CommandLine

end CommandLine

end PqtlsLab
