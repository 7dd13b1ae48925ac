import PqtlsLab.Client.BenchmarkMessage
import PqtlsLab.Foundation.Dictionary
import PqtlsLab.Foundation.Python
import PqtlsLab.Policy.Capabilities

/-!
# The benchmark runner

`run-benchmarks.py` asks the client what this host can do, lays out a matrix of cells from its
arguments, sets the cells aside whose profile is not usable, and runs the others one after another.
The files on the host, what the capabilities command prints, how a server and a client end and
which effects raise an exception are parameters. The metadata of the host, the wall-clock time and
the tail of the client's output are only copied into the manifest and are left out.
-/

namespace PqtlsLab

/-- An entry of the report that `Capabilities::to_json` writes for a profile. -/
def ProfileAvailability.toJson (a : ProfileAvailability) : Json :=
  .object
    [(ascii "id", .string a.profileId), (ascii "usable", .bool a.usable),
      (ascii "experimental", .bool a.experimental),
      (ascii "missing_groups", .array (a.missingGroups.map .string)),
      (ascii "missing_cipher_suites", .array (a.missingCipherSuites.map .string)),
      (ascii "blocking_reason",
        if a.blockingReason.isEmpty then .null else .string a.blockingReason)]

/-- `Capabilities::to_json`, with the members that the model knows. -/
def Capabilities.toJson (caps : Capabilities) : Json :=
  .object
    [(ascii "tls13_available", .bool caps.tls13Available),
      (ascii "tls_groups", .array (caps.tlsGroups.map .string)),
      (ascii "cipher_suites", .array (caps.cipherSuites.map .string)),
      (ascii "post_quantum", .object [(ascii "authentication",
        .object [(ascii "mldsa_available", .bool caps.mldsaAvailable)])]),
      (ascii "profiles", .array (caps.profiles.map ProfileAvailability.toJson))]

namespace Experiment

/-- `RunSpec`: one cell of the benchmark matrix. -/
structure RunSpec where
  profile : Bytes
  connections : ℤ
  concurrency : ℤ
  payloadBytes : ℤ
  reuseSession : Bool := false
  messagesPerConnection : ℤ := 1
  deriving DecidableEq

/-- `label`. -/
def RunSpec.label (spec : RunSpec) : Bytes :=
  spec.profile ++ ascii "-c" ++ decimalInt spec.connections ++ ascii "-p" ++
    decimalInt spec.concurrency ++ ascii "-b" ++ decimalInt spec.payloadBytes ++
    if spec.reuseSession then ascii "-resume" else []

/-- The status of a cell. -/
inductive Status where
  | completed
  | skipped
  | failed
  deriving DecidableEq

/-- `RunOutcome`. The reason for which a cell is skipped is copied from the report. -/
structure RunOutcome where
  spec : RunSpec
  status : Status
  reason : Json := .string []
  metricsFile : Bytes := []
  exitCode : Option ℤ := none

/-- The arguments of `run-benchmarks.py`. `argparse` takes no integer of more than 4300 digits. -/
structure Arguments where
  experimentId : Bytes
  host : Bytes
  port : ℤ
  serverName : Bytes
  certificate : Bytes
  privateKey : Bytes
  caCertificate : Bytes
  profiles : List Bytes
  connections : ℤ
  concurrency : List ℤ
  payloads : List ℤ
  messagesPerConnection : ℤ
  warmup : ℤ
  sessionResumption : Bool
  timeout : ℤ
  dryRun : Bool
  allowExperimental : Bool
  /-- Options with `nargs="+"` have at least one value. -/
  profiles_ne_nil : profiles ≠ []
  concurrency_ne_nil : concurrency ≠ []
  payloads_ne_nil : payloads ≠ []

/-- The arguments when none is given on the command line. -/
def Arguments.default : Arguments where
  experimentId := []
  host := ascii "127.0.0.1"
  port := 18443
  serverName := ascii "localhost"
  certificate := ascii "certs/classical/server.crt"
  privateKey := ascii "certs/classical/server.key"
  caCertificate := ascii "certs/classical/ca.crt"
  profiles := [ascii "classical-x25519", ascii "classical-p256", ascii "hybrid-x25519-mlkem768",
    ascii "hybrid-p256-mlkem768"]
  connections := 100
  concurrency := [1, 10, 50]
  payloads := [100, 1024]
  messagesPerConnection := 1
  warmup := 10
  sessionResumption := false
  timeout := 900
  dryRun := false
  allowExperimental := false
  profiles_ne_nil := List.cons_ne_nil _ _
  concurrency_ne_nil := List.cons_ne_nil _ _
  payloads_ne_nil := List.cons_ne_nil _ _

/-- How a server and a client that were started for a cell have ended. -/
inductive Launch where
  /-- The server did not start listening. -/
  | notListening
  /-- The client ended with this code; 124 stands for a timeout. -/
  | exited (code : ℤ)
  /-- An exception that `run_one` does not catch, as for a port that is out of range, a log file
  that cannot be opened or a program that cannot be executed. -/
  | raised (e : PythonError)

/-- How a command that `_run` has started has ended. -/
structure CommandResult where
  code : ℤ
  /-- The output, or the message of the `JSONDecodeError`. -/
  out : Except Bytes Json
  err : Bytes

/-- What the script does on its host besides starting programs. The turns of the cells are counted
from 1; the manifest is written for the first time in turn 0. -/
inductive Effect where
  | makeResultsDir
  | printHeader
  | printMatrix
  | printDryRun
  | collectMetadata
  | writeManifest (turn : ℕ)
  | printTurn (turn : ℕ)
  | writeMessage (turn : ℕ)
  | unlinkMessage (turn : ℕ)
  | printOutcome (turn : ℕ)
  | printSummary

/-- What the script finds on its host. -/
structure Host where
  /-- The paths of the two programs. -/
  clientBin : Bytes
  serverBin : Bytes
  pathExists : Bytes → Except PythonError Bool
  /-- The time, as it is written in an experiment id. -/
  timestamp : Bytes
  /-- The path of a file in the results directory. -/
  resultsFile : Bytes → Bytes
  /-- The capabilities command. -/
  capabilities : Except PythonError CommandResult
  /-- The exceptions of the effects. What is printed to `stderr` raises none. -/
  perform : Effect → Except PythonError Unit
  /-- In each turn, the length of the longest text that there is memory for. -/
  memory : ℕ → ℕ
  /-- What happens when, in this turn, a server and a client are started with these commands, with
  this text in the message file and this timeout for the client. -/
  launch : ℕ → Bytes → List Bytes → List Bytes → ℤ → Launch

/-- What ends the script early. -/
inductive Raised where
  | systemExit (message : Bytes)
  | builtin (e : BuiltinError)
  | exception (e : PythonError)

/-- `caps.get("profiles", [])`, as something to go through. The items of a text and of a `dict` are
texts, and the first `entry["id"]` fails on a text. -/
def profileEntries (caps : Json) : Except BuiltinError (List Json) :=
  match caps with
  | .object ms =>
    match (ms.lookup (ascii "profiles")).getD (.array []) with
    | .array entries => .ok entries
    | .string s => if s.isEmpty then .ok [] else .error (.typeError (ascii "str"))
    | .object fields => if fields.isEmpty then .ok [] else .error (.typeError (ascii "str"))
    | j => .error (.typeError j.typeName)
  | j => .error (.attributeError j.typeName (ascii "get"))

/-- The key and the value that `usable_profiles` takes from an entry. A key that is no text is never
asked for. -/
def entryAvailability (entry : Json) : Except BuiltinError (Option (Bytes × Bool × Json)) := do
  let id ← entry.subscript (ascii "id")
  let usable ← entry.subscript (ascii "usable")
  let reason ← Json.getAttr (ascii "blocking_reason") .null entry
  match id with
  | .string profile => .ok (some (profile, usable.truthy, reason.orElse (.string [])))
  | id => if id.hashable then .ok none else .error (.typeError id.typeName)

/-- The keys and values of the entries, one after another. -/
def entryAvailabilities : List Json → Except BuiltinError (List (Bytes × Bool × Json))
  | [] => .ok []
  | entry :: entries => do
    let first ← entryAvailability entry
    let rest ← entryAvailabilities entries
    return first.toList ++ rest

/-- `usable_profiles`. -/
def usableProfiles (host : Host) : Except Raised (Dictionary Bytes (Bool × Json)) :=
  match host.capabilities with
  | .error e => .error (.exception e)
  | .ok ⟨code, out, err⟩ =>
    if code ≠ 0 then
      .error (.systemExit (ascii "cannot determine capabilities: '" ++ host.clientBin ++
        ascii " capabilities' exited " ++ decimalInt code ++ ascii "\n" ++ err))
    else
      match out with
      | .error exc =>
        .error (.systemExit (ascii "capabilities output was not valid JSON: " ++ exc))
      | .ok caps =>
        match profileEntries caps >>= entryAvailabilities with
        | .error e => .error (.builtin e)
        | .ok pairs => .ok (Dictionary.ofList pairs)

/-- What the innermost loop of `build_matrix` appends. -/
def cellSpecs (args : Arguments) (profile : Bytes) (concurrency payload : ℤ) : List RunSpec :=
  if concurrency > args.connections then []
  else
    { profile
      connections := args.connections
      concurrency
      payloadBytes := payload
      messagesPerConnection := args.messagesPerConnection } ::
    if args.sessionResumption then
      [{ profile
         connections := args.connections
         concurrency
         payloadBytes := payload
         reuseSession := true
         messagesPerConnection := args.messagesPerConnection }]
    else []

/-- `build_matrix`. -/
def buildMatrix (args : Arguments) : List RunSpec :=
  args.profiles.flatMap fun profile =>
    args.concurrency.flatMap fun concurrency =>
      args.payloads.flatMap fun payload => cellSpecs args profile concurrency payload

/-- `availability.get(profile, (False, "profile is not defined"))`. -/
def availabilityOf (availability : Dictionary Bytes (Bool × Json)) (profile : Bytes) :
    Bool × Json :=
  (availability.get? profile).getD (false, .string (ascii "profile is not defined"))

/-- The loop of `main` that sets cells aside: the runnable cells, and the outcomes of the others. -/
def capabilityGate (availability : Dictionary Bytes (Bool × Json)) :
    List RunSpec → List RunSpec × List RunOutcome
  | [] => ([], [])
  | spec :: specs =>
    let rest := capabilityGate availability specs
    let found := availabilityOf availability spec.profile
    if found.1 then (spec :: rest.1, rest.2)
    else
      (rest.1,
        { spec
          status := .skipped
          reason := found.2.orElse (.string (ascii "the profile is not usable on this host")) } ::
        rest.2)

/-- `str(i)`, which raises a `ValueError` for an integer of more than 4300 digits. -/
def strInt (i : ℤ) : Except PythonError Bytes :=
  if 4300 < (decimal i.natAbs).length then .error .valueError else .ok (decimalInt i)

/-- The command line of the server of a cell. -/
def serverArgv (host : Host) (args : Arguments) (experimentId : Bytes) (spec : RunSpec)
    (maxConnections : Bytes) : List Bytes :=
  [host.serverBin, ascii "serve",
    ascii "--listen", args.host,
    ascii "--port", decimalInt args.port,
    ascii "--profile", spec.profile,
    ascii "--certificate", args.certificate,
    ascii "--private-key", args.privateKey,
    ascii "--metrics",
    host.resultsFile (experimentId ++ ascii "-" ++ spec.label ++ ascii "-server.jsonl"),
    ascii "--experiment-id", experimentId,
    ascii "--max-connections", maxConnections,
    ascii "--log-level", ascii "warn"]

/-- The file for the records of a cell. -/
def metricsFile (host : Host) (experimentId : Bytes) (spec : RunSpec) : Bytes :=
  host.resultsFile (experimentId ++ ascii "-" ++ spec.label ++ ascii ".jsonl")

/-- The command line of the client of a cell. -/
def clientArgv (host : Host) (args : Arguments) (experimentId : Bytes) (spec : RunSpec) :
    List Bytes :=
  [host.clientBin, ascii "benchmark",
    ascii "--host", args.host,
    ascii "--port", decimalInt args.port,
    ascii "--server-name", args.serverName,
    ascii "--profile", spec.profile,
    ascii "--ca-certificate", args.caCertificate,
    ascii "--connections", decimalInt spec.connections,
    ascii "--concurrency", decimalInt spec.concurrency,
    ascii "--warmup", decimalInt args.warmup,
    ascii "--messages-per-connection", decimalInt spec.messagesPerConnection,
    ascii "--message-file",
    host.resultsFile (ascii ".message-" ++ spec.label ++ ascii ".json"),
    ascii "--output", metricsFile host experimentId spec,
    ascii "--experiment-id", experimentId,
    ascii "--json"] ++
  if spec.reuseSession then [ascii "--reuse-session"] else []

/-- What `run_one` returns when the server and the client have ended. -/
def outcomeOf (host : Host) (args : Arguments) (experimentId : Bytes) (spec : RunSpec) :
    Launch → Except PythonError RunOutcome
  | .raised e => .error e
  | .notListening =>
    .ok {
      spec
      status := .failed
      reason := .string (ascii "the server did not start listening on " ++ args.host ++ ascii ":" ++
        decimalInt args.port ++ ascii ". See " ++
        host.resultsFile (experimentId ++ ascii "-" ++ spec.label ++ ascii "-server.log") ++
        ascii ".")
      metricsFile := metricsFile host experimentId spec }
  | .exited code =>
    if code ≠ 0 then
      .ok {
        spec
        status := .failed
        reason := .string (ascii "the client exited " ++ decimalInt code)
        metricsFile := metricsFile host experimentId spec
        exitCode := some code }
    else
      .ok {
        spec
        status := .completed
        metricsFile := metricsFile host experimentId spec
        exitCode := some 0 }

/-- `run_one`, in a given turn. -/
def runOne (host : Host) (args : Arguments) (experimentId : Bytes) (turn : ℕ) (spec : RunSpec) :
    Except PythonError RunOutcome := do
  let message ← buildPayloadMessage (host.memory turn) spec.payloadBytes
  host.perform (.writeMessage turn)
  let maxConnections ← strInt (max (spec.concurrency * 2) 16)
  let launch := host.launch turn message (serverArgv host args experimentId spec maxConnections)
    (clientArgv host args experimentId spec) args.timeout
  -- The `finally` clause, of which an exception replaces that of the `try`.
  host.perform (.unlinkMessage turn)
  outcomeOf host args experimentId spec launch

/-- The loop of `main` over the runnable cells. -/
def runAll (host : Host) (args : Arguments) (experimentId : Bytes) :
    ℕ → List RunSpec → Except PythonError (List RunOutcome)
  | _, [] => .ok []
  | turn, spec :: specs => do
    host.perform (.printTurn turn)
    let outcome ← runOne host args experimentId turn spec
    host.perform (.printOutcome turn)
    host.perform (.writeManifest turn)
    let outcomes ← runAll host args experimentId (turn + 1) specs
    return outcome :: outcomes

/-- How `main` returns. -/
inductive Result where
  /-- A file is missing. -/
  | missing (path : Bytes)
  /-- A dry run: the cells that were set aside, and those that would run. -/
  | dryRun (skipped : List RunOutcome) (wouldRun : List RunSpec)
  /-- No cell is runnable: all of them were set aside. -/
  | noneRunnable (skipped : List RunOutcome)
  /-- The cells were run. The outcomes are those in the manifest. -/
  | finished (outcomes : List RunOutcome)

/-- The exit code. -/
def Result.exitCode : Result → ℕ
  | .missing _ => 2
  | .dryRun _ _ => 0
  | .noneRunnable _ => 3
  | .finished outcomes =>
    if outcomes.countP (fun o => o.status = .completed) = 0 then 4 else 0

/-- The outcomes after a run that was not a dry one. -/
def Result.outcomes? : Result → Option (List RunOutcome)
  | .missing _ => none
  | .dryRun _ _ => none
  | .noneRunnable skipped => some skipped
  | .finished outcomes => some outcomes

/-- The first path of some that is not there. -/
def firstMissing (present : Bytes → Except PythonError Bool) :
    List Bytes → Except PythonError (Option Bytes)
  | [] => .ok none
  | path :: paths => do
    let found ← present path
    if found then firstMissing present paths else return some path

/-- A program is there, perhaps with the suffix `.exe`. -/
def hasProgram (host : Host) (binary : Bytes) : Except PythonError Bool := do
  let found ← host.pathExists binary
  if found then return true else host.pathExists (binary ++ ascii ".exe")

/-- The first file that `main` misses. -/
def missingFile (host : Host) (args : Arguments) : Except PythonError (Option Bytes) := do
  let binary ← firstMissing (hasProgram host) [host.clientBin, host.serverBin]
  match binary with
  | some binary => return some binary
  | none => firstMissing host.pathExists [args.certificate, args.privateKey, args.caCertificate]

/-- The id of the experiment. -/
def experimentIdOf (host : Host) (args : Arguments) : Bytes :=
  if args.experimentId.isEmpty then ascii "bench-" ++ host.timestamp else args.experimentId

/-- An effect whose exception ends the script. -/
def Host.act (host : Host) (effect : Effect) : Except Raised Unit :=
  (host.perform effect).mapError .exception

/-- `main`. -/
def main (host : Host) (args : Arguments) : Except Raised Result :=
  match missingFile host args with
  | .error e => .error (.exception e)
  | .ok (some path) => .ok (.missing path)
  | .ok none => do
    host.act .makeResultsDir
    host.act .printHeader
    let availability ← usableProfiles host
    let (runnable, skipped) := capabilityGate availability (buildMatrix args)
    host.act .printMatrix
    if args.dryRun then do
      host.act .printDryRun
      return .dryRun skipped runnable
    else if runnable.isEmpty then return .noneRunnable skipped
    else do
      host.act .collectMetadata
      host.act (.writeManifest 0)
      let ran ← (runAll host args (experimentIdOf host args) 1 runnable).mapError .exception
      host.act .printSummary
      return .finished (skipped ++ ran)

end Experiment

end PqtlsLab
