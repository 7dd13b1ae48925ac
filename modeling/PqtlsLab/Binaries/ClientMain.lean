import PqtlsLab.Analysis.BenchmarkFile
import PqtlsLab.Binaries.Commands
import PqtlsLab.Client.BuildMessage
import PqtlsLab.Connection.DowngradeSafety

/-!
# The client program

The commands of `pqtls-client`: `connect` prepares everything that can be checked beforehand, opens
one connection and exits with the code of its outcome; `benchmark` exits with 0 only if a measured
connection has succeeded. A script that looks at the exit code alone can rely on it: 0 says that the
profile of the command line was in force and was satisfied.
-/

namespace PqtlsLab

/-- `TlsContext::create_client`. -/
def createClient (ssl : OpenSsl) (production : Bool) (profile : SecurityProfile)
    (config : CommonConfig) : Except Thrown TlsContext := do
  orThrow ssl.initialized (internalError (ascii "OpenSSL initialisation failed"))
  firstViolation (insecureModeChecks production config)
  orThrow ssl.clientContext
    (internalError (ascii "SSL_CTX_new failed for the client context"))
  applyCommonPolicy ssl production profile config
  loadTrustStore ssl config
  loadCertificateMaterial ssl config false
  return {
    profile
    groups := cString profile.opensslGroupsList
    cipherSuites := cString profile.opensslCiphersuitesList
    verifyPeer := !config.insecureDevelopmentMode }

/-- `BenchmarkSummary::to_json`. The rate of success is the quotient of two numbers in binary64. -/
def BenchmarkSummary.toJson (rate : UInt32 → UInt32 → UInt64) (summary : BenchmarkSummary) : Json :=
  .object
    [(ascii "connection_ms_samples", .int summary.connectionMs.length),
      (ascii "failed", .int summary.failed.toNat),
      (ascii "failure_categories", .array (summary.failureCategories.map .string)),
      (ascii "handshake_ms_samples", .int summary.handshakeMs.length),
      (ascii "note", .string (ascii "Raw per-connection records are in the metrics file. Use " ++
        ascii "scripts/analyze-results.py for summary statistics.")),
      (ascii "profile", .string summary.profileId),
      (ascii "requested_connections", .int summary.requestedConnections.toNat),
      (ascii "success_rate", .float (if summary.requestedConnections = 0 then 0 else
        rate summary.successful summary.requestedConnections)),
      (ascii "successful", .int summary.successful.toNat)]

/-- What the client finds on the host and on the network. -/
structure ClientHost extends CommandHost where
  /-- The content of a file that can be opened. -/
  readFile : Bytes → Option Bytes
  /-- For the message that is built. -/
  label : Label
  /-- For what `Message::parse` adds to it. -/
  parseLabel : Label
  /-- What the network, OpenSSL and the clock do to the connection; its library, configuration,
  profile and messages are replaced by those of the command. -/
  connection : ClientAttempt
  /-- The steps of the workers of a benchmark. -/
  schedule : List (ℕ × BenchmarkInput)
  /-- The quotient of two numbers in binary64. -/
  rate : UInt32 → UInt32 → UInt64

/-- What `connect` has prepared when it opens the connection. -/
structure ConnectPlan where
  config : ClientConfig
  message : Message
  writer : MetricsWriter
  profile : SecurityProfile
  context : TlsContext

namespace ClientHost

open CommandLine

/-- What the message is built from. -/
def source (host : ClientHost) : MessageSource where
  lib := host.lib
  readFile := host.readFile
  label := host.label
  parseLabel := host.parseLabel

/-- `command_connect`, up to the construction of the client. -/
def prepareConnect (host : ClientHost) (args : Arguments) : Except Thrown ConnectPlan := do
  let config ← ClientConfig.build host.config args
  config.validate host.production
  let registry ← host.loadRegistry config.common.profilesFile
  let message ← host.source.buildMessage config
  let writer ← MetricsWriter.create host.append config.common.metricsFile
  let profile ← registry.get config.common.profileId
  let context ← createClient host.ssl host.production profile config.common
  return { config, message, writer, profile, context }

/-- The call of `run_once`, which is given the message as often as the configuration says. -/
def attempt (host : ClientHost) (plan : ConnectPlan) : ClientAttempt :=
  { host.connection with
    lib := host.lib
    config := plan.config
    profile := plan.context.profile
    messages := List.replicate plan.config.messagesPerConnection.toNat plan.message }

/-- `print_connection_result`, as far as it can fail. -/
def printConnectionResult (host : ClientHost) (config : ClientConfig) (result : ClientResult) :
    Except Thrown Unit :=
  match config.common.outputFormat with
  | .json => host.print (.object
      [(ascii "metrics", result.metrics.toJson.val),
        (ascii "responses", .array (result.responses.map fun r => r.toJson.val))])
  | _ => result.responses.forM fun response => host.print response.toJson.val

/-- `command_connect`. -/
def commandConnect (host : ClientHost) (args : Arguments) : Except Thrown ExitCode := do
  let plan ← host.prepareConnect args
  let result ← ((host.attempt plan).runOnce plan.writer).2
  host.printConnectionResult plan.config result
  return if result.ok then .success else exitCodeFor result.metrics.errorCategory

/-- The configuration of a benchmark asks for at least one connection. -/
def benchmarkConfig (config : ClientConfig) : ClientConfig :=
  if config.connections < 1 then { config with connections := 1 } else config

/-- `command_benchmark`, up to the call of `run_benchmark`. -/
def prepareBenchmark (host : ClientHost) (args : Arguments) :
    Except Thrown (ClientConfig × MetricsWriter) := do
  let config ← ClientConfig.build host.config args
  let config := benchmarkConfig config
  config.validate host.production
  if config.common.metricsFile.isEmpty then
    .error (configurationError (ascii "benchmark requires --output (or --metrics) so that raw " ++
      ascii "per-connection measurements are preserved. Summary statistics without the " ++
      ascii "underlying data are not reproducible."))
  let _ ← host.loadRegistry config.common.profilesFile
  let writer ← MetricsWriter.create host.append config.common.metricsFile
  return (config, writer)

/-- `run_benchmark`, which returns when all workers have. -/
def runBenchmark (host : ClientHost) (config : ClientConfig) (writer : MetricsWriter) :
    Option BenchmarkSummary :=
  match (Benchmark.machine host.lib config writer).run host.schedule with
  | none => none
  | some s => if Benchmark.Finished s then some s.shared.summary else none

/-- `command_benchmark`, from the return of `run_benchmark` on. -/
def reportBenchmark (host : ClientHost) (config : ClientConfig) (summary : BenchmarkSummary) :
    Except Thrown ExitCode := do
  if config.common.outputFormat = .json then host.print (summary.toJson host.rate)
  return if summary.successful = 0 then .handshakeError else .success

/-- `command_benchmark`. -/
def commandBenchmark (host : ClientHost) (args : Arguments) : Option (Except Thrown ExitCode) :=
  match host.prepareBenchmark args with
  | .error e => some (.error e)
  | .ok (config, writer) =>
    (host.runBenchmark config writer).map (host.reportBenchmark config)

/-- The choice of the command. -/
def command (host : ClientHost) (args : Arguments) : Option (Except Thrown ExitCode) :=
  if args.command = ascii "capabilities" then some (host.commandCapabilities args)
  else if args.command = ascii "connect" then some (host.commandConnect args)
  else if args.command = ascii "benchmark" then host.commandBenchmark args
  else some (.error (configurationError (ascii "unknown command '" ++ args.command ++
    ascii "'. Expected connect, benchmark or capabilities.")))

/-- `main`. -/
def main (host : ClientHost) (argv : List Bytes) : Option ExitCode :=
  Binary.client.mainWith host.command argv

end ClientHost

namespace ClientAttempt

variable {a : ClientAttempt}

end ClientAttempt

namespace ClientHost

open CommandLine

/-- A host on which everything works, with a peer that answers once. -/
def sample : ClientHost where
  lib := Message.minimalLibrary
  config := ⟨.plain, fun _ => .error (.badFile [])⟩
  production := true
  ssl := .complete
  append _ := .opened []
  readFile _ := none
  label := Label.sample
  parseLabel := Label.sample
  connection := ClientAttempt.sample Message.minimalLibrary SslView.sample [Chunk.pong]
  schedule := []
  rate _ _ := 0

end ClientHost

end PqtlsLab
