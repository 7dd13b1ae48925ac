import PqtlsLab.Foundation.Bytes
import PqtlsLab.Foundation.Fallible
import PqtlsLab.Foundation.PrefixCode
import PqtlsLab.Foundation.SuffixCode
import PqtlsLab.Foundation.Program
import PqtlsLab.Foundation.Machine
import PqtlsLab.Foundation.Handoff
import PqtlsLab.Foundation.Utf8
import PqtlsLab.Foundation.Utf8Scalars
import PqtlsLab.Foundation.Json
import PqtlsLab.Foundation.JsonTree
import PqtlsLab.Foundation.JsonWriter
import PqtlsLab.Foundation.Python
import PqtlsLab.Foundation.JsonReader
import PqtlsLab.Foundation.JsonReadBack
import PqtlsLab.Foundation.JsonBrackets
import PqtlsLab.Foundation.PythonText
import PqtlsLab.Foundation.JsonSchema
import PqtlsLab.Foundation.OrderStatistics
import PqtlsLab.Foundation.Dictionary
import PqtlsLab.Foundation.Statements
import PqtlsLab.Foundation.Yaml
import PqtlsLab.Error
import PqtlsLab.Protocol.Framing
import PqtlsLab.Protocol.FrameStream
import PqtlsLab.Protocol.DecoderRuns
import PqtlsLab.Protocol.DecoderMemory
import PqtlsLab.Protocol.Filling
import PqtlsLab.Protocol.Identifiers
import PqtlsLab.Protocol.JsonLibrary
import PqtlsLab.Protocol.Message
import PqtlsLab.Protocol.Utf8Check
import PqtlsLab.Protocol.Nesting
import PqtlsLab.Protocol.DepthVerdict
import PqtlsLab.Protocol.MessageText
import PqtlsLab.Protocol.MessageParse
import PqtlsLab.Protocol.MessageReject
import PqtlsLab.Protocol.VersionCheck
import PqtlsLab.Protocol.RoundTrip
import PqtlsLab.Protocol.MessageReadBack
import PqtlsLab.Policy.SecurityProfile
import PqtlsLab.Policy.GroupPolicy
import PqtlsLab.Policy.OfferedGroups
import PqtlsLab.Policy.ProfileRegistry
import PqtlsLab.Policy.Capabilities
import PqtlsLab.Policy.CapabilityReport
import PqtlsLab.Policy.Config
import PqtlsLab.Policy.ConfigFile
import PqtlsLab.Policy.ConfigCoverage
import PqtlsLab.Policy.ProfileFile
import PqtlsLab.Policy.FileErrors
import PqtlsLab.Policy.CommandLine
import PqtlsLab.Policy.Handshake
import PqtlsLab.Connection.TlsContext
import PqtlsLab.Connection.Transport
import PqtlsLab.Connection.WriteAll
import PqtlsLab.Connection.Metrics
import PqtlsLab.Connection.RecordText
import PqtlsLab.Client.Exchange
import PqtlsLab.Client.ExchangeRuns
import PqtlsLab.Client.ExchangeInvariant
import PqtlsLab.Client.Connection
import PqtlsLab.Client.Failures
import PqtlsLab.Client.Records
import PqtlsLab.Client.Benchmark
import PqtlsLab.Client.BenchmarkAccounting
import PqtlsLab.Client.WarmupRecords
import PqtlsLab.Client.SessionCache
import PqtlsLab.Client.BenchmarkMessage
import PqtlsLab.Server.Handler
import PqtlsLab.Server.Loop
import PqtlsLab.Server.LoopRuns
import PqtlsLab.Server.LoopInvariant
import PqtlsLab.Server.Connection
import PqtlsLab.Server.Failures
import PqtlsLab.Server.Replies
import PqtlsLab.Server.ReplyRoundTrip
import PqtlsLab.Server.Answers
import PqtlsLab.Server.Interpreter
import PqtlsLab.Server.Violations
import PqtlsLab.Server.Pool
import PqtlsLab.Server.PoolMoves
import PqtlsLab.Server.PoolHandoff
import PqtlsLab.Server.Service
import PqtlsLab.Server.StopRequests
import PqtlsLab.Server.Wakeups
import PqtlsLab.Connection.DowngradeSafety
import PqtlsLab.Connection.ObservedFlags
import PqtlsLab.Validator.ResultValidator
import PqtlsLab.Validator.SchemaCheck
import PqtlsLab.Validator.UnsupportedClaims
import PqtlsLab.Validator.RecordRead
import PqtlsLab.Validator.RecordsPass
import PqtlsLab.Analysis.Distribution
import PqtlsLab.Analysis.Percentiles
import PqtlsLab.Analysis.ConfidenceInterval
import PqtlsLab.Analysis.Summaries
import PqtlsLab.Analysis.DowngradeWarnings
import PqtlsLab.Experiment.RunBenchmarks
import PqtlsLab.Experiment.CapabilityGate
import PqtlsLab.Experiment.ScriptRuns
import PqtlsLab.Experiment.MatrixAccounting
import PqtlsLab.Experiment.ResultFiles
import PqtlsLab.Audit.Adapter
import PqtlsLab.Audit.CleanRejection
import PqtlsLab.Session.ReadMemory
import PqtlsLab.Session.WriteRounds
import PqtlsLab.Session.Composition
import PqtlsLab.Session.Agreement
import PqtlsLab.Session.Progress
import PqtlsLab.Session.Completion
import PqtlsLab.Connection.MetricsFile
import PqtlsLab.Connection.RecordLines
import PqtlsLab.Analysis.RecordFiles
import PqtlsLab.Analysis.BenchmarkFile
import PqtlsLab.Capture.PcapMetrics
import PqtlsLab.Policy.BuildConfig
import PqtlsLab.Client.BuildMessage
import PqtlsLab.Validator.MetricsSchema
import PqtlsLab.Validator.ResultFile
import PqtlsLab.Binaries.Commands
import PqtlsLab.Binaries.ClientMain
import PqtlsLab.Foundation.Binary64
import PqtlsLab.Foundation.FloatSum
import PqtlsLab.Analysis.FloatRange
