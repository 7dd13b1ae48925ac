import PqtlsLab.Protocol.Identifiers
import PqtlsLab.Protocol.JsonLibrary

/-!
# Connection records

Every connection ends in one record, which the writer appends to a file as one line
of JSON. Numbers of type `double` are carried by their bits. Serialising a record
throws if one of its texts is not UTF-8; nothing is appended then.
-/

namespace PqtlsLab

/-- `Role`. -/
inductive Role where
  | client
  | server
  deriving DecidableEq, Repr

/-- `to_string(Role)`. -/
def Role.toText : Role → Bytes
  | .client => ascii "client"
  | .server => ascii "server"

/-- `kMetricsSchemaVersion`. -/
def kMetricsSchemaVersion : Int32 := 1

/-- `ConnectionMetrics`, with the defaults of its declaration. -/
structure ConnectionMetrics where
  schemaVersion : Int32 := kMetricsSchemaVersion
  experimentId : Bytes := []
  connectionId : Bytes := []
  role : Role := .client
  requestedProfile : Bytes := []
  negotiatedProfile : Bytes := []
  tlsVersion : Bytes := []
  negotiatedGroup : Bytes := []
  cipherSuite : Bytes := []
  authentication : Bytes := []
  handshakeMs : UInt64 := 0
  connectionMs : UInt64 := 0
  applicationBytesSent : UInt64 := 0
  applicationBytesReceived : UInt64 := 0
  transportBytesSent : Option UInt64 := none
  transportBytesReceived : Option UInt64 := none
  sessionReused : Bool := false
  success : Bool := false
  errorCategory : ErrorCategory := .none
  errorMessage : Option Bytes := none
  peerAddress : Bytes := []
  protocolMessageCount : UInt32 := 0
  processCpuUserMs : Option UInt64 := none
  processCpuSystemMs : Option UInt64 := none
  peakMemoryKib : Option UInt64 := none
  timestamp : Bytes := []
  pqKeyEstablishment : Bool := false
  hybridKeyEstablishment : Bool := false
  pqAuthentication : Bool := false

/-- `ResourceUsage`. -/
structure ResourceUsage where
  cpuUserMs : Option UInt64
  cpuSystemMs : Option UInt64
  peakMemoryKib : Option UInt64

namespace ConnectionMetrics

/-- The members that `to_json` assigns, in the order of its assignments. -/
def fields (m : ConnectionMetrics) : List (Bytes × JsonValue) :=
  [(ascii "schema_version", .int m.schemaVersion),
    (ascii "experiment_id", .string m.experimentId),
    (ascii "connection_id", .string m.connectionId),
    (ascii "role", .string m.role.toText),
    (ascii "requested_profile", .string m.requestedProfile),
    (ascii "negotiated_profile", .string m.negotiatedProfile),
    (ascii "tls_version", .string m.tlsVersion),
    (ascii "negotiated_group", .string m.negotiatedGroup),
    (ascii "cipher_suite", .string m.cipherSuite),
    (ascii "authentication", .string m.authentication),
    (ascii "handshake_ms", .float m.handshakeMs),
    (ascii "connection_ms", .float m.connectionMs),
    (ascii "application_bytes_sent", .uint m.applicationBytesSent),
    (ascii "application_bytes_received", .uint m.applicationBytesReceived),
    (ascii "transport_bytes_sent", .ofOption .uint m.transportBytesSent),
    (ascii "transport_bytes_received", .ofOption .uint m.transportBytesReceived),
    (ascii "session_reused", .bool m.sessionReused),
    (ascii "success", .bool m.success),
    (ascii "error_category",
      if m.errorCategory = .none then .null else .string m.errorCategory.toText),
    (ascii "error_message", .ofOption .string m.errorMessage),
    (ascii "peer_address", .string m.peerAddress),
    (ascii "protocol_message_count", .uint m.protocolMessageCount.toUInt64),
    (ascii "process_cpu_user_ms", .ofOption .float m.processCpuUserMs),
    (ascii "process_cpu_system_ms", .ofOption .float m.processCpuSystemMs),
    (ascii "peak_memory_kib", .ofOption .uint m.peakMemoryKib),
    (ascii "timestamp", .string m.timestamp),
    (ascii "pq_key_establishment", .bool m.pqKeyEstablishment),
    (ascii "hybrid_key_establishment", .bool m.hybridKeyEstablishment),
    (ascii "pq_authentication", .bool m.pqAuthentication)]

/-- `ConnectionMetrics::to_json`. -/
def toJson (m : ConnectionMetrics) : JsonValue :=
  m.fields.foldl (fun doc field => doc.set field.1 field.2) JsonValue.null

/-- `ConnectionMetrics::to_jsonl_line`. -/
def toJsonlLine (lib : JsonLibrary) (m : ConnectionMetrics) : Except Thrown Bytes :=
  match lib.dump m.toJson.val with
  | .ok line => .ok line
  | .error e => .error e.toThrown

/-- The assignments of `ResourceUsage::sample()` to a record. -/
def withUsage (m : ConnectionMetrics) (usage : ResourceUsage) : ConnectionMetrics :=
  { m with
    processCpuUserMs := usage.cpuUserMs
    processCpuSystemMs := usage.cpuSystemMs
    peakMemoryKib := usage.peakMemoryKib }

/-- What a connection function records of an exception. -/
def withError (m : ConnectionMetrics) (e : Thrown) : ConnectionMetrics :=
  { m with success := false, errorCategory := e.category, errorMessage := some e.message }

end ConnectionMetrics

/-- `MetricsWriter`: the records written so far, if a file is open. -/
structure MetricsWriter where
  enabled : Bool
  /-- The records that have been appended. -/
  records : List ConnectionMetrics
  /-- The lines of the file. -/
  lines : List Bytes

/-- `MetricsWriter::write`. -/
def MetricsWriter.write (lib : JsonLibrary) (w : MetricsWriter) (m : ConnectionMetrics) :
    MetricsWriter × Except Thrown Unit :=
  if !w.enabled then (w, .ok ())
  else
    match m.toJsonlLine lib with
    | .ok line => ({ w with records := w.records ++ [m], lines := w.lines ++ [line] }, .ok ())
    | .error e => (w, .error e)

end PqtlsLab
