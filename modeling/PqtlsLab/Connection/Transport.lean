import PqtlsLab.Error

/-!
# Reading and writing over TLS

`SSL_read` delivers between one byte and a buffer full, and `SSL_write` accepts
between one byte and all it was offered; otherwise both fail for one of a few
reasons. The results are taken from the environment and typed so that every value
is one the calls can return. Next to the counters that end up in a record, the
bytes themselves are remembered, so that statements can speak about the streams.
-/

namespace PqtlsLab

/-- `kReadChunk`. -/
def kReadChunk : ℕ := 16 * 1024

/-- The largest request that fits into the `int` argument of `SSL_write`. -/
def kWriteChunk : ℕ := 0x7FFFFFFF

/-- What `SSL_get_error` says about a call that failed, with the distinction of
`errno` that the translation makes. -/
inductive SslFailure where
  | zeroReturn
  | wantRead
  | wantWrite
  | syscallAgain
  | syscallOther
  | ssl
  deriving DecidableEq, Repr

/-- `throw_ssl_error`. -/
def throwSslError (operation : Bytes) : SslFailure → Thrown
  | .zeroReturn => networkError (operation ++ ascii ": the peer closed the TLS connection")
  | .wantRead => timeoutError (operation ++ ascii ": timed out waiting for the peer")
  | .wantWrite => timeoutError (operation ++ ascii ": timed out waiting for the peer")
  | .syscallAgain => timeoutError (operation ++ ascii ": socket timeout elapsed")
  | .syscallOther => networkError (operation ++ ascii ": the transport failed")
  | .ssl => handshakeError (operation ++ ascii ": TLS protocol failure")

/-- A chunk of data that one `SSL_read` can deliver. -/
structure Chunk where
  bytes : Bytes
  length_pos : 1 ≤ bytes.length
  length_le : bytes.length ≤ kReadChunk

/-- The result of one `SSL_read`. -/
inductive ReadResult where
  | data (chunk : Chunk)
  | failed (failure : SslFailure)

/-- The reads from a peer that sends some chunks and then closes the connection. -/
def deliver (chunks : List Chunk) (n : ℕ) : ReadResult :=
  match chunks[n]? with
  | some chunk => .data chunk
  | none => .failed .zeroReturn

/-- A chunk is delivered when it is its turn. -/
theorem deliver_eq_data_iff {chunks : List Chunk} {n : ℕ} {chunk : Chunk} :
    deliver chunks n = .data chunk ↔ chunks[n]? = some chunk := by
  unfold deliver
  cases chunks[n]? <;> simp

/-- The end of the stream follows the last chunk. -/
theorem deliver_eq_failed_iff {chunks : List Chunk} {n : ℕ} {failure : SslFailure} :
    deliver chunks n = .failed failure ↔ chunks[n]? = none ∧ failure = .zeroReturn := by
  unfold deliver
  cases chunks[n]? <;> simp [eq_comm]

/-- The result of one `SSL_write`: `accepted k` takes `k + 1` bytes, or all that were
offered if they are fewer. -/
inductive WriteResult where
  | accepted (extra : ℕ)
  | failed (failure : SslFailure)

/-- The number of bytes that a successful `SSL_write` takes from a buffer. -/
def acceptedBytes (extra : ℕ) (rest : Bytes) : ℕ := min (extra + 1) (min rest.length kWriteChunk)

/-- A successful `SSL_write` makes progress. -/
theorem acceptedBytes_pos {rest : Bytes} (h : rest ≠ []) (extra : ℕ) :
    1 ≤ acceptedBytes extra rest := by
  have hlen : 1 ≤ rest.length := List.length_pos_iff.mpr h
  have hchunk : 1 ≤ kWriteChunk := by decide
  unfold acceptedBytes
  omega

/-- The socket calls of `Socket::set_timeouts`: the text of the error of each, if any. -/
structure TimeoutCalls where
  receive : Option Bytes
  send : Option Bytes

/-- `Socket::set_timeouts`. -/
def setTimeouts (calls : TimeoutCalls) : Except Thrown Unit :=
  match calls.receive with
  | some text => .error (networkError (ascii "failed to set the receive timeout: " ++ text))
  | none =>
    match calls.send with
    | some text => .error (networkError (ascii "failed to set the send timeout: " ++ text))
    | none => .ok ()

/-- The name of the peer as `getpeername` and `inet_ntop` report it. -/
inductive PeerName where
  | inet (host : Bytes) (port : UInt16)
  | inet6 (host : Bytes) (port : UInt16)
  | unavailable

/-- `Socket::peer_address`. -/
def PeerName.address : PeerName → Bytes
  | .inet host port => host ++ ascii ":" ++ decimal port.toNat
  | .inet6 host port => ascii "[" ++ host ++ ascii "]:" ++ decimal port.toNat
  | .unavailable => ascii "unknown"

/-- The peer always has an address to record. -/
theorem PeerName.address_ne_nil (peer : PeerName) : peer.address ≠ [] := by
  cases peer with
  | inet host port => simp [address, decimal_ne_nil]
  | inet6 host port => simp [address, decimal_ne_nil]
  | unavailable => decide

/-- What becomes of the attempt to connect to one of the addresses of a host. -/
inductive ConnectAttempt where
  | socketFailed (text : Bytes)
  | timeoutFailed
  | connectFailed (text : Bytes)
  | connected (peer : PeerName)

/-- What `getaddrinfo` returns: an error with its text, or the attempts that follow. -/
inductive Resolution where
  | unresolved (text : Bytes)
  | addresses (attempts : List ConnectAttempt)

/-- The loop of `tcp_connect` over the addresses: the first connection, or the text of the
last error. -/
def firstConnection (lastError : Bytes) : List ConnectAttempt → Except Bytes PeerName
  | [] => .error lastError
  | .connected peer :: _ => .ok peer
  | .socketFailed text :: rest => firstConnection text rest
  | .timeoutFailed :: rest => firstConnection (ascii "could not apply a connect timeout") rest
  | .connectFailed text :: rest => firstConnection text rest

/-- `tcp_connect`. -/
def tcpConnect (host : Bytes) (port : UInt16) : Resolution → Except Thrown PeerName
  | .unresolved text =>
    .error (networkError (ascii "cannot resolve '" ++ host ++ ascii "': " ++ text))
  | .addresses attempts =>
    match firstConnection (ascii "no addresses were returned") attempts with
    | .ok peer => .ok peer
    | .error text =>
      .error (networkError (ascii "cannot connect to " ++ host ++ ascii ":" ++
        decimal port.toNat ++ ascii ": " ++ text))

/-- The traffic of one connection as one side sees it: `IoCounters` and the bytes
behind them. -/
structure Io where
  /-- The bytes that `SSL_write` has accepted. -/
  sent : Bytes
  /-- The bytes that `SSL_read` has delivered. -/
  received : Bytes
  /-- The number of successful calls of `SSL_write`. -/
  writes : ℕ
  /-- The number of successful calls of `SSL_read`. -/
  reads : ℕ
  /-- `bytes_sent`. -/
  bytesSent : UInt64
  /-- `bytes_received`. -/
  bytesReceived : UInt64
  bytesSent_eq : bytesSent = UInt64.ofNat sent.length
  bytesReceived_eq : bytesReceived = UInt64.ofNat received.length

namespace Io

/-- Nothing has been transferred. -/
def start : Io := ⟨[], [], 0, 0, 0, 0, rfl, rfl⟩

/-- The bookkeeping of a successful `SSL_write`. -/
def recordSent (io : Io) (bytes : Bytes) : Io :=
  { io with
    sent := io.sent ++ bytes
    writes := io.writes + 1
    bytesSent := io.bytesSent + UInt64.ofNat bytes.length
    bytesSent_eq := by simp [io.bytesSent_eq] }

/-- The bookkeeping of a successful `SSL_read`. -/
def recordReceived (io : Io) (bytes : Bytes) : Io :=
  { io with
    received := io.received ++ bytes
    reads := io.reads + 1
    bytesReceived := io.bytesReceived + UInt64.ofNat bytes.length
    bytesReceived_eq := by simp [io.bytesReceived_eq] }

@[simp] theorem recordSent_sent (io : Io) (bytes : Bytes) :
    (io.recordSent bytes).sent = io.sent ++ bytes := rfl

@[simp] theorem recordSent_received (io : Io) (bytes : Bytes) :
    (io.recordSent bytes).received = io.received := rfl

@[simp] theorem recordSent_bytesSent (io : Io) (bytes : Bytes) :
    (io.recordSent bytes).bytesSent = io.bytesSent + UInt64.ofNat bytes.length := rfl

@[simp] theorem recordReceived_sent (io : Io) (bytes : Bytes) :
    (io.recordReceived bytes).sent = io.sent := rfl

@[simp] theorem recordReceived_received (io : Io) (bytes : Bytes) :
    (io.recordReceived bytes).received = io.received ++ bytes := rfl

@[simp] theorem recordReceived_reads (io : Io) (bytes : Bytes) :
    (io.recordReceived bytes).reads = io.reads + 1 := rfl

@[simp] theorem recordSent_reads (io : Io) (bytes : Bytes) :
    (io.recordSent bytes).reads = io.reads := rfl

@[simp] theorem start_sent : start.sent = [] := rfl

@[simp] theorem start_received : start.received = [] := rfl

end Io

end PqtlsLab
