import PqtlsLab.Client.Connection
import PqtlsLab.Foundation.Machine
import PqtlsLab.Policy.Config

/-!
# The workers of a benchmark

`run_benchmark` starts a number of workers that share two counters of outstanding
connections, the summary and the metrics writer. A worker that has a client claims
warm-up connections until there are none left, then measured ones; a worker whose client
cannot be constructed takes all outstanding measured connections and reports them as
failures. Loading a counter, comparing and exchanging it, exchanging it for zero and the
critical sections of the summary are atomic steps, which may interleave in any order.
-/

namespace PqtlsLab

/-- `BenchmarkSummary`, with the defaults of its declaration. -/
structure BenchmarkSummary where
  profileId : Bytes := []
  requestedConnections : UInt32 := 0
  successful : UInt32 := 0
  failed : UInt32 := 0
  handshakeMs : List UInt64 := []
  connectionMs : List UInt64 := []
  failureCategories : List Bytes := []

namespace BenchmarkSummary

/-- The critical section of a worker without a client. -/
def abandon (summary : BenchmarkSummary) (abandoned : UInt32) (what : Bytes) : BenchmarkSummary :=
  { summary with
    failed := summary.failed + abandoned
    failureCategories := summary.failureCategories ++ [ascii "client-setup: " ++ what] }

/-- The critical section that follows a measured connection. -/
def record (summary : BenchmarkSummary) (result : ClientResult) : BenchmarkSummary :=
  if result.ok then
    { summary with
      successful := summary.successful + 1
      handshakeMs := summary.handshakeMs ++ [result.metrics.handshakeMs]
      connectionMs := summary.connectionMs ++ [result.metrics.connectionMs] }
  else
    { summary with
      failed := summary.failed + 1
      failureCategories := summary.failureCategories ++ [result.metrics.errorCategory.toText] }

end BenchmarkSummary

/-- The two loops of a worker. The request of the warm-up connections is made once, in
advance. -/
inductive Phase where
  | warmup (request : Message)
  | measured

/-- The loop is that of the measured connections. -/
def Phase.isMeasured : Phase → Bool
  | .warmup _ => false
  | .measured => true

/-- A call of `run_once`: the loop it belongs to and the messages it is given. -/
structure BenchmarkAttempt where
  phase : Phase
  messages : List Message

/-- What the workers share. The last two fields only keep track of the calls of `run_once`
and of what has come back from them; the code does not have them. -/
structure BenchmarkState where
  /-- `remaining`. -/
  remaining : UInt32
  /-- `warmup_remaining`. -/
  warmupRemaining : UInt32
  /-- `summary`. -/
  summary : BenchmarkSummary
  /-- `writer`. -/
  writer : MetricsWriter
  /-- The calls of `run_once`, in the order in which they start. -/
  attempts : List BenchmarkAttempt
  /-- The records of the calls that have returned, in the order in which they return. -/
  returned : List (Phase × ConnectionMetrics)

namespace BenchmarkState

/-- The counter from which a loop claims its connections. -/
def counter (s : BenchmarkState) : Phase → UInt32
  | .warmup _ => s.warmupRemaining
  | .measured => s.remaining

/-- The store of a successful compare-exchange. -/
def setCounter (s : BenchmarkState) : Phase → UInt32 → BenchmarkState
  | .warmup _, value => { s with warmupRemaining := value }
  | .measured, value => { s with remaining := value }

end BenchmarkState

/-- Where a worker is. -/
inductive BenchmarkWorker where
  /-- Before the construction of its client. -/
  | starting
  /-- The construction has thrown; before `remaining.exchange(0)`. -/
  | draining (what : Bytes)
  /-- Before the critical section that reports the abandoned connections. -/
  | abandoning (abandoned : UInt32) (what : Bytes)
  /-- Before the load in `claim`. -/
  | loading (phase : Phase)
  /-- Before the compare-exchange in `claim`, with the value it expects, which has passed
  the test of the loop. -/
  | claiming (phase : Phase) (current : UInt32) (positive : current > 0)
  /-- `claim` has returned `true`. -/
  | claimed (phase : Phase)
  /-- In `run_once`. -/
  | connecting (phase : Phase)
  /-- Before the critical section that reports a measured connection. -/
  | recording (result : ClientResult)
  /-- The worker has returned. -/
  | finished
  /-- An exception has left `run_once`, and the thread has logged it and ended. -/
  | terminated (phase : Phase)

/-- What the environment supplies to a step of a worker. -/
inductive BenchmarkInput where
  /-- The construction of the client: the text of the exception, or the label of the
  request that is made next. -/
  | construct (outcome : Except Bytes Label)
  /-- Nothing. -/
  | proceed
  /-- Whether the weak compare-exchange fails for no reason. -/
  | compareExchange (spurious : Bool)
  /-- The labels of the requests. -/
  | request (labels : ℕ → Label)
  /-- What `run_once` comes to before it writes the record. -/
  | connect (outcome : Except Thrown ClientResult)

/-- The construction of the client has not failed. -/
def BenchmarkInput.Constructs : BenchmarkInput → Prop
  | .construct (.error _) => False
  | _ => True

namespace Benchmark

/-- The test of the loop in `claim`, with the value last seen. A warm-up loop is followed
by the measured one. -/
def testClaim (phase : Phase) (current : UInt32) : BenchmarkWorker :=
  if positive : current > 0 then .claiming phase current positive
  else
    match phase with
    | .warmup _ => .loading .measured
    | .measured => .finished

/-- The requests of a connection: a warm-up connection sends the request of the worker, a
measured one sends `messages_per_connection` new ones. -/
def requests (config : ClientConfig) (labels : ℕ → Label) : Phase → List Message
  | .warmup request => [request]
  | .measured =>
    (List.range config.messagesPerConnection.toNat).map fun i =>
      Message.makeRequest (labels i) .ping JsonValue.null

/-- The end of `run_once`: the record is written, and the result returned unless writing
throws. -/
def writeRecord (lib : JsonLibrary) (writer : MetricsWriter) (result : ClientResult) :
    MetricsWriter × Except Thrown ClientResult :=
  match writer.write lib result.metrics with
  | (writer, .ok ()) => (writer, .ok result)
  | (writer, .error e) => (writer, .error e)

/-- `run_once` as it is modelled for one connection ends in the same way. -/
theorem runOnce_eq_writeRecord (a : ClientAttempt) (writer : MetricsWriter) :
    a.runOnce writer = writeRecord a.lib writer a.clientResult := rfl

/-- What follows a call of `run_once` that has returned: a warm-up result is discarded. -/
def afterConnection (result : ClientResult) : Phase → BenchmarkWorker
  | .warmup request => .loading (.warmup request)
  | .measured => .recording result

/-- One step of `worker`. -/
def workerStep (lib : JsonLibrary) (config : ClientConfig) (s : BenchmarkState) :
    BenchmarkWorker → BenchmarkInput → Option (BenchmarkState × BenchmarkWorker)
  | .starting, .construct (.ok label) =>
    some (s, .loading (.warmup (Message.makeRequest label .ping JsonValue.null)))
  | .starting, .construct (.error what) => some (s, .draining what)
  | .draining what, .proceed => some ({ s with remaining := 0 }, .abandoning s.remaining what)
  | .abandoning abandoned what, .proceed =>
    some ({ s with summary := s.summary.abandon abandoned what }, .finished)
  | .loading phase, .proceed => some (s, testClaim phase (s.counter phase))
  | .claiming phase current _, .compareExchange spurious =>
    if s.counter phase = current ∧ spurious = false then
      some (s.setCounter phase (current - 1), .claimed phase)
    else some (s, testClaim phase (s.counter phase))
  | .claimed phase, .request labels =>
    some ({ s with attempts := s.attempts ++ [⟨phase, requests config labels phase⟩] },
      .connecting phase)
  | .connecting phase, .connect (.error _) => some (s, .terminated phase)
  | .connecting phase, .connect (.ok result) =>
    match writeRecord lib s.writer result with
    | (writer, .error _) => some ({ s with writer := writer }, .terminated phase)
    | (writer, .ok result) =>
      some ({ s with writer := writer, returned := s.returned ++ [(phase, result.metrics)] },
        afterConnection result phase)
  | .recording result, .proceed =>
    some ({ s with summary := s.summary.record result }, .loading .measured)
  | _, _ => none

/-- The number of workers. -/
def concurrency (config : ClientConfig) : ℕ :=
  min config.concurrency.toNat config.connections.toNat

/-- `run_benchmark`, from the start of the threads on. -/
def machine (lib : JsonLibrary) (config : ClientConfig) (writer : MetricsWriter) :
    Machine (Threaded BenchmarkState BenchmarkWorker) (ℕ × BenchmarkInput) :=
  .ofThreads
    { shared := {
        remaining := config.connections
        warmupRemaining := config.warmupConnections
        summary := {
          profileId := config.common.profileId
          requestedConnections := config.connections }
        writer := writer
        attempts := []
        returned := [] }
      threads := List.replicate (concurrency config) .starting }
    (workerStep lib config)

/-- All workers have returned, so that `run_benchmark` returns its summary. The thread of a
terminated worker has ended as well, but only because `run_once` has thrown. -/
def Finished (s : Threaded BenchmarkState BenchmarkWorker) : Prop :=
  ∀ w ∈ s.threads, w = .finished

/-- Whether all workers have returned can be read off their states. -/
instance (s : Threaded BenchmarkState BenchmarkWorker) : Decidable (Finished s) :=
  decidable_of_iff (s.threads.all (fun | .finished => true | _ => false) = true) (by
    simp only [List.all_eq_true, Finished]
    refine forall₂_congr fun w _ => ?_
    cases w <;> simp)

end Benchmark

end PqtlsLab
