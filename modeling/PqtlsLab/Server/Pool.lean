import PqtlsLab.Foundation.Machine
import PqtlsLab.Policy.Config

/-!
# The acceptor and its workers

`run()` accepts connections and puts them into a bounded queue; a fixed number of workers
take them out and handle them. The queue is protected by a mutex and announced by a
condition variable. `stop()` may be called at any time, any number of times, and takes
neither: it stores the stop flag and then wakes the waiting workers.

Every access to a shared variable is a step of its own, and so is everything that happens
in one critical section, except that a waiting worker evaluates its predicate, blocks and
is woken in separate steps. The descriptor of a connection is known by the number of the
`accept()` call that returned it, since the operating system reuses the descriptors
themselves.
-/

namespace PqtlsLab

/-- Where `run()` is. -/
inductive Acceptor where
  /-- Before `running_.store(true)`. -/
  | entering
  /-- Before `stopping_.store(false)`. -/
  | resetting
  /-- In the loop that starts the workers. -/
  | spawning
  /-- Before the test of the accept loop. -/
  | testing
  /-- Before `poll`. -/
  | polling
  /-- Before `accept`. -/
  | accepting
  /-- Owns a connection; before the critical section. -/
  | holding (id : ℕ)
  /-- Has refused the connection, which is closed at the end of its scope. -/
  | refusing (id : ℕ)
  /-- Has queued the connection; before `connections_accepted_.fetch_add(1)`. -/
  | counting
  /-- Before `notify_one`. -/
  | notifying
  /-- After the accept loop; before `running_.store(false)`. -/
  | leaving
  /-- The listener is closed; before `notify_all`. -/
  | waking
  /-- Joins the workers. -/
  | joining
  /-- Before the critical section that closes what is still queued. -/
  | draining
  /-- `run()` has returned. -/
  | returned
  deriving DecidableEq

/-- Where `worker_loop()` is. -/
inductive PoolWorker where
  /-- Before it acquires the mutex, at the top of the loop or inside `wait`. -/
  | locking
  /-- Holds the mutex; before it evaluates the predicate. -/
  | checking
  /-- Holds the mutex; the predicate was false, and it is about to block. -/
  | blocking
  /-- Waits on the condition variable, without the mutex. -/
  | blocked
  /-- Holds the mutex; the predicate was true. -/
  | granted
  /-- In `handle_connection`. -/
  | handling (id : ℕ)
  /-- The thread has ended. -/
  | exited
  deriving DecidableEq

/-- Where a call of `stop()` is. -/
inductive StopCall where
  /-- Before `stopping_.store(true)`. -/
  | storing
  /-- Before `running_.store(false)`. -/
  | clearing
  /-- Before `notify_all`. -/
  | notifying
  /-- The call has returned. -/
  | finished
  deriving DecidableEq

/-- The server object and everything that runs on it. The last six fields only keep track
of what has happened; the code does not have them. -/
structure Pool where
  /-- `running_`. -/
  running : Bool
  /-- `stopping_`. -/
  stopping : Bool
  /-- Whether `queue_mutex_` is held. -/
  locked : Bool
  /-- `queue_`. -/
  queue : List ℕ
  /-- `connections_accepted_`. -/
  connectionsAccepted : UInt64
  /-- `connections_rejected_`. -/
  connectionsRejected : UInt64
  acceptor : Acceptor
  workers : List PoolWorker
  stops : List StopCall
  /-- The number of descriptors that `accept()` has returned. -/
  arrivals : ℕ
  /-- The connections whose handling has begun, in that order. -/
  started : List ℕ
  /-- The connections that have been closed, in that order. -/
  closed : List ℕ
  /-- Some call of `stop()` has stored the flag. -/
  requested : Bool
  /-- The current iteration of the accept loop began after that. -/
  lateIteration : Bool
  /-- The number of connections that were accepted in such an iteration. -/
  lateAccepts : ℕ

/-- What the environment supplies to a step of `run()`. -/
inductive AcceptorInput where
  /-- Nothing. -/
  | proceed
  /-- Whether `poll` reports a connection. -/
  | poll (ready : Bool)
  /-- Whether `accept` returns a descriptor. -/
  | accept (ok : Bool)
  /-- Which blocked worker `notify_one` wakes, if there is one. -/
  | notifyOne (target : Option ℕ)
  deriving DecidableEq

/-- What the environment supplies to a step of a worker. -/
inductive PoolWorkerInput where
  /-- Nothing. -/
  | proceed
  /-- A wake-up without a reason. -/
  | spurious
  /-- The end of `handle_connection`, and whether an exception has left it. -/
  | finish (throws : Bool)
  deriving DecidableEq

/-- One step of the server. -/
inductive PoolAction where
  /-- A step of `run()`. -/
  | acceptor (input : AcceptorInput)
  /-- A step of a worker. -/
  | worker (i : ℕ) (input : PoolWorkerInput)
  /-- A new call of `stop()`. -/
  | call
  /-- A step of a call of `stop()`. -/
  | stop (j : ℕ)
  deriving DecidableEq

/-- A blocked worker that is notified competes for the mutex. -/
def PoolWorker.wake : PoolWorker → PoolWorker
  | .blocked => .locking
  | w => w

namespace Pool

/-- `notify_all`. -/
def notifyAll (s : Pool) : Pool := { s with workers := s.workers.map PoolWorker.wake }

/-- `notify_one`, which wakes one blocked worker if there is any. -/
def notifyOne (s : Pool) : Option ℕ → Option Pool
  | some i =>
    if s.workers[i]? = some .blocked then some { s with workers := s.workers.set i .locking }
    else none
  | none => if .blocked ∈ s.workers then none else some s

/-- `worker_count`. -/
def workerCount (maxConnections : UInt32) : ℕ := max 1 maxConnections.toNat

/-- One step of `PqTlsServer::run`. -/
def acceptorStep (maxConnections : UInt32) (s : Pool) : AcceptorInput → Option Pool
  | .proceed =>
    match s.acceptor with
    | .entering => some { s with running := true, acceptor := .resetting }
    | .resetting => some { s with stopping := false, acceptor := .spawning }
    | .spawning =>
      if s.workers.length < workerCount maxConnections then
        some { s with workers := s.workers ++ [.locking] }
      else some { s with acceptor := .testing }
    | .testing =>
      some { s with
        acceptor := if s.stopping then .leaving else .polling
        lateIteration := s.requested }
    | .holding id =>
      if s.locked then none
      else if maxConnections.toNat ≤ s.queue.length then
        some { s with
          connectionsRejected := s.connectionsRejected + 1
          acceptor := .refusing id }
      else some { s with queue := s.queue ++ [id], acceptor := .counting }
    | .refusing id => some { s with closed := s.closed ++ [id], acceptor := .testing }
    | .counting =>
      some { s with connectionsAccepted := s.connectionsAccepted + 1, acceptor := .notifying }
    | .leaving => some { s with running := false, acceptor := .waking }
    | .waking => some { s.notifyAll with acceptor := .joining }
    | .joining =>
      if ∀ w ∈ s.workers, w = .exited then some { s with acceptor := .draining } else none
    | .draining =>
      if s.locked then none
      else some { s with closed := s.closed ++ s.queue, queue := [], acceptor := .returned }
    | _ => none
  | .poll ready =>
    match s.acceptor with
    | .polling => some { s with acceptor := if ready then .accepting else .testing }
    | _ => none
  | .accept ok =>
    match s.acceptor with
    | .accepting =>
      if ok then
        some { s with
          acceptor := .holding s.arrivals
          arrivals := s.arrivals + 1
          lateAccepts := if s.lateIteration then s.lateAccepts + 1 else s.lateAccepts }
      else some { s with acceptor := .testing }
    | _ => none
  | .notifyOne target =>
    match s.acceptor with
    | .notifying => (s.notifyOne target).map fun s => { s with acceptor := .testing }
    | _ => none

/-- One step of `PqTlsServer::worker_loop` in worker `i`. -/
def workerStep (s : Pool) (i : ℕ) : PoolWorker → PoolWorkerInput → Option Pool
  | .locking, .proceed =>
    if s.locked then none
    else some { s with locked := true, workers := s.workers.set i .checking }
  | .checking, .proceed =>
    some { s with
      workers := s.workers.set i
        (if s.stopping || !s.queue.isEmpty then .granted else .blocking) }
  | .blocking, .proceed => some { s with locked := false, workers := s.workers.set i .blocked }
  | .blocked, .spurious => some { s with workers := s.workers.set i .locking }
  | .granted, .proceed =>
    match s.queue with
    | [] =>
      some { s with
        locked := false
        workers := s.workers.set i (if s.stopping then .exited else .locking) }
    | id :: rest =>
      some { s with
        locked := false
        queue := rest
        started := s.started ++ [id]
        workers := s.workers.set i (.handling id) }
  | .handling id, .finish throws =>
    some { s with
      closed := s.closed ++ [id]
      workers := s.workers.set i (if throws then .exited else .locking) }
  | _, _ => none

/-- One step of `PqTlsServer::stop` in call `j`. -/
def stopStep (s : Pool) (j : ℕ) : StopCall → Option Pool
  | .storing =>
    some { s with stopping := true, requested := true, stops := s.stops.set j .clearing }
  | .clearing => some { s with running := false, stops := s.stops.set j .notifying }
  | .notifying => some { s.notifyAll with stops := s.stops.set j .finished }
  | .finished => none

/-- The server before `run()`. -/
def initial : Pool where
  running := false
  stopping := false
  locked := false
  queue := []
  connectionsAccepted := 0
  connectionsRejected := 0
  acceptor := .entering
  workers := []
  stops := []
  arrivals := 0
  started := []
  closed := []
  requested := false
  lateIteration := false
  lateAccepts := 0

/-- One call of `run()`, from the successful bind on, with all workers and all calls of
`stop()`. -/
def machine (maxConnections : UInt32) : Machine Pool PoolAction where
  start := initial
  step s
    | .acceptor input => s.acceptorStep maxConnections input
    | .worker i input => s.workers[i]?.bind fun w => s.workerStep i w input
    | .call => some { s with stops := s.stops ++ [.storing] }
    | .stop j => s.stops[j]?.bind fun call => s.stopStep j call

end Pool

end PqtlsLab
