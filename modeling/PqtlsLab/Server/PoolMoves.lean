import PqtlsLab.Server.Pool

/-!
# What one step of the server can do

The step function of the pool, read backwards: every step that is possible is one of the
following moves. The results about runs are proved by cases on them.
-/

namespace PqtlsLab

namespace Pool

/-- A move of the server. -/
inductive Move (maxConnections : UInt32) (s : Pool) : PoolAction → Pool → Prop where
  /-- `running_.store(true)`. -/
  | enter (control : s.acceptor = .entering) :
      Move maxConnections s (.acceptor .proceed) { s with running := true, acceptor := .resetting }
  /-- `stopping_.store(false)`. -/
  | reset (control : s.acceptor = .resetting) :
      Move maxConnections s (.acceptor .proceed)
        { s with stopping := false, acceptor := .spawning }
  /-- A worker is started. -/
  | spawn (control : s.acceptor = .spawning) (few : s.workers.length < workerCount maxConnections) :
      Move maxConnections s (.acceptor .proceed) { s with workers := s.workers ++ [.locking] }
  /-- All workers have been started. -/
  | spawned (control : s.acceptor = .spawning) :
      Move maxConnections s (.acceptor .proceed) { s with acceptor := .testing }
  /-- The accept loop ends. -/
  | leave (control : s.acceptor = .testing) (stopping : s.stopping = true) :
      Move maxConnections s (.acceptor .proceed)
        { s with acceptor := .leaving, lateIteration := s.requested }
  /-- An iteration of the accept loop begins. -/
  | iterate (control : s.acceptor = .testing) (going : s.stopping = false) :
      Move maxConnections s (.acceptor .proceed)
        { s with acceptor := .polling, lateIteration := s.requested }
  /-- `poll` reports a connection. -/
  | ready (control : s.acceptor = .polling) :
      Move maxConnections s (.acceptor (.poll true)) { s with acceptor := .accepting }
  /-- `poll` reports nothing. -/
  | idle (control : s.acceptor = .polling) :
      Move maxConnections s (.acceptor (.poll false)) { s with acceptor := .testing }
  /-- `accept` returns a descriptor. -/
  | accept (control : s.acceptor = .accepting) :
      Move maxConnections s (.acceptor (.accept true))
        { s with
          acceptor := .holding s.arrivals
          arrivals := s.arrivals + 1
          lateAccepts := if s.lateIteration then s.lateAccepts + 1 else s.lateAccepts }
  /-- `accept` fails. -/
  | miss (control : s.acceptor = .accepting) :
      Move maxConnections s (.acceptor (.accept false)) { s with acceptor := .testing }
  /-- The connection is queued. -/
  | push (id : ℕ) (control : s.acceptor = .holding id)
      (room : s.queue.length < maxConnections.toNat) :
      Move maxConnections s (.acceptor .proceed)
        { s with queue := s.queue ++ [id], acceptor := .counting }
  /-- The connection is refused. -/
  | refuse (id : ℕ) (control : s.acceptor = .holding id) :
      Move maxConnections s (.acceptor .proceed)
        { s with connectionsRejected := s.connectionsRejected + 1, acceptor := .refusing id }
  /-- The refused connection is closed. -/
  | discard (id : ℕ) (control : s.acceptor = .refusing id) :
      Move maxConnections s (.acceptor .proceed)
        { s with closed := s.closed ++ [id], acceptor := .testing }
  /-- The queued connection is counted. -/
  | count (control : s.acceptor = .counting) :
      Move maxConnections s (.acceptor .proceed)
        { s with connectionsAccepted := s.connectionsAccepted + 1, acceptor := .notifying }
  /-- `notify_one` wakes a worker. -/
  | notify (i : ℕ) (control : s.acceptor = .notifying) (blocked : s.workers[i]? = some .blocked) :
      Move maxConnections s (.acceptor (.notifyOne (some i)))
        { s with workers := s.workers.set i .locking, acceptor := .testing }
  /-- `notify_one` finds no blocked worker. -/
  | nobody (control : s.acceptor = .notifying) :
      Move maxConnections s (.acceptor (.notifyOne none)) { s with acceptor := .testing }
  /-- `running_.store(false)` at the end of `run()`. -/
  | unlisten (control : s.acceptor = .leaving) :
      Move maxConnections s (.acceptor .proceed) { s with running := false, acceptor := .waking }
  /-- `notify_all` at the end of `run()`. -/
  | wake (control : s.acceptor = .waking) :
      Move maxConnections s (.acceptor .proceed)
        { s with workers := s.workers.map PoolWorker.wake, acceptor := .joining }
  /-- All workers have been joined. -/
  | join (control : s.acceptor = .joining) (exited : ∀ w ∈ s.workers, w = .exited) :
      Move maxConnections s (.acceptor .proceed) { s with acceptor := .draining }
  /-- What is still queued is closed. -/
  | drain (control : s.acceptor = .draining) :
      Move maxConnections s (.acceptor .proceed)
        { s with closed := s.closed ++ s.queue, queue := [], acceptor := .returned }
  /-- A worker acquires the mutex. -/
  | lock (i : ℕ) (control : s.workers[i]? = some .locking) (free : s.locked = false) :
      Move maxConnections s (.worker i .proceed)
        { s with locked := true, workers := s.workers.set i .checking }
  /-- A worker finds the predicate true. -/
  | grant (i : ℕ) (control : s.workers[i]? = some .checking) :
      Move maxConnections s (.worker i .proceed)
        { s with workers := s.workers.set i .granted }
  /-- A worker finds the predicate false. -/
  | hesitate (i : ℕ) (control : s.workers[i]? = some .checking) (going : s.stopping = false) :
      Move maxConnections s (.worker i .proceed)
        { s with workers := s.workers.set i .blocking }
  /-- A worker releases the mutex and blocks. -/
  | block (i : ℕ) (control : s.workers[i]? = some .blocking) :
      Move maxConnections s (.worker i .proceed)
        { s with locked := false, workers := s.workers.set i .blocked }
  /-- A worker is woken for no reason. -/
  | rouse (i : ℕ) (control : s.workers[i]? = some .blocked) :
      Move maxConnections s (.worker i .spurious) { s with workers := s.workers.set i .locking }
  /-- A worker finds nothing to do. -/
  | retry (i : ℕ) (control : s.workers[i]? = some .granted) (w : PoolWorker)
      (next : w = .exited ∨ w = .locking) :
      Move maxConnections s (.worker i .proceed)
        { s with locked := false, workers := s.workers.set i w }
  /-- A worker takes the front of the queue. -/
  | pop (i id : ℕ) (rest : List ℕ) (control : s.workers[i]? = some .granted)
      (front : s.queue = id :: rest) :
      Move maxConnections s (.worker i .proceed)
        { s with
          locked := false
          queue := rest
          started := s.started ++ [id]
          workers := s.workers.set i (.handling id) }
  /-- A worker is done with its connection, which is closed. -/
  | finish (i id : ℕ) (throws : Bool) (control : s.workers[i]? = some (.handling id))
      (w : PoolWorker) (next : w = .exited ∨ w = .locking) :
      Move maxConnections s (.worker i (.finish throws))
        { s with closed := s.closed ++ [id], workers := s.workers.set i w }
  /-- `stop()` is called. -/
  | call : Move maxConnections s .call { s with stops := s.stops ++ [.storing] }
  /-- `stopping_.store(true)`. -/
  | store (j : ℕ) (control : s.stops[j]? = some .storing) :
      Move maxConnections s (.stop j)
        { s with stopping := true, requested := true, stops := s.stops.set j .clearing }
  /-- `running_.store(false)` in `stop()`. -/
  | clear (j : ℕ) (control : s.stops[j]? = some .clearing) :
      Move maxConnections s (.stop j)
        { s with running := false, stops := s.stops.set j .notifying }
  /-- `notify_all` in `stop()`. -/
  | wakeAll (j : ℕ) (control : s.stops[j]? = some .notifying) :
      Move maxConnections s (.stop j)
        { s with workers := s.workers.map PoolWorker.wake, stops := s.stops.set j .finished }

variable {maxConnections : UInt32} {s t : Pool}

/-- A step of `run()` is one of the moves. -/
theorem move_of_acceptorStep {input : AcceptorInput}
    (h : s.acceptorStep maxConnections input = some t) :
    Move maxConnections s (.acceptor input) t := by
  unfold acceptorStep at h
  split at h
  · split at h
    · cases h
      exact .enter ‹_›
    · cases h
      exact .reset ‹_›
    · split at h
      · cases h
        exact .spawn ‹_› ‹_›
      · cases h
        exact .spawned ‹_›
    · by_cases hstopping : s.stopping = true
      · rw [if_pos hstopping] at h
        cases h
        exact .leave ‹_› hstopping
      · rw [if_neg hstopping] at h
        cases h
        exact .iterate ‹_› (by simpa using hstopping)
    · split at h
      · cases h
      · split at h
        · cases h
          exact .refuse _ ‹_›
        · cases h
          exact .push _ ‹_› (by omega)
    · cases h
      exact .discard _ ‹_›
    · cases h
      exact .count ‹_›
    · cases h
      exact .unlisten ‹_›
    · cases h
      exact .wake ‹_›
    · split at h
      · cases h
        exact .join ‹_› ‹_›
      · cases h
    · split at h
      · cases h
      · cases h
        exact .drain ‹_›
    · cases h
  · rename_i ready
    split at h
    · cases ready <;> cases h
      · exact .idle ‹_›
      · exact .ready ‹_›
    · cases h
  · rename_i ok
    split at h
    · cases ok <;> cases h
      · exact .miss ‹_›
      · exact .accept ‹_›
    · cases h
  · rename_i target
    split at h
    · obtain ⟨u, hu, rfl⟩ := Option.map_eq_some_iff.mp h
      unfold notifyOne at hu
      split at hu
      · split at hu
        · cases hu
          exact .notify _ ‹_› ‹_›
        · cases hu
      · split at hu
        · cases hu
        · cases hu
          exact .nobody ‹_›
    · cases h

/-- A step of a worker is one of the moves. -/
theorem move_of_workerStep {i : ℕ} {w : PoolWorker} {input : PoolWorkerInput}
    (hw : s.workers[i]? = some w) (h : s.workerStep i w input = some t) :
    Move maxConnections s (.worker i input) t := by
  unfold workerStep at h
  split at h
  · split at h
    · cases h
    · cases h
      exact .lock i hw (by simpa using ‹¬ s.locked = true›)
  · split at h
    · cases h
      exact .grant i hw
    · rename_i hpredicate
      cases h
      exact .hesitate i hw (by simp_all)
  · cases h
    exact .block i hw
  · cases h
    exact .rouse i hw
  · split at h
    · cases h
      refine .retry i hw _ ?_
      split <;> simp
    · cases h
      exact .pop i _ _ hw ‹_›
  · cases h
    refine .finish i _ _ hw _ ?_
    split <;> simp
  · cases h

/-- A step of `stop()` is one of the moves. -/
theorem move_of_stopStep {j : ℕ} {call : StopCall} (hcall : s.stops[j]? = some call)
    (h : s.stopStep j call = some t) : Move maxConnections s (.stop j) t := by
  unfold stopStep at h
  split at h
  · cases h
    exact .store j hcall
  · cases h
    exact .clear j hcall
  · cases h
    exact .wakeAll j hcall
  · cases h

/-- Every step is one of the moves. -/
theorem move_of_step {a : PoolAction} (h : (machine maxConnections).step s a = some t) :
    Move maxConnections s a t := by
  cases a with
  | acceptor input => exact move_of_acceptorStep h
  | worker i input =>
    obtain ⟨w, hw, hstep⟩ := Option.bind_eq_some_iff.mp h
    exact move_of_workerStep hw hstep
  | call =>
    cases h
    exact .call
  | stop j =>
    obtain ⟨call, hcall, hstep⟩ := Option.bind_eq_some_iff.mp h
    exact move_of_stopStep hcall hstep

end Pool

end PqtlsLab
