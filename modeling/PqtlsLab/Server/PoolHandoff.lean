import PqtlsLab.Foundation.Handoff
import PqtlsLab.Server.PoolMoves

/-!
# Connections are handed over without loss

The server is a hand-off of connections: the acceptor holds a connection until it is queued
or refused, workers take connections from the queue and close them, and `run()` closes what
is left. Every step of the server is a step of that hand-off or does not touch the
connections at all, so the server inherits that no connection is lost or closed twice.
-/

namespace PqtlsLab

/-- The connection that the acceptor holds. -/
def Acceptor.held : Acceptor → List ℕ
  | .holding id | .refusing id => [id]
  | _ => []

/-- The connection that a worker owns. -/
def PoolWorker.owned : PoolWorker → List ℕ
  | .handling id => [id]
  | _ => []

/-- Waking a worker does not change what it owns. -/
@[simp]
theorem PoolWorker.owned_wake (w : PoolWorker) : w.wake.owned = w.owned := by
  cases w <;> rfl

namespace Pool

variable {maxConnections : UInt32} {s t : Pool}

/-- The connections that are being handled. -/
def handled (s : Pool) : List ℕ := s.workers.flatMap PoolWorker.owned

/-- The server as a hand-off of connections. -/
def handoff (s : Pool) : Handoff where
  held := s.acceptor.held
  queue := s.queue
  owned := s.handled
  started := s.started
  closed := s.closed
  arrivals := s.arrivals

/-- Waking the workers does not change what is being handled. -/
theorem flatMap_owned_wake (workers : List PoolWorker) :
    (workers.map PoolWorker.wake).flatMap PoolWorker.owned =
      workers.flatMap PoolWorker.owned := by
  simp [List.flatMap_map]

/-- The hand-off does not change as long as everyone keeps the connections they have. -/
theorem handoff_eq (hheld : t.acceptor.held = s.acceptor.held) (howned : t.handled = s.handled)
    (hrest : (t.queue, t.started, t.closed, t.arrivals) =
      (s.queue, s.started, s.closed, s.arrivals)) : t.handoff = s.handoff := by
  simp only [Prod.mk.injEq] at hrest
  obtain ⟨hqueue, hstarted, hclosed, harrivals⟩ := hrest
  simp only [handoff, hheld, howned, hqueue, hstarted, hclosed, harrivals]

/-- A step of the server is a step of the hand-off, or leaves all connections where they
are. -/
theorem handoff_of_move {a : PoolAction} (h : Move maxConnections s a t) :
    t.handoff = s.handoff ∨ Handoff.Step maxConnections.toNat s.handoff t.handoff := by
  cases h with
  | accept control =>
    have hheld : s.acceptor.held = [] := by rw [control]; rfl
    exact .inr (.arrive hheld)
  | push id control room =>
    have hheld : s.acceptor.held = [id] := by rw [control]; rfl
    exact .inr (.push id hheld room)
  | discard id control =>
    have hheld : s.acceptor.held = [id] := by rw [control]; rfl
    exact .inr (.refuse id hheld)
  | drain control =>
    have hheld : s.acceptor.held = [] := by rw [control]; rfl
    have hstep : Handoff.Step maxConnections.toNat s.handoff _ := .drain
    simp only [handoff, hheld] at hstep ⊢
    exact .inr hstep
  | pop i id rest control front =>
    have hperm := flatMap_set_perm PoolWorker.owned control (.handling id)
    simp only [PoolWorker.owned, List.append_nil] at hperm
    exact .inr (.take id rest _ front (hperm.trans List.perm_append_comm))
  | finish i id throws control w next =>
    have hw : w.owned = [] := by rcases next with rfl | rfl <;> rfl
    have hperm := flatMap_set_perm PoolWorker.owned control w
    rw [hw, List.append_nil] at hperm
    exact .inr (.finish id _ (hperm.symm.trans List.perm_append_comm))
  | spawn control few =>
    have howned : (s.workers ++ [PoolWorker.locking]).flatMap PoolWorker.owned = s.handled := by
      simp [handled, PoolWorker.owned]
    exact .inl (handoff_eq rfl howned rfl)
  | wake control =>
    exact .inl (handoff_eq (by rw [control]; rfl) (flatMap_owned_wake s.workers) rfl)
  | wakeAll j control => exact .inl (handoff_eq rfl (flatMap_owned_wake s.workers) rfl)
  | notify i control blocked =>
    exact .inl (handoff_eq (by rw [control]; rfl) (flatMap_set_of_eq blocked rfl) rfl)
  | lock i control free | grant i control | hesitate i control going | block i control
  | rouse i control => exact .inl (handoff_eq rfl (flatMap_set_of_eq control rfl) rfl)
  | retry i control w next =>
    have hw : w.owned = [] := by rcases next with rfl | rfl <;> rfl
    exact .inl (handoff_eq rfl (flatMap_set_of_eq control hw) rfl)
  | call | store j control | clear j control => exact .inl rfl
  | enter control | reset control | spawned control | leave control stopping
  | iterate control going | ready control | idle control | miss control | refuse id control
  | count control | nobody control | unlisten control | join control exited =>
    exact .inl (handoff_eq (by rw [control]; rfl) rfl rfl)

/-- The connections of a running server are handed over soundly. -/
theorem sound_of_run {actions : List PoolAction}
    (h : (machine maxConnections).run actions = some s) :
    s.handoff.Sound maxConnections.toNat := by
  refine (machine maxConnections).run_invariant (P := fun _ => True)
    (I := fun s => s.handoff.Sound maxConnections.toNat)
    (Handoff.sound_initial maxConnections.toNat) ?_ (fun _ _ => trivial) h
  intro s a t _ hs ht
  rcases handoff_of_move (move_of_step ht) with heq | hstep
  · rwa [heq]
  · exact hs.step hstep

/-- There are never more workers than the configuration allows. -/
theorem length_workers_of_run {actions : List PoolAction}
    (h : (machine maxConnections).run actions = some s) :
    s.workers.length ≤ workerCount maxConnections := by
  refine (machine maxConnections).run_invariant (P := fun _ => True)
    (I := fun s => s.workers.length ≤ workerCount maxConnections) (Nat.zero_le _) ?_
    (fun _ _ => trivial) h
  intro s a t _ hs ht
  cases move_of_step ht with
  | spawn control few =>
    rw [List.length_append, List.length_singleton]
    omega
  | _ => simpa using hs

/-- Every worker handles at most one connection. -/
theorem length_handled_le (s : Pool) : s.handled.length ≤ s.workers.length := by
  unfold handled
  induction s.workers with
  | nil => rfl
  | cons w workers ih =>
    have hw : w.owned.length ≤ 1 := by cases w <;> simp [PoolWorker.owned]
    rw [List.flatMap_cons, List.length_append, List.length_cons]
    omega

/-- The connection that the acceptor has not counted yet, as a number. -/
def uncounted : Acceptor → UInt64
  | .holding _ | .counting => 1
  | _ => 0

/-- Every connection that was accepted is counted once, as accepted or as rejected. -/
theorem counters_of_run {actions : List PoolAction}
    (h : (machine maxConnections).run actions = some s) :
    s.connectionsAccepted + s.connectionsRejected + uncounted s.acceptor =
      UInt64.ofNat s.arrivals := by
  refine (machine maxConnections).run_invariant (P := fun _ => True)
    (I := fun s => s.connectionsAccepted + s.connectionsRejected + uncounted s.acceptor =
      UInt64.ofNat s.arrivals) rfl ?_ (fun _ _ => trivial) h
  intro s a t _ hs ht
  cases move_of_step ht with
  | accept control =>
    simp only [control, uncounted, UInt64.add_zero] at hs
    simp only [uncounted, UInt64.ofNat_add, hs]
    rfl
  | refuse id control =>
    simp only [control, uncounted] at hs
    simp only [uncounted, ← hs, UInt64.add_assoc, UInt64.add_zero]
  | count control =>
    simp only [control, uncounted] at hs
    simp only [uncounted, ← hs, UInt64.add_zero]
    ac_rfl
  | enter control | reset control | spawned control | leave control stopping
  | iterate control going | ready control | idle control | miss control | push id control room
  | discard id control | notify i control blocked | nobody control | unlisten control
  | wake control | join control exited | drain control =>
    rw [control] at hs
    exact hs
  | _ => exact hs

/-- The acceptor has joined the workers. -/
def Joined : Acceptor → Prop
  | .draining | .returned => True
  | _ => False

/-- The workers have not been joined if one of them has not ended. -/
theorem not_joined_of_worker {i : ℕ} {w : PoolWorker}
    (hexited : Joined s.acceptor → ∀ w ∈ s.workers, w = .exited) (hw : s.workers[i]? = some w)
    (hne : w ≠ .exited) : ¬ Joined s.acceptor :=
  fun hjoined => hne (hexited hjoined w (List.mem_of_getElem? hw))

/-- Once the workers have been joined, they have all ended; once `run()` has returned,
nothing is queued. -/
theorem joined_of_run {actions : List PoolAction}
    (h : (machine maxConnections).run actions = some s) :
    (Joined s.acceptor → ∀ w ∈ s.workers, w = .exited) ∧
      (s.acceptor = .returned → s.queue = []) := by
  refine (machine maxConnections).run_invariant (P := fun _ => True)
    (I := fun s => (Joined s.acceptor → ∀ w ∈ s.workers, w = .exited) ∧
      (s.acceptor = .returned → s.queue = [])) ⟨False.elim, nofun⟩ ?_ (fun _ _ => trivial) h
  rintro s a t _ ⟨hexited, hqueue⟩ ht
  have hnot {i : ℕ} {w : PoolWorker} (hw : s.workers[i]? = some w) (hne : w ≠ .exited)
      {P : Prop} : (Joined s.acceptor → P) ∧ (s.acceptor = .returned → t.queue = []) := by
    have hjoined := not_joined_of_worker hexited hw hne
    exact ⟨fun h => (hjoined h).elim, fun h => (hjoined (h ▸ trivial)).elim⟩
  cases move_of_step ht with
  | join control exited => exact ⟨fun _ => exited, nofun⟩
  | drain control => exact ⟨fun _ => hexited (control ▸ trivial), fun _ => rfl⟩
  | wakeAll j control =>
    refine ⟨fun hjoined w hw => ?_, hqueue⟩
    obtain ⟨v, hv, rfl⟩ := List.mem_map.mp hw
    rw [hexited hjoined v hv]
    rfl
  | lock i control free | grant i control | hesitate i control going | block i control
  | rouse i control | retry i control w next | pop i id rest control front
  | finish i id throws control w next => exact hnot control (by simp)
  | call | store j control | clear j control => exact ⟨hexited, hqueue⟩
  | spawn control few =>
    exact ⟨fun hjoined => by rw [control] at hjoined; exact hjoined.elim, hqueue⟩
  | _ => exact ⟨False.elim, nofun⟩

/-- Whatever the interleaving, the connections that arrive and the calls of `stop()`: the
queue and the connections that are being handled are bounded; every accepted connection is
held by the acceptor, queued, owned by one worker or closed; connections are taken from the
queue in the order in which they were accepted, and none is handled twice; and when `run()`
has returned, every accepted connection has been closed exactly once and is counted as
accepted or rejected. -/
theorem connections_conserved (maxConnections : UInt32) (actions : List PoolAction) (s : Pool)
    (h : (machine maxConnections).run actions = some s) :
    s.queue.length ≤ maxConnections.toNat ∧
    s.handled.length ≤ max 1 maxConnections.toNat ∧
    (s.acceptor.held ++ s.queue ++ s.handled ++ s.closed).Perm (List.range s.arrivals) ∧
    (s.started ++ s.queue).Pairwise (· < ·) ∧
    (s.acceptor = .returned →
      s.closed.Perm (List.range s.arrivals) ∧
        s.connectionsAccepted + s.connectionsRejected = UInt64.ofNat s.arrivals) := by
  obtain ⟨hbounded, hconserved, hordered, -⟩ := sound_of_run h
  refine ⟨hbounded, ?_, hconserved, (List.pairwise_append.mp hordered).1, fun hreturned => ?_⟩
  · exact Nat.le_trans s.length_handled_le (length_workers_of_run h)
  · obtain ⟨hexited, hqueue⟩ := joined_of_run h
    have hall := hexited (by rw [hreturned]; trivial)
    have hhandled : s.handled = [] := by
      apply List.flatMap_eq_nil_iff.mpr
      intro w hw
      rw [hall w hw]
      rfl
    have hheld : s.acceptor.held = [] := by rw [hreturned]; rfl
    constructor
    · simpa [handoff, hheld, hqueue hreturned, hhandled] using hconserved
    · have hcounters := counters_of_run h
      simpa [hreturned, uncounted] using hcounters

/-- A run with one worker: the second connection is refused because the first still waits,
an exception ends the worker while it handles the first, and a stop finds the third in the
queue. -/
def sampleRun : List PoolAction :=
  [.acceptor .proceed, .acceptor .proceed, .acceptor .proceed, .acceptor .proceed,
    .acceptor .proceed, .acceptor (.poll true), .acceptor (.accept true), .acceptor .proceed,
    .acceptor .proceed, .acceptor (.notifyOne none),
    .acceptor .proceed, .acceptor (.poll true), .acceptor (.accept true), .acceptor .proceed,
    .acceptor .proceed,
    .worker 0 .proceed, .worker 0 .proceed, .worker 0 .proceed,
    .acceptor .proceed, .acceptor (.poll true), .acceptor (.accept true), .acceptor .proceed,
    .acceptor .proceed, .acceptor (.notifyOne none),
    .call, .stop 0, .worker 0 (.finish true), .stop 0,
    .acceptor .proceed, .acceptor .proceed, .acceptor .proceed, .stop 0,
    .acceptor .proceed, .acceptor .proceed]

/-- In that run all three connections are closed, one by the worker, one by the acceptor
and one at the end. -/
theorem connections_conserved_sample :
    ∃ s, (machine 1).run sampleRun = some s ∧ s.arrivals = 3 ∧
      s.closed.Perm (List.range s.arrivals) ∧
      s.connectionsAccepted + s.connectionsRejected = UInt64.ofNat s.arrivals := by
  obtain ⟨s, hs, hreturned, harrivals⟩ := (machine 1).exists_of_run_any sampleRun
    (fun s => s.acceptor = .returned ∧ s.arrivals = 3) (by decide +kernel)
  obtain ⟨-, -, -, -, hend⟩ := connections_conserved 1 sampleRun s hs
  exact ⟨s, hs, harrivals, hend hreturned⟩

end Pool

end PqtlsLab
