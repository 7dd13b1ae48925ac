import PqtlsLab.Server.PoolMoves

/-!
# Requests to stop

A call of `stop()` stores the stop flag, and the accept loop ends when it next tests the
flag. `run()` itself stores `false` into the same flag when it starts, and nothing orders
that store before the calls of `stop()`: the signal handler is installed before `run()` is
called. A request that comes too early is therefore overwritten.
-/

namespace PqtlsLab

namespace Pool

variable {maxConnections : UInt32} {s t : Pool}

/-- The flag is set if a call of `stop()` has set it, and no connection has been accepted in
an iteration of the accept loop that began after that. -/
def StopKept (s : Pool) : Prop := (s.requested = true → s.stopping = true) ∧ s.lateAccepts = 0

/-- The step is not the store of `false` by `run()` after the flag has been set. -/
def KeepsRequest (s : Pool) (a : PoolAction) : Prop :=
  a = .acceptor .proceed → s.acceptor = .resetting → s.requested = false

instance (s : Pool) (a : PoolAction) : Decidable (KeepsRequest s a) :=
  inferInstanceAs (Decidable (_ → _ → _))

/-- The acceptor is in an iteration of the accept loop, before it has a connection. -/
def Seeking : Acceptor → Prop
  | .polling | .accepting => True
  | _ => False

/-- A step that does not overwrite a request keeps the flag, and with it the acceptor out of
an iteration that began after the request. -/
theorem stopKept_of_move {a : PoolAction} (ha : KeepsRequest s a)
    (hs : StopKept s ∧ (Seeking s.acceptor → s.lateIteration = false))
    (h : Move maxConnections s a t) :
    StopKept t ∧ (Seeking t.acceptor → t.lateIteration = false) := by
  obtain ⟨⟨hstopping, hlate⟩, hseeking⟩ := hs
  cases h with
  | reset control =>
    have hnone := ha rfl control
    exact ⟨⟨fun hrequested => by simp [hnone] at hrequested, hlate⟩, False.elim⟩
  | iterate control going =>
    refine ⟨⟨hstopping, hlate⟩, fun _ => ?_⟩
    cases hrequested : s.requested with
    | false => rfl
    | true => rw [hstopping hrequested] at going; cases going
  | ready control => exact ⟨⟨hstopping, hlate⟩, fun _ => hseeking (control ▸ trivial)⟩
  | accept control =>
    have hiteration := hseeking (control ▸ trivial)
    exact ⟨⟨hstopping, by simp [hiteration, hlate]⟩, False.elim⟩
  | store j control => exact ⟨⟨fun _ => rfl, hlate⟩, hseeking⟩
  | spawn control few | lock i control free | grant i control | hesitate i control going
  | block i control | rouse i control | retry i control w next | pop i id rest control front
  | finish i id throws control w next | call | clear j control | wakeAll j control =>
    exact ⟨⟨hstopping, hlate⟩, hseeking⟩
  | _ => exact ⟨⟨hstopping, hlate⟩, False.elim⟩

/-- In every run, a request to stop is kept, and no connection is accepted in an iteration
of the accept loop that began after it, if and only if `run()` never stores `false` after a
call of `stop()` has stored `true`. -/
theorem stop_kept_iff (maxConnections : UInt32) (actions : List PoolAction) (s : Pool)
    (h : (machine maxConnections).run actions = some s) :
    (machine maxConnections).Throughout StopKept actions ↔
      (machine maxConnections).EachStep KeepsRequest actions := by
  constructor
  · intro hkept
    refine (machine maxConnections).eachStep_of_throughout ?_ h hkept
    rintro s a t hs ht hstep rfl hcontrol
    simp only [machine, acceptorStep, hcontrol, Option.some.injEq] at hstep
    subst hstep
    cases hrequested : s.requested with
    | false => rfl
    | true => exact (ht.1 hrequested).symm
  · intro hsteps
    have hinv := (machine maxConnections).throughout_of_eachStep
      (I := fun s => StopKept s ∧ (Seeking s.acceptor → s.lateIteration = false))
      ⟨⟨nofun, rfl⟩, False.elim⟩
      (fun s a t ha hs ht => stopKept_of_move ha hs (move_of_step ht)) hsteps
    exact hinv.mono fun _ hs => hs.1

/-- A signal arrives when `run()` is in its accept loop. -/
def lateStop : List PoolAction :=
  [.acceptor .proceed, .acceptor .proceed, .acceptor .proceed, .acceptor .proceed, .call, .stop 0,
    .acceptor .proceed]

/-- A request that comes when `run()` is in its accept loop is kept. -/
theorem stop_kept_in_loop :
    ∃ s, (machine 1).run lateStop = some s ∧ s.acceptor = .leaving ∧
      (machine 1).Throughout StopKept lateStop := by
  obtain ⟨s, hs, hleaving⟩ := (machine 1).exists_of_run_any lateStop
    (fun s => s.acceptor = .leaving) (by decide +kernel)
  exact ⟨s, hs, hleaving, (stop_kept_iff 1 lateStop s hs).mpr (by decide +kernel)⟩

/-- A signal arrives before `run()` stores `false`; the server goes on to accept a
connection. -/
def earlyStop : List PoolAction :=
  [.call, .stop 0, .stop 0, .stop 0, .acceptor .proceed, .acceptor .proceed, .acceptor .proceed,
    .acceptor .proceed, .acceptor .proceed, .acceptor (.poll true), .acceptor (.accept true)]

/-- A request that comes before `run()` has initialised the flag is lost. -/
theorem early_stop_lost :
    ¬ ∀ (maxConnections : UInt32) (actions : List PoolAction) (s : Pool),
      (machine maxConnections).run actions = some s → StopKept s := by
  intro h
  obtain ⟨s, hs, hlost⟩ := (machine 1).exists_of_run_any earlyStop
    (fun s => s.requested = true ∧ s.stopping = false ∧ s.lateAccepts = 1) (by decide +kernel)
  have hlate := (h 1 earlyStop s hs).2
  omega

end Pool

end PqtlsLab
