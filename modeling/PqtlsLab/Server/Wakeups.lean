import PqtlsLab.Server.PoolMoves

/-!
# Wake-ups at the end

A worker that finds nothing to do evaluates its predicate under the mutex and then blocks.
`stop()` and the end of `run()` store the flag and notify the workers without the mutex, so
both notifications can fall between a worker's evaluation of the predicate and its blocking.
Such a worker is never woken again, and `run()` waits for it.
-/

namespace PqtlsLab

namespace Pool

variable {maxConnections : UInt32} {s t : Pool}

/-- The acceptor has left the accept loop. -/
def PastLoop : Acceptor → Prop
  | .leaving | .waking | .joining | .draining | .returned => True
  | _ => False

/-- The acceptor has executed its `notify_all`. -/
def HasWoken : Acceptor → Prop
  | .joining | .draining | .returned => True
  | _ => False

instance : DecidablePred HasWoken := fun a =>
  match a with
  | .joining | .draining | .returned => .isTrue trivial
  | .entering | .resetting | .spawning | .testing | .polling | .accepting | .holding _
  | .refusing _ | .counting | .notifying | .leaving | .waking => .isFalse id

/-- Both a call of `stop()` and `run()` have executed their `notify_all`. -/
def Announced (s : Pool) : Prop := .finished ∈ s.stops ∧ HasWoken s.acceptor

instance (s : Pool) : Decidable (Announced s) := inferInstanceAs (Decidable (_ ∧ _))

/-- No worker is blocked or about to block. -/
def NoneWaits (s : Pool) : Prop := ∀ w ∈ s.workers, w ≠ .blocked ∧ w ≠ .blocking

/-- Some worker can go on, without a wake-up that has no reason. -/
def WorkerCanStep (maxConnections : UInt32) (s : Pool) : Prop :=
  ∃ i input t, input ≠ .spurious ∧ (machine maxConnections).step s (.worker i input) = some t

/-- Once the flag is set and both notifications have been given, no worker waits, and as
long as `run()` waits for the workers one of them can go on. -/
def WokenUp (maxConnections : UInt32) (s : Pool) : Prop :=
  s.stopping = true → Announced s →
    NoneWaits s ∧ ((∀ w ∈ s.workers, w = .exited) ∨ WorkerCanStep maxConnections s)

/-- The step is a `notify_all` after which both notifications have been given. -/
def Completes (s : Pool) : PoolAction → Prop
  | .acceptor .proceed => s.acceptor = .waking ∧ .finished ∈ s.stops
  | .stop j => s.stops[j]? = some .notifying ∧ HasWoken s.acceptor
  | _ => False

instance (s : Pool) (a : PoolAction) : Decidable (Completes s a) :=
  match a with
  | .acceptor .proceed => inferInstanceAs (Decidable (_ ∧ _))
  | .stop _ => inferInstanceAs (Decidable (_ ∧ _))
  | .acceptor (.poll _) | .acceptor (.accept _) | .acceptor (.notifyOne _) | .worker _ _
  | .call => .isFalse id

/-- No worker has evaluated its predicate and not blocked yet when the second notification
is given. -/
def TimelyNotify (s : Pool) (a : PoolAction) : Prop := Completes s a → .blocking ∉ s.workers

instance (s : Pool) (a : PoolAction) : Decidable (TimelyNotify s a) :=
  inferInstanceAs (Decidable (_ → _))

/-- The flag stays set after the accept loop has ended. -/
theorem stopping_of_move {a : PoolAction} (hs : PastLoop s.acceptor → s.stopping = true)
    (h : Move maxConnections s a t) : PastLoop t.acceptor → t.stopping = true := by
  cases h with
  | leave control stopping => exact fun _ => stopping
  | unlisten control | wake control | join control exited | drain control =>
    exact fun _ => hs (control ▸ trivial)
  | store j control => exact fun _ => rfl
  | spawn control few | lock i control free | grant i control | hesitate i control going
  | block i control | rouse i control | retry i control w next | pop i id rest control front
  | finish i id throws control w next | call | clear j control | wakeAll j control => exact hs
  | _ => exact False.elim

/-- After a notification of all workers none is blocked. -/
theorem noneWaits_wake {workers : List PoolWorker} (h : .blocking ∉ workers) :
    ∀ w ∈ workers.map PoolWorker.wake, w ≠ .blocked ∧ w ≠ .blocking := by
  intro w hw
  obtain ⟨v, hv, rfl⟩ := List.mem_map.mp hw
  cases v with
  | blocking => exact absurd hv h
  | _ => exact ⟨nofun, nofun⟩

/-- The move of a worker to a place where it does not wait. -/
theorem noneWaits_set {workers : List PoolWorker} {i : ℕ} {v : PoolWorker}
    (h : ∀ w ∈ workers, w ≠ .blocked ∧ w ≠ .blocking) (hv : v ≠ .blocked ∧ v ≠ .blocking) :
    ∀ w ∈ workers.set i v, w ≠ .blocked ∧ w ≠ .blocking := by
  intro w hw
  rcases List.mem_or_eq_of_mem_set hw with hmem | rfl
  · exact h w hmem
  · exact hv

/-- The acceptor has left the accept loop when it notifies the workers. -/
theorem pastLoop_of_hasWoken {a : Acceptor} (h : HasWoken a) : PastLoop a := by
  cases a <;> trivial

/-- If the second notification comes in time, no worker waits after it, and none ever does
later. -/
theorem noneWaits_of_move {a : PoolAction} (ha : TimelyNotify s a)
    (hstopping : PastLoop s.acceptor → s.stopping = true) (hs : Announced s → NoneWaits s)
    (h : Move maxConnections s a t) : Announced t → NoneWaits t := by
  rintro ⟨hstops, hwoken⟩
  cases h with
  | wake control => exact noneWaits_wake (ha ⟨control, hstops⟩)
  | wakeAll j control => exact noneWaits_wake (ha ⟨control, hwoken⟩)
  | join control exited => exact hs ⟨hstops, control ▸ trivial⟩
  | drain control => exact hs ⟨hstops, control ▸ trivial⟩
  | hesitate i control going =>
    rw [hstopping (pastLoop_of_hasWoken hwoken)] at going
    cases going
  | block i control =>
    exact absurd rfl (hs ⟨hstops, hwoken⟩ _ (List.mem_of_getElem? control)).2
  | lock i control free | grant i control | rouse i control | pop i id rest control front =>
    exact noneWaits_set (hs ⟨hstops, hwoken⟩) ⟨nofun, nofun⟩
  | retry i control w next | finish i id throws control w next =>
    refine noneWaits_set (hs ⟨hstops, hwoken⟩) ?_
    rcases next with rfl | rfl <;> exact ⟨nofun, nofun⟩
  | call => exact hs ⟨by simpa using hstops, hwoken⟩
  | store j control | clear j control =>
    rcases List.mem_or_eq_of_mem_set hstops with hmem | heq
    · exact hs ⟨hmem, hwoken⟩
    · cases heq
  | spawn control few =>
    rw [control] at hwoken
    exact hwoken.elim
  | _ => exact hwoken.elim

/-- A notification of all workers does not reach one that is about to block. -/
theorem blocking_of_completes {a : PoolAction} (hcompletes : Completes s a)
    (hblocking : .blocking ∈ s.workers) (h : Move maxConnections s a t) :
    Announced t ∧ t.stopping = s.stopping ∧ .blocking ∈ t.workers ∧ PastLoop s.acceptor := by
  have hmem : .blocking ∈ s.workers.map PoolWorker.wake :=
    List.mem_map.mpr ⟨.blocking, hblocking, rfl⟩
  cases h with
  | wake control => exact ⟨⟨hcompletes.2, trivial⟩, rfl, hmem, control ▸ trivial⟩
  | wakeAll j control =>
    obtain ⟨hj, -⟩ := List.getElem?_eq_some_iff.mp control
    exact ⟨⟨List.mem_set hj _, hcompletes.2⟩, rfl, hmem, pastLoop_of_hasWoken hcompletes.2⟩
  | store j control | clear j control =>
    rw [hcompletes.1] at control
    cases control
  | lock i control free | grant i control | hesitate i control going | block i control
  | rouse i control | retry i control w next | pop i id rest control front
  | finish i id throws control w next | call | ready control | idle control | accept control
  | miss control | notify i control blocked | nobody control => exact hcompletes.elim
  | _ =>
    rw [hcompletes.1] at *
    contradiction

/-- Whether a worker holds the mutex. -/
def holdsMutex : PoolWorker → ℕ
  | .checking | .blocking | .granted => 1
  | _ => 0

/-- A worker that keeps the mutex, or does without it as before, changes no holder. -/
theorem holders_keep (hs : total holdsMutex s.workers = s.locked.toNat) {i : ℕ} {w v : PoolWorker}
    (hw : s.workers[i]? = some w) (hv : holdsMutex v = holdsMutex w) :
    total holdsMutex (s.workers.set i v) = s.locked.toNat := by
  have hset := total_set holdsMutex hw v
  omega

/-- A worker that releases the mutex was its only holder. -/
theorem holders_release (hs : total holdsMutex s.workers = s.locked.toNat) {i : ℕ}
    {w v : PoolWorker} (hw : s.workers[i]? = some w) (hheld : holdsMutex w = 1)
    (hv : holdsMutex v = 0) : total holdsMutex (s.workers.set i v) = 0 := by
  have hle : s.locked.toNat ≤ 1 := Bool.toNat_le s.locked
  have hset := total_set holdsMutex hw v
  omega

/-- The mutex is held by exactly one worker, or it is free. -/
theorem holders_of_move {a : PoolAction} (hs : total holdsMutex s.workers = s.locked.toNat)
    (h : Move maxConnections s a t) : total holdsMutex t.workers = t.locked.toNat := by
  cases h with
  | spawn control few => simpa [total_append, total, holdsMutex] using hs
  | wake control | wakeAll j control =>
    rw [total_map (by intro w; cases w <;> rfl)]
    exact hs
  | lock i control free =>
    have hset := total_set holdsMutex control .checking
    simp only [holdsMutex, free, Bool.toNat_false, Bool.toNat_true] at hset hs ⊢
    omega
  | notify i control blocked => exact holders_keep hs blocked rfl
  | grant i control | hesitate i control going | rouse i control =>
    exact holders_keep hs control rfl
  | finish i id throws control w next =>
    refine holders_keep hs control ?_
    rcases next with rfl | rfl <;> rfl
  | block i control | pop i id rest control front => exact holders_release hs control rfl rfl
  | retry i control w next =>
    refine holders_release hs control rfl ?_
    rcases next with rfl | rfl <;> rfl
  | _ => exact hs

/-- If no worker waits, one that has not ended can go on, or the one that holds the mutex
can. -/
theorem workerCanStep_of_noneWaits (hlock : total holdsMutex s.workers = s.locked.toNat)
    (hnone : NoneWaits s) (hlive : ¬ ∀ w ∈ s.workers, w = .exited) :
    WorkerCanStep maxConnections s := by
  have hstep {i : ℕ} {w : PoolWorker} (hw : s.workers[i]? = some w) (input : PoolWorkerInput) :
      (machine maxConnections).step s (.worker i input) = s.workerStep i w input := by
    simp [machine, hw]
  by_cases hholder : ∃ w ∈ s.workers, holdsMutex w = 1
  · obtain ⟨w, hw, hholds⟩ := hholder
    obtain ⟨i, hi⟩ := List.mem_iff_getElem?.mp hw
    cases w with
    | checking => exact ⟨i, .proceed, _, nofun, hstep hi _⟩
    | granted =>
      cases hqueue : s.queue with
      | nil => exact ⟨i, .proceed, _, nofun, by rw [hstep hi, workerStep, hqueue]⟩
      | cons id rest => exact ⟨i, .proceed, _, nofun, by rw [hstep hi, workerStep, hqueue]⟩
    | blocking => exact absurd rfl (hnone _ hw).2
    | _ => cases hholds
  · have hfree : s.locked = false := by
      have hzero : total holdsMutex s.workers = 0 := by
        apply total_eq_zero
        intro w hw
        have hne : holdsMutex w ≠ 1 := fun h => hholder ⟨w, hw, h⟩
        cases w <;> first | rfl | exact absurd rfl hne
      rw [hzero] at hlock
      cases hlocked : s.locked with
      | false => rfl
      | true => simp [hlocked] at hlock
    push Not at hlive
    obtain ⟨w, hw, hne⟩ := hlive
    obtain ⟨i, hi⟩ := List.mem_iff_getElem?.mp hw
    cases w with
    | locking =>
      exact ⟨i, .proceed, _, nofun, by rw [hstep hi, workerStep, if_neg (by simp [hfree])]⟩
    | handling id => exact ⟨i, .finish false, _, nofun, hstep hi _⟩
    | blocked => exact absurd rfl (hnone _ hw).1
    | exited => exact absurd rfl hne
    | _ => exact absurd ⟨_, hw, rfl⟩ hholder

/-- In every run, no worker waits once the flag is set and both notifications have been
given, and the joins of `run()` are not stuck, if and only if no worker is between the
evaluation of its predicate and its blocking when the second notification is given. -/
theorem no_lost_wakeup_iff (maxConnections : UInt32) (actions : List PoolAction) (s : Pool)
    (h : (machine maxConnections).run actions = some s) :
    (machine maxConnections).Throughout (WokenUp maxConnections) actions ↔
      (machine maxConnections).EachStep TimelyNotify actions := by
  constructor
  · intro hwoken
    have hpast := (machine maxConnections).throughout_of_invariant
      (I := fun s => PastLoop s.acceptor → s.stopping = true) False.elim
      (fun s a t hs ht => stopping_of_move hs (move_of_step ht)) actions
    refine (machine maxConnections).eachStep_of_throughout ?_ h (hwoken.and hpast)
    rintro s a t ⟨-, hs⟩ ⟨ht, -⟩ hstep hcompletes hblocking
    obtain ⟨hannounced, hstopping, hmem, hloop⟩ :=
      blocking_of_completes hcompletes hblocking (move_of_step hstep)
    exact ((ht (hstopping.trans (hs hloop)) hannounced).1 _ hmem).2 rfl
  · intro hsteps
    have hinv := (machine maxConnections).throughout_of_eachStep
      (I := fun s => (PastLoop s.acceptor → s.stopping = true) ∧ (Announced s → NoneWaits s))
      ⟨False.elim, fun hannounced => hannounced.2.elim⟩
      (fun s a t ha hs ht => ⟨stopping_of_move hs.1 (move_of_step ht),
        noneWaits_of_move ha hs.1 hs.2 (move_of_step ht)⟩) hsteps
    have hlock := (machine maxConnections).throughout_of_invariant
      (I := fun s => total holdsMutex s.workers = s.locked.toNat) rfl
      (fun s a t hs ht => holders_of_move hs (move_of_step ht)) actions
    refine (hinv.and hlock).mono fun s hs _ hannounced => ?_
    obtain ⟨⟨-, hwaits⟩, hmutex⟩ := hs
    refine ⟨hwaits hannounced, or_iff_not_imp_left.mpr fun hlive => ?_⟩
    exact workerCanStep_of_noneWaits hmutex (hwaits hannounced) hlive

/-- The worker blocks before the server is stopped. -/
def wokenRun : List PoolAction :=
  [.acceptor .proceed, .acceptor .proceed, .acceptor .proceed, .acceptor .proceed,
    .worker 0 .proceed, .worker 0 .proceed, .worker 0 .proceed, .call, .stop 0, .stop 0, .stop 0,
    .acceptor .proceed, .acceptor .proceed, .acceptor .proceed, .worker 0 .proceed,
    .worker 0 .proceed, .worker 0 .proceed, .acceptor .proceed]

/-- A worker that blocks early enough is woken, and is joined. -/
theorem no_lost_wakeup_early :
    ∃ s, (machine 1).run wokenRun = some s ∧ s.acceptor = .draining ∧
      (machine 1).Throughout (WokenUp 1) wokenRun := by
  obtain ⟨s, hs, hjoined⟩ := (machine 1).exists_of_run_any wokenRun
    (fun s => s.acceptor = .draining) (by decide +kernel)
  exact ⟨s, hs, hjoined, (no_lost_wakeup_iff 1 wokenRun s hs).mpr (by decide +kernel)⟩

/-- The server is stopped after the worker has evaluated its predicate, and the worker
blocks only then. -/
def lostRun : List PoolAction :=
  [.acceptor .proceed, .acceptor .proceed, .acceptor .proceed, .acceptor .proceed,
    .worker 0 .proceed, .worker 0 .proceed, .call, .stop 0, .stop 0, .stop 0,
    .acceptor .proceed, .acceptor .proceed, .acceptor .proceed, .worker 0 .proceed]

/-- A worker can block after all notifications have been given. -/
theorem wakeup_lost :
    ¬ ∀ (maxConnections : UInt32) (actions : List PoolAction) (s : Pool),
      (machine maxConnections).run actions = some s → WokenUp maxConnections s := by
  intro h
  obtain ⟨s, hs, hstopping, hannounced, hblocked⟩ := (machine 1).exists_of_run_any lostRun
    (fun s => s.stopping = true ∧ Announced s ∧ .blocked ∈ s.workers) (by decide +kernel)
  obtain ⟨hnone, -⟩ := h 1 lostRun s hs hstopping hannounced
  exact (hnone _ hblocked).1 rfl

end Pool

end PqtlsLab
