import PqtlsLab.Client.Benchmark
import PqtlsLab.Connection.RecordText

/-!
# The accounts of a benchmark

A measured connection is outstanding, claimed by a worker, abandoned by a worker that is
about to report it, or counted in the summary; the sum of these never changes. A worker
returns only after it has seen that nothing is outstanding, so at the end everything is
counted. Warm-up connections are accounted for in the same way, except that nothing counts
them but the metrics writer.
-/

namespace PqtlsLab

namespace Benchmark

/-- What one step of a worker can do. -/
inductive WorkerMove (lib : JsonLibrary) (config : ClientConfig) (s : BenchmarkState) :
    BenchmarkWorker → BenchmarkInput → BenchmarkState → BenchmarkWorker → Prop where
  /-- The client is constructed. -/
  | construct (label : Label) :
      WorkerMove lib config s .starting (.construct (.ok label)) s
        (.loading (.warmup (Message.makeRequest label .ping JsonValue.null)))
  /-- The client is not constructed. -/
  | fail (what : Bytes) :
      WorkerMove lib config s .starting (.construct (.error what)) s (.draining what)
  /-- All outstanding connections are taken. -/
  | drain (what : Bytes) :
      WorkerMove lib config s (.draining what) .proceed { s with remaining := 0 }
        (.abandoning s.remaining what)
  /-- The connections that were taken are reported as failures. -/
  | abandon (abandoned : UInt32) (what : Bytes) :
      WorkerMove lib config s (.abandoning abandoned what) .proceed
        { s with summary := s.summary.abandon abandoned what } .finished
  /-- The counter is loaded. -/
  | load (phase : Phase) :
      WorkerMove lib config s (.loading phase) .proceed s (testClaim phase (s.counter phase))
  /-- The compare-exchange fails. -/
  | retry (phase : Phase) (current : UInt32) (positive : current > 0) (spurious : Bool) :
      WorkerMove lib config s (.claiming phase current positive) (.compareExchange spurious) s
        (testClaim phase (s.counter phase))
  /-- The compare-exchange succeeds. -/
  | claim (phase : Phase) (positive : s.counter phase > 0) :
      WorkerMove lib config s (.claiming phase (s.counter phase) positive)
        (.compareExchange false) (s.setCounter phase (s.counter phase - 1)) (.claimed phase)
  /-- `run_once` is called. -/
  | call (phase : Phase) (labels : ℕ → Label) :
      WorkerMove lib config s (.claimed phase) (.request labels)
        { s with attempts := s.attempts ++ [⟨phase, requests config labels phase⟩] }
        (.connecting phase)
  /-- `run_once` throws. -/
  | throw (phase : Phase) (outcome : Except Thrown ClientResult) :
      WorkerMove lib config s (.connecting phase) (.connect outcome) s (.terminated phase)
  /-- `run_once` returns, with its record written. -/
  | complete (phase : Phase) (result : ClientResult) (writer : MetricsWriter)
      (written : s.writer.write lib result.metrics = (writer, .ok ())) :
      WorkerMove lib config s (.connecting phase) (.connect (.ok result))
        { s with writer := writer, returned := s.returned ++ [(phase, result.metrics)] }
        (afterConnection result phase)
  /-- A measured connection is reported. -/
  | record (result : ClientResult) :
      WorkerMove lib config s (.recording result) .proceed
        { s with summary := s.summary.record result } (.loading .measured)

variable {lib : JsonLibrary} {config : ClientConfig} {writer : MetricsWriter}
variable {s s' : BenchmarkState} {w w' : BenchmarkWorker} {x : BenchmarkInput}

/-- Every step is one of these. -/
theorem workerMove_of_step (h : workerStep lib config s w x = some (s', w')) :
    WorkerMove lib config s w x s' w' := by
  unfold workerStep at h
  split at h
  · cases h
    exact .construct _
  · cases h
    exact .fail _
  · cases h
    exact .drain _
  · cases h
    exact .abandon _ _
  · cases h
    exact .load _
  · split at h
    · rename_i heq
      obtain ⟨rfl, rfl⟩ := heq
      cases h
      exact .claim _ _
    · cases h
      exact .retry _ _ _ _
  · cases h
    exact .call _ _
  · cases h
    exact .throw _ _
  · rename_i phase result
    cases hwrite : s.writer.write lib result.metrics with
    | mk writer outcome =>
      cases outcome with
      | ok u =>
        simp only [writeRecord, hwrite, Option.some.injEq, Prod.mk.injEq] at h
        obtain ⟨rfl, rfl⟩ := h
        exact .complete _ _ _ hwrite
      | error e =>
        simp only [writeRecord, hwrite, Option.some.injEq, Prod.mk.injEq] at h
        obtain ⟨rfl, rfl⟩ := h
        obtain rfl := MetricsWriter.eq_of_write_error hwrite
        exact .throw _ _
  · cases h
    exact .record _
  · cases h

/-- The measured connections that a worker has taken and the summary does not count yet. -/
def openConnections : BenchmarkWorker → ℕ
  | .abandoning abandoned _ => abandoned.toNat
  | .claimed .measured | .connecting .measured | .terminated .measured | .recording _ => 1
  | _ => 0

/-- A test of the loop takes no connection. -/
@[simp]
theorem openConnections_testClaim (phase : Phase) (current : UInt32) :
    openConnections (testClaim phase current) = 0 := by
  unfold testClaim
  split
  · rfl
  · cases phase <;> rfl

/-- The outstanding connections and those that the summary counts. -/
def counted (s : BenchmarkState) : ℕ :=
  s.remaining.toNat + (s.summary.successful.toNat + s.summary.failed.toNat)

/-- A counter that has passed the test of the loop can be decremented. -/
theorem toNat_pred {n : UInt32} (h : n > 0) : (n - 1).toNat + 1 = n.toNat := by
  have hpos : 0 < n.toNat := UInt32.lt_iff_toNat_lt.mp h
  have hone : (1 : UInt32) ≤ n := UInt32.le_iff_toNat_le.mpr hpos
  rw [UInt32.toNat_sub_of_le _ _ hone, UInt32.toNat_one]
  omega

/-- A counter that does not grow stays at zero. -/
theorem eq_zero_of_le {m n : UInt32} (h : m ≤ n) (hn : n = 0) : m = 0 := by
  rw [hn, UInt32.le_iff_toNat_le, UInt32.toNat_zero] at h
  exact UInt32.toNat_inj.mp (by simpa using h)

/-- A step keeps the number of measured connections, as long as the counters cannot
overflow. -/
theorem counted_of_move (hle : counted s + openConnections w ≤ config.connections.toNat)
    (h : WorkerMove lib config s w x s' w') :
    counted s' + openConnections w' = counted s + openConnections w := by
  have hlt := config.connections.toNat_lt
  cases h with
  | construct label => rfl
  | fail what => rfl
  | drain what =>
    simp only [counted, openConnections, UInt32.toNat_zero]
    omega
  | abandon abandoned what =>
    simp only [counted, openConnections] at hle
    simp only [counted, openConnections, BenchmarkSummary.abandon, UInt32.toNat_add]
    omega
  | load phase =>
    rw [openConnections_testClaim]
    rfl
  | retry phase current positive spurious =>
    rw [openConnections_testClaim]
    rfl
  | claim phase positive =>
    cases phase with
    | warmup request => rfl
    | measured =>
      have hpred := toNat_pred positive
      simp only [counted, openConnections, BenchmarkState.setCounter, BenchmarkState.counter]
        at hpred ⊢
      omega
  | call phase labels => cases phase <;> rfl
  | throw phase outcome => cases phase <;> rfl
  | complete phase result writer written => cases phase <;> rfl
  | record result =>
    simp only [counted, openConnections] at hle
    simp only [counted, openConnections, BenchmarkSummary.record]
    split
    · simp only [UInt32.toNat_add, UInt32.toNat_one]
      omega
    · simp only [UInt32.toNat_add, UInt32.toNat_one]
      omega

/-- Every measured connection is outstanding, taken or counted, at any time. -/
theorem counted_of_run {actions : List (ℕ × BenchmarkInput)}
    {s : Threaded BenchmarkState BenchmarkWorker}
    (h : (machine lib config writer).run actions = some s) :
    counted s.shared + total openConnections s.threads = config.connections.toNat := by
  refine Machine.run_conserves (J := fun _ => True) (P := fun _ => True) ?_ (fun _ _ => trivial)
    (fun _ _ hle hstep => ⟨trivial, counted_of_move hle (workerMove_of_step hstep)⟩)
    (fun _ _ => trivial) h
  simp [counted, openConnections]

/-- No step increases a counter of outstanding connections, as one that wrapped below zero
would. -/
theorem counters_le_of_move (h : WorkerMove lib config s w x s' w') :
    s'.remaining ≤ s.remaining ∧ s'.warmupRemaining ≤ s.warmupRemaining := by
  cases h with
  | drain what => exact ⟨UInt32.le_iff_toNat_le.mpr (Nat.zero_le _), UInt32.le_refl _⟩
  | claim phase positive =>
    have hpred := toNat_pred positive
    have hle : s.counter phase - 1 ≤ s.counter phase := UInt32.le_iff_toNat_le.mpr (by omega)
    cases phase with
    | warmup request => exact ⟨UInt32.le_refl _, hle⟩
    | measured => exact ⟨hle, UInt32.le_refl _⟩
  | _ => exact ⟨UInt32.le_refl _, UInt32.le_refl _⟩

/-- The worker has seen that no measured connection is outstanding. -/
def SeesNone : BenchmarkWorker → Prop
  | .abandoning _ _ | .finished => True
  | _ => False

/-- A worker that leaves the loop has seen the counter at zero. -/
theorem remaining_of_testClaim {phase : Phase} {current : UInt32}
    (h : SeesNone (testClaim phase current)) : phase.isMeasured = true ∧ current = 0 := by
  unfold testClaim at h
  split at h
  · exact h.elim
  · rename_i hzero
    cases phase with
    | warmup request => exact h.elim
    | measured => exact ⟨rfl, by simpa [UInt32.lt_iff_toNat_lt, ← UInt32.toNat_inj] using hzero⟩

/-- Once a worker has seen that nothing is outstanding, nothing is. -/
theorem remaining_of_move (hw : SeesNone w → s.remaining = 0)
    (h : WorkerMove lib config s w x s' w') :
    (SeesNone w' → s'.remaining = 0) ∧ (s.remaining = 0 → s'.remaining = 0) := by
  have hkeep := eq_zero_of_le (counters_le_of_move h).1
  refine ⟨fun hsees => ?_, hkeep⟩
  cases h with
  | drain what => rfl
  | abandon abandoned what => exact hkeep (hw trivial)
  | load phase =>
    obtain ⟨hphase, hzero⟩ := remaining_of_testClaim hsees
    cases phase with
    | warmup request => cases hphase
    | measured => exact hzero
  | retry phase current positive spurious =>
    obtain ⟨hphase, hzero⟩ := remaining_of_testClaim hsees
    cases phase with
    | warmup request => cases hphase
    | measured => exact hzero
  | complete phase result writer written => cases phase <;> exact hsees.elim
  | _ => exact hsees.elim

/-- A worker has returned, or is about to report what it has taken, only if no measured
connection is outstanding. -/
theorem remaining_of_run {actions : List (ℕ × BenchmarkInput)}
    {s : Threaded BenchmarkState BenchmarkWorker}
    (h : (machine lib config writer).run actions = some s) :
    ∀ w ∈ s.threads, SeesNone w → s.shared.remaining = 0 := by
  refine Machine.run_forall (P := fun _ => True) (J := fun s w => SeesNone w → s.remaining = 0)
    ?_ ?_ (fun _ _ => trivial) h
  · intro w hw hsees
    rw [List.eq_of_mem_replicate hw] at hsees
    exact hsees.elim
  · intro u w x u' w' _ hw hstep
    obtain ⟨hnext, hkeep⟩ := remaining_of_move hw (workerMove_of_step hstep)
    exact ⟨hnext, fun v hv hsees => hkeep (hv hsees)⟩

/-- The summary has one sample of each kind for every successful connection. -/
def Sampled (summary : BenchmarkSummary) : Prop :=
  summary.handshakeMs.length = summary.successful.toNat ∧
    summary.connectionMs.length = summary.successful.toNat

/-- A step keeps the number of samples, as long as the counters cannot overflow. -/
theorem sampled_of_move (hle : counted s + openConnections w ≤ config.connections.toNat)
    (hs : Sampled s.summary) (h : WorkerMove lib config s w x s' w') : Sampled s'.summary := by
  have hlt := config.connections.toNat_lt
  cases h with
  | claim phase positive => cases phase <;> exact hs
  | record result =>
    simp only [counted, openConnections] at hle
    simp only [Sampled, BenchmarkSummary.record]
    split
    · simp only [List.length_append, List.length_singleton, UInt32.toNat_add, UInt32.toNat_one,
        hs.1, hs.2]
      omega
    · exact hs
  | _ => exact hs

/-- The summary has one sample of each kind for every successful connection, at any time. -/
theorem sampled_of_run {actions : List (ℕ × BenchmarkInput)}
    {s : Threaded BenchmarkState BenchmarkWorker}
    (h : (machine lib config writer).run actions = some s) : Sampled s.shared.summary := by
  refine Machine.run_induction _ (I := fun _ s => Sampled s.shared.summary) ⟨rfl, rfl⟩ ?_ h
  intro actions s a t hrun hs hstep
  obtain ⟨w, u, v, hw, hcall, rfl⟩ := Machine.ofThreads_step_eq_some_iff.mp hstep
  have hcounted := counted_of_run hrun
  have hworker := le_total openConnections (List.mem_of_getElem? hw)
  have hle : counted s.shared + openConnections w ≤ config.connections.toNat := by omega
  exact sampled_of_move hle hs (workerMove_of_step hcall)

/-- The outstanding connections of a loop. -/
def outstanding (measured : Bool) (s : BenchmarkState) : ℕ :=
  bif measured then s.remaining.toNat else s.warmupRemaining.toNat

/-- The connections of a loop that have been started. -/
def started (measured : Bool) (s : BenchmarkState) : ℕ :=
  s.attempts.countP fun attempt => attempt.phase.isMeasured == measured

/-- The connections of a loop that a worker has claimed but not started. -/
def unstarted (measured : Bool) : BenchmarkWorker → ℕ
  | .claimed phase => if phase.isMeasured == measured then 1 else 0
  | _ => 0

/-- A test of the loop claims no connection. -/
@[simp]
theorem unstarted_testClaim (measured : Bool) (phase : Phase) (current : UInt32) :
    unstarted measured (testClaim phase current) = 0 := by
  unfold testClaim
  split
  · rfl
  · cases phase <;> rfl

/-- A connection is claimed before it is started. -/
theorem started_of_move (measured : Bool) (h : WorkerMove lib config s w x s' w') :
    outstanding measured s' + started measured s' + unstarted measured w' ≤
      outstanding measured s + started measured s + unstarted measured w := by
  cases h with
  | drain what =>
    cases measured <;> simp [outstanding, started, unstarted]
  | load phase =>
    rw [unstarted_testClaim]
    simp
  | retry phase current positive spurious =>
    rw [unstarted_testClaim]
    simp
  | claim phase positive =>
    have hpred := toNat_pred positive
    cases phase <;> cases measured <;>
      simp [outstanding, started, unstarted, BenchmarkState.setCounter, BenchmarkState.counter,
        Phase.isMeasured] at hpred ⊢ <;> omega
  | call phase labels =>
    simp only [outstanding, started, unstarted, List.countP_append, List.countP_singleton]
    omega
  | complete phase result writer written =>
    cases phase <;> simp [outstanding, started, unstarted, afterConnection]
  | _ => simp [outstanding, started, unstarted]

/-- No more connections of a loop are started than there were outstanding initially. -/
theorem started_of_run (measured : Bool) {actions : List (ℕ × BenchmarkInput)}
    {s : Threaded BenchmarkState BenchmarkWorker}
    (h : (machine lib config writer).run actions = some s) :
    started measured s.shared ≤
      bif measured then config.connections.toNat else config.warmupConnections.toNat := by
  have hbound := Machine.run_bounded (q := fun s => outstanding measured s + started measured s)
    (f := unstarted measured) ?_ (fun hstep => started_of_move measured (workerMove_of_step hstep))
    h (K := bif measured then config.connections.toNat else config.warmupConnections.toNat)
  · omega
  · cases measured <;> simp [outstanding, started, unstarted]

/-- The summary keeps the number of requested connections. -/
theorem requestedConnections_of_run {actions : List (ℕ × BenchmarkInput)}
    {s : Threaded BenchmarkState BenchmarkWorker}
    (h : (machine lib config writer).run actions = some s) :
    s.shared.summary.requestedConnections = config.connections := by
  refine Machine.run_shared (I := fun s => s.summary.requestedConnections = config.connections)
    rfl ?_ h
  intro u w x u' w' hu hstep
  cases workerMove_of_step hstep with
  | claim phase positive => cases phase <;> exact hu
  | record result =>
    simp only [BenchmarkSummary.record]
    split <;> exact hu
  | _ => exact hu

/-- There are as many workers as the configuration says. -/
theorem length_threads_of_run {actions : List (ℕ × BenchmarkInput)}
    {s : Threaded BenchmarkState BenchmarkWorker}
    (h : (machine lib config writer).run actions = some s) :
    s.threads.length = concurrency config := by
  rw [Machine.length_threads_of_run h, List.length_replicate]

/-- A validated configuration has a worker. -/
theorem concurrency_pos {production : Bool} (h : config.validate production = .ok ()) :
    0 < concurrency config := by
  obtain ⟨hconnections, hconcurrency, -⟩ := ClientConfig.counts_of_validate h
  exact lt_min hconcurrency hconnections

/-- When all workers of a validated configuration have returned, nothing is outstanding and
no worker holds anything. -/
theorem remaining_of_finished {production : Bool} (hvalid : config.validate production = .ok ())
    {actions : List (ℕ × BenchmarkInput)} {s : Threaded BenchmarkState BenchmarkWorker}
    (h : (machine lib config writer).run actions = some s) (hfinished : Finished s) :
    s.shared.remaining = 0 := by
  have hpos := concurrency_pos hvalid
  rw [← length_threads_of_run h] at hpos
  obtain ⟨w, hw⟩ := List.exists_mem_of_length_pos hpos
  apply remaining_of_run h w hw
  rw [hfinished w hw]
  trivial

/-- Whatever the interleaving of the workers, whichever clients cannot be constructed and
whatever `run_once` returns: no counter of outstanding connections ever grows, no more
connections are started than the configuration asks for, and when all workers have
returned, every requested connection is counted exactly once as successful or failed and
every successful one has left one sample of each kind. -/
theorem run_benchmark_accounts (production : Bool) (config : ClientConfig)
    (hvalid : config.validate production = .ok ()) (lib : JsonLibrary) (writer : MetricsWriter)
    (actions : List (ℕ × BenchmarkInput)) (s : Threaded BenchmarkState BenchmarkWorker)
    (hrun : (machine lib config writer).run actions = some s) :
    (Finished s →
      s.shared.summary.requestedConnections = config.connections ∧
      s.shared.summary.successful.toNat + s.shared.summary.failed.toNat =
        s.shared.summary.requestedConnections.toNat ∧
      s.shared.summary.handshakeMs.length = s.shared.summary.successful.toNat ∧
      s.shared.summary.connectionMs.length = s.shared.summary.successful.toNat) ∧
    (∀ a t, (machine lib config writer).step s a = some t →
      t.shared.remaining ≤ s.shared.remaining ∧
        t.shared.warmupRemaining ≤ s.shared.warmupRemaining) ∧
    started true s.shared ≤ config.connections.toNat ∧
    started false s.shared ≤ config.warmupConnections.toNat := by
  refine ⟨fun hfinished => ?_, fun a t ht => ?_, started_of_run true hrun,
    started_of_run false hrun⟩
  · have hrequested := requestedConnections_of_run hrun
    have hcounted := counted_of_run hrun
    have hopen : total openConnections s.threads = 0 := by
      apply total_eq_zero
      intro w hw
      rw [hfinished w hw]
      rfl
    rw [counted, remaining_of_finished hvalid hrun hfinished, hopen, UInt32.toNat_zero] at hcounted
    refine ⟨hrequested, ?_, sampled_of_run hrun⟩
    rw [hrequested]
    omega
  · obtain ⟨w, u, v, -, hcall, rfl⟩ := Machine.ofThreads_step_eq_some_iff.mp ht
    exact counters_le_of_move (workerMove_of_step hcall)

/-- Two connections and one for warming up, by two workers. -/
def sampleConfig : ClientConfig := { connections := 2, concurrency := 2, warmupConnections := 1 }

/-- A run in which the second worker has no client and takes what is outstanding while the
first one is connecting. -/
def sampleRun : List (ℕ × BenchmarkInput) :=
  [(0, .construct (.ok Label.sample)), (0, .proceed), (0, .compareExchange false),
    (0, .request fun _ => Label.sample), (0, .connect (.ok { ok := true })), (0, .proceed),
    (0, .proceed), (1, .construct (.error (ascii "unavailable"))), (0, .compareExchange true),
    (0, .compareExchange false), (1, .proceed), (0, .request fun _ => Label.sample),
    (1, .proceed), (0, .connect (.ok { ok := true })), (0, .proceed), (0, .proceed)]

/-- In that run one connection succeeds and one is reported as failed. -/
theorem run_benchmark_accounts_sample :
    ∃ s, (machine (.ofTable []) sampleConfig ⟨false, [], []⟩).run sampleRun = some s ∧
      Finished s ∧ s.shared.summary.successful = 1 ∧
      s.shared.summary.successful.toNat + s.shared.summary.failed.toNat = 2 := by
  obtain ⟨s, hs, hfinished, hsuccessful⟩ :=
    (machine (.ofTable []) sampleConfig ⟨false, [], []⟩).exists_of_run_any sampleRun
      (fun s => Finished s ∧ s.shared.summary.successful = 1) (by decide +kernel)
  obtain ⟨hrequested, hsum, -⟩ :=
    (run_benchmark_accounts false sampleConfig rfl _ _ sampleRun s hs).1 hfinished
  rw [hrequested] at hsum
  exact ⟨s, hs, hfinished, hsuccessful, hsum⟩

end Benchmark

end PqtlsLab
