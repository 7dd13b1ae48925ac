import PqtlsLab.Client.BenchmarkAccounting

/-!
# The records of a benchmark

The statistics of a benchmark are computed from the file of the metrics writer, not from
the summary. The writer is attached to the client before the warm-up loop, so `run_once`
appends a record for every warm-up connection as well as for every measured one; only the
results in memory are discarded.
-/

namespace PqtlsLab

namespace Benchmark

variable {lib : JsonLibrary} {config : ClientConfig} {writer : MetricsWriter}
variable {s s' : BenchmarkState} {w w' : BenchmarkWorker} {x : BenchmarkInput}

/-- The records of the measured connections that have come back. -/
def measuredRecords (s : BenchmarkState) : List ConnectionMetrics :=
  (s.returned.filter fun r => r.1.isMeasured).map Prod.snd

/-- What has been appended to the file since the start are the records of the measured
connections, as many as were requested, and nothing else. -/
def RecordsMeasurements (before : MetricsWriter) (s : BenchmarkState) : Prop :=
  s.writer.records = before.records ++ measuredRecords s ∧
    (measuredRecords s).length = s.summary.requestedConnections.toNat

/-- The connections of a loop that have come back. -/
def completed (measured : Bool) (s : BenchmarkState) : ℕ :=
  s.returned.countP fun r => r.1.isMeasured == measured

/-- The connections of a loop that a worker has claimed and that have not come back. -/
def pending (measured : Bool) : BenchmarkWorker → ℕ
  | .claimed phase | .connecting phase | .terminated phase =>
    if phase.isMeasured == measured then 1 else 0
  | _ => 0

/-- A test of the loop leaves no connection pending. -/
@[simp]
theorem pending_testClaim (measured : Bool) (phase : Phase) (current : UInt32) :
    pending measured (testClaim phase current) = 0 := by
  unfold testClaim
  split
  · rfl
  · cases phase <;> rfl

/-- The worker has a client, or does not need to know yet. -/
def HasClient : BenchmarkWorker → Prop
  | .draining _ | .abandoning _ _ => False
  | _ => True

/-- The worker has left the warm-up loop. -/
def PastWarmup : BenchmarkWorker → Prop
  | .loading phase | .claiming phase _ _ | .claimed phase | .connecting phase | .terminated phase =>
    phase.isMeasured = true
  | .recording _ | .finished => True
  | _ => False

/-- A test of the loop needs a client, and ends the warm-up loop only if nothing is left to
claim there. -/
theorem hasClient_testClaim (phase : Phase) (current : UInt32) :
    HasClient (testClaim phase current) := by
  unfold testClaim
  split
  · trivial
  · cases phase <;> trivial

/-- A worker that has a client keeps it, and accounts for the connections of each loop. -/
theorem completed_of_move (measured : Bool) (hx : x.Constructs) (hw : HasClient w)
    (h : WorkerMove lib config s w x s' w') :
    HasClient w' ∧ outstanding measured s' + completed measured s' + pending measured w' =
      outstanding measured s + completed measured s + pending measured w := by
  cases h with
  | fail what => exact hx.elim
  | drain what => exact hw.elim
  | abandon abandoned what => exact hw.elim
  | load phase =>
    rw [pending_testClaim]
    exact ⟨hasClient_testClaim _ _, rfl⟩
  | retry phase current positive spurious =>
    rw [pending_testClaim]
    exact ⟨hasClient_testClaim _ _, rfl⟩
  | claim phase positive =>
    refine ⟨trivial, ?_⟩
    have hpred := toNat_pred positive
    cases phase <;> cases measured <;>
      simp [outstanding, completed, pending, BenchmarkState.setCounter, BenchmarkState.counter,
        Phase.isMeasured] at hpred ⊢ <;> omega
  | complete phase result writer written =>
    refine ⟨by cases phase <;> trivial, ?_⟩
    have hpending : pending measured (afterConnection result phase) = 0 := by cases phase <;> rfl
    rw [hpending]
    simp only [outstanding, completed, pending, List.countP_append, List.countP_singleton]
    omega
  | _ => exact ⟨trivial, rfl⟩

/-- When all clients are constructed, every connection of a loop is outstanding, pending or
has come back. -/
theorem completed_of_run (measured : Bool) {actions : List (ℕ × BenchmarkInput)}
    {s : Threaded BenchmarkState BenchmarkWorker}
    (hactions : ∀ a ∈ actions, a.2.Constructs)
    (h : (machine lib config writer).run actions = some s) :
    outstanding measured s.shared + completed measured s.shared +
        total (pending measured) s.threads =
      bif measured then config.connections.toNat else config.warmupConnections.toNat := by
  refine Machine.run_conserves (q := fun s => outstanding measured s + completed measured s)
    (J := HasClient) ?_ ?_ (fun hx hw _ hstep =>
      completed_of_move measured hx hw (workerMove_of_step hstep)) hactions h
  · cases measured <;> simp [outstanding, completed, pending]
  · intro w hw
    rw [List.eq_of_mem_replicate hw]
    trivial

/-- A worker leaves the warm-up loop only after it has seen its counter at zero. -/
theorem warmupRemaining_of_testClaim {phase : Phase} {s : BenchmarkState}
    (hphase : phase.isMeasured = true → s.warmupRemaining = 0)
    (h : PastWarmup (testClaim phase (s.counter phase))) : s.warmupRemaining = 0 := by
  cases phase with
  | measured => exact hphase rfl
  | warmup request =>
    unfold testClaim at h
    split at h
    · cases h
    · rename_i hzero
      simpa [BenchmarkState.counter, UInt32.lt_iff_toNat_lt, ← UInt32.toNat_inj] using hzero

/-- A worker with a client that has left the warm-up loop has seen that no warm-up
connection is outstanding, and then none is. -/
theorem warmupRemaining_of_move (hx : x.Constructs)
    (hw : HasClient w ∧ (PastWarmup w → s.warmupRemaining = 0))
    (h : WorkerMove lib config s w x s' w') :
    (HasClient w' ∧ (PastWarmup w' → s'.warmupRemaining = 0)) ∧
      (s.warmupRemaining = 0 → s'.warmupRemaining = 0) := by
  obtain ⟨hclient, hseen⟩ := hw
  have hkeep := eq_zero_of_le (counters_le_of_move h).2
  refine ⟨⟨(completed_of_move true hx hclient h).1, fun hpast => ?_⟩, hkeep⟩
  cases h with
  | construct label => cases hpast
  | abandon abandoned what => exact hclient.elim
  | load phase => exact warmupRemaining_of_testClaim hseen hpast
  | retry phase current positive spurious => exact warmupRemaining_of_testClaim hseen hpast
  | complete phase result writer written =>
    cases phase with
    | warmup request => cases hpast
    | measured => exact hseen rfl
  | record result => exact hseen trivial
  | _ => exact hkeep (hseen hpast)

/-- When all clients are constructed and all workers have returned, no warm-up connection
is outstanding. -/
theorem warmupRemaining_of_finished {production : Bool}
    (hvalid : config.validate production = .ok ()) {actions : List (ℕ × BenchmarkInput)}
    {s : Threaded BenchmarkState BenchmarkWorker} (hactions : ∀ a ∈ actions, a.2.Constructs)
    (h : (machine lib config writer).run actions = some s) (hfinished : Finished s) :
    s.shared.warmupRemaining = 0 := by
  have hall := Machine.run_forall
    (J := fun s w => HasClient w ∧ (PastWarmup w → s.warmupRemaining = 0)) ?_ ?_ hactions h
  · have hpos := concurrency_pos hvalid
    rw [← length_threads_of_run h] at hpos
    obtain ⟨w, hw⟩ := List.exists_mem_of_length_pos hpos
    apply (hall w hw).2
    rw [hfinished w hw]
    trivial
  · intro w hw
    rw [List.eq_of_mem_replicate hw]
    exact ⟨trivial, fun hpast => hpast.elim⟩
  · intro u w x u' w' hx hw hstep
    obtain ⟨hnext, hkeep⟩ := warmupRemaining_of_move hx hw (workerMove_of_step hstep)
    exact ⟨hnext, fun v hv => ⟨hv.1, fun hpast => hkeep (hv.2 hpast)⟩⟩

/-- The writer has appended the record of every connection that has come back, if it is
enabled. -/
theorem records_of_run {actions : List (ℕ × BenchmarkInput)}
    {s : Threaded BenchmarkState BenchmarkWorker}
    (h : (machine lib config writer).run actions = some s) :
    s.shared.writer.enabled = writer.enabled ∧ s.shared.writer.records = writer.records ++
      (if writer.enabled = true then s.shared.returned.map Prod.snd else []) := by
  refine Machine.run_shared (I := fun s => s.writer.enabled = writer.enabled ∧
    s.writer.records = writer.records ++
      (if writer.enabled = true then s.returned.map Prod.snd else [])) ?_ ?_ h
  · simp
  · rintro u w x u' w' ⟨henabled, hrecords⟩ hstep
    cases workerMove_of_step hstep with
    | claim phase positive => cases phase <;> exact ⟨henabled, hrecords⟩
    | complete phase result writer' written =>
      obtain ⟨hkeep, happend⟩ := MetricsWriter.eq_of_write_ok written
      refine ⟨hkeep.trans henabled, ?_⟩
      simp only [happend, hrecords, henabled, List.map_append, List.map_cons, List.map_nil]
      split <;> simp
    | _ => exact ⟨henabled, hrecords⟩

/-- When all clients are constructed and all workers have returned, all connections have
come back. -/
theorem completed_of_finished {production : Bool} (hvalid : config.validate production = .ok ())
    {actions : List (ℕ × BenchmarkInput)} {s : Threaded BenchmarkState BenchmarkWorker}
    (hactions : ∀ a ∈ actions, a.2.Constructs)
    (h : (machine lib config writer).run actions = some s) (hfinished : Finished s) :
    completed true s.shared = config.connections.toNat ∧
      completed false s.shared = config.warmupConnections.toNat := by
  have hpending (measured : Bool) : total (pending measured) s.threads = 0 := by
    apply total_eq_zero
    intro w hw
    rw [hfinished w hw]
    rfl
  have hmeasured := completed_of_run true hactions h
  have hwarmup := completed_of_run false hactions h
  rw [hpending, outstanding, cond_true, remaining_of_finished hvalid h hfinished] at hmeasured
  rw [hpending, outstanding, cond_false, warmupRemaining_of_finished hvalid hactions h hfinished]
    at hwarmup
  simpa using And.intro hmeasured hwarmup

/-- There are as many records of measured connections as have come back. -/
theorem length_measuredRecords (s : BenchmarkState) :
    (measuredRecords s).length = completed true s := by
  simp [measuredRecords, completed, List.countP_eq_length_filter]

/-- Every connection that has come back belongs to one of the two loops. -/
theorem completed_add_completed (s : BenchmarkState) :
    completed true s + completed false s = s.returned.length := by
  rw [List.length_eq_countP_add_countP
    (fun r : Phase × ConnectionMetrics => r.1.isMeasured == true)]
  apply congrArg
  apply List.countP_congr
  intro r _
  cases r.1.isMeasured <;> simp

/-- The file consists of the records of the measured connections, one for each requested
connection, if and only if there is a file and no warm-up connection is configured. -/
theorem records_measurements_iff (production : Bool) (config : ClientConfig)
    (hvalid : config.validate production = .ok ()) (lib : JsonLibrary) (writer : MetricsWriter)
    (actions : List (ℕ × BenchmarkInput)) (s : Threaded BenchmarkState BenchmarkWorker)
    (hactions : ∀ a ∈ actions, a.2.Constructs)
    (hrun : (machine lib config writer).run actions = some s) (hfinished : Finished s) :
    RecordsMeasurements writer s.shared ↔
      writer.enabled = true ∧ config.warmupConnections = 0 := by
  obtain ⟨hmeasured, hwarmup⟩ := completed_of_finished hvalid hactions hrun hfinished
  obtain ⟨-, hrecords⟩ := records_of_run hrun
  have hrequested := requestedConnections_of_run hrun
  have hlength := length_measuredRecords s.shared
  have hsum := completed_add_completed s.shared
  obtain ⟨hpos, -⟩ := ClientConfig.counts_of_validate hvalid
  constructor
  · rintro ⟨hfile, -⟩
    rw [hrecords, List.append_cancel_left_eq] at hfile
    by_cases henabled : writer.enabled = true
    · refine ⟨henabled, ?_⟩
      rw [if_pos henabled] at hfile
      have heq := congrArg List.length hfile
      rw [List.length_map] at heq
      apply UInt32.toNat_inj.mp
      rw [UInt32.toNat_zero]
      omega
    · rw [if_neg henabled] at hfile
      rw [← hfile, List.length_nil] at hlength
      omega
  · rintro ⟨henabled, hzero⟩
    rw [hzero, UInt32.toNat_zero] at hwarmup
    refine ⟨?_, by rw [hlength, hmeasured, hrequested]⟩
    have hall : s.shared.returned.filter (fun r => r.1.isMeasured) = s.shared.returned := by
      apply List.filter_eq_self.mpr
      intro r hr
      have hnone := List.countP_eq_zero.mp hwarmup r hr
      simpa using hnone
    rw [hrecords, if_pos henabled, measuredRecords, hall]

/-- A run of one measured connection without warming up. -/
def measuredRun : List (ℕ × BenchmarkInput) :=
  [(0, .construct (.ok Label.sample)), (0, .proceed), (0, .proceed), (0, .compareExchange false),
    (0, .request fun _ => Label.sample), (0, .connect (.ok { ok := true })), (0, .proceed),
    (0, .proceed)]

/-- Without warming up, the file has the record of the measured connection. -/
theorem records_measurements_plain :
    ∃ s, (machine (.ofTable []) {} ⟨true, [], []⟩).run measuredRun = some s ∧
      RecordsMeasurements ⟨true, [], []⟩ s.shared := by
  obtain ⟨s, hs, hfinished⟩ := (machine (.ofTable []) {} ⟨true, [], []⟩).exists_of_run_any
    measuredRun Finished (by decide +kernel)
  have hactions : ∀ a ∈ measuredRun, a.2.Constructs := by
    simp [measuredRun, BenchmarkInput.Constructs]
  exact ⟨s, hs, (records_measurements_iff false {} rfl _ _ measuredRun s hactions hs hfinished).mpr
    ⟨rfl, rfl⟩⟩

/-- One measured connection after one for warming up. -/
def warmupRun : List (ℕ × BenchmarkInput) :=
  [(0, .construct (.ok Label.sample)), (0, .proceed), (0, .compareExchange false),
    (0, .request fun _ => Label.sample), (0, .connect (.ok { ok := true })), (0, .proceed),
    (0, .proceed), (0, .compareExchange false), (0, .request fun _ => Label.sample),
    (0, .connect (.ok { ok := true })), (0, .proceed), (0, .proceed)]

/-- The record of a warm-up connection is appended to the file as well. -/
theorem warmup_recorded :
    ¬ ∀ (production : Bool) (config : ClientConfig), config.validate production = .ok () →
      ∀ (lib : JsonLibrary) (writer : MetricsWriter), writer.enabled = true →
      ∀ (actions : List (ℕ × BenchmarkInput)) (s : Threaded BenchmarkState BenchmarkWorker),
        (∀ a ∈ actions, a.2.Constructs) → (machine lib config writer).run actions = some s →
        Finished s → RecordsMeasurements writer s.shared := by
  intro h
  obtain ⟨s, hs, hfinished, hrecords⟩ :=
    (machine (.ofTable []) { warmupConnections := 1 } ⟨true, [], []⟩).exists_of_run_any warmupRun
      (fun s => Finished s ∧ s.shared.writer.records.length = 2 ∧
        s.shared.summary.requestedConnections.toNat = 1) (by decide +kernel)
  have hactions : ∀ a ∈ warmupRun, a.2.Constructs := by
    simp [warmupRun, BenchmarkInput.Constructs]
  obtain ⟨hfile, hlength⟩ := h false { warmupConnections := 1 } rfl _ _ rfl warmupRun s hactions hs
    hfinished
  have heq := congrArg List.length hfile
  simp only [List.nil_append] at heq
  omega

end Benchmark

end PqtlsLab
