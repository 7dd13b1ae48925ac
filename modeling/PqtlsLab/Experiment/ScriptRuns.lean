import PqtlsLab.Experiment.CapabilityGate

/-!
# How a run of the script ends

An exception on the way ends the script: of a message that is too long, of a number that cannot be
written, of a server or a client that cannot be started, or of a file that cannot be written. A run
without one has an outcome for each cell in turn.
-/

namespace PqtlsLab.Experiment

/-- The script is meant to get to the cells: the files are there, the client prints the report, and
it is not a dry run. -/
structure Host.Ready (host : Host) (args : Arguments) (caps : Capabilities) : Prop where
  files : missingFile host args = .ok none
  report : ∃ err, host.capabilities = .ok ⟨0, .ok caps.toJson, err⟩
  dryRun : args.dryRun = false

/-- Nothing raises an exception in a turn: the message can be built, the number of connections can
be written, the server and the client can be started, and the effects work. -/
structure Host.RunsCell (host : Host) (args : Arguments) (turn : ℕ) (spec : RunSpec) : Prop where
  message : spec.payloadBytes ≤ 0 ∨
    spec.payloadBytes - (telemetryEnvelope []).length < 2 ^ 63 ∧
      max ((telemetryEnvelope []).length : ℤ) spec.payloadBytes ≤ host.memory turn
  maxConnections : (decimal (max (spec.concurrency * 2) 16).natAbs).length ≤ 4300
  launch : ∀ message, buildPayloadMessage (host.memory turn) spec.payloadBytes = .ok message →
    ∀ e, host.launch turn message
      (serverArgv host args (experimentIdOf host args) spec
        (decimalInt (max (spec.concurrency * 2) 16)))
      (clientArgv host args (experimentIdOf host args) spec) args.timeout ≠ .raised e
  effects : ∀ effect ∈ [Effect.printTurn turn, .writeMessage turn, .unlinkMessage turn,
    .printOutcome turn, .writeManifest turn], host.perform effect = .ok ()

/-- Nothing raises an exception on the way to the end. -/
structure Host.Undisturbed (host : Host) (args : Arguments) (cells : List RunSpec) : Prop where
  start : ∀ effect ∈ [Effect.makeResultsDir, .printHeader, .printMatrix],
    host.perform effect = .ok ()
  around : cells ≠ [] → ∀ effect ∈ [Effect.collectMetadata, .writeManifest 0, .printSummary],
    host.perform effect = .ok ()
  turns : ∀ i spec, cells[i]? = some spec → host.RunsCell args (i + 1) spec

section Turns

variable {host : Host} {args : Arguments}

/-- An outcome is about its cell, and not that it was skipped. -/
theorem outcomeOf_spec {experimentId : Bytes} {spec : RunSpec} {launch : Launch} {o : RunOutcome}
    (h : outcomeOf host args experimentId spec launch = .ok o) :
    o.spec = spec ∧ o.status ≠ .skipped := by
  unfold outcomeOf at h
  split at h
  · cases h
  · cases h
    exact ⟨rfl, nofun⟩
  · split at h
    · cases h
      exact ⟨rfl, nofun⟩
    · cases h
      exact ⟨rfl, nofun⟩

/-- There is an outcome unless an exception was raised. -/
theorem exists_outcomeOf_iff {experimentId : Bytes} {spec : RunSpec} {launch : Launch} :
    (∃ o, outcomeOf host args experimentId spec launch = .ok o) ↔
      ∀ e, launch ≠ .raised e := by
  cases launch with
  | notListening => exact iff_of_true ⟨_, rfl⟩ nofun
  | raised e => exact iff_of_false nofun fun h => h e rfl
  | exited code =>
    refine iff_of_true ?_ nofun
    rw [outcomeOf]
    split
    · exact ⟨_, rfl⟩
    · exact ⟨_, rfl⟩

/-- `run_one` returns an outcome if its steps succeed. -/
theorem runOne_eq_ok_iff {experimentId : Bytes} {turn : ℕ} {spec : RunSpec} {o : RunOutcome} :
    runOne host args experimentId turn spec = .ok o ↔
      ∃ message, buildPayloadMessage (host.memory turn) spec.payloadBytes = .ok message ∧
        host.perform (.writeMessage turn) = .ok () ∧
        ∃ maxConnections, strInt (max (spec.concurrency * 2) 16) = .ok maxConnections ∧
          host.perform (.unlinkMessage turn) = .ok () ∧
          outcomeOf host args experimentId spec (host.launch turn message
            (serverArgv host args experimentId spec maxConnections)
            (clientArgv host args experimentId spec) args.timeout) = .ok o := by
  simp only [runOne, bind_eq_ok_iff, Unique.exists_iff, PUnit.default_eq_unit]

/-- A turn gives an outcome exactly if nothing in it raises an exception. -/
theorem exists_turn_iff (turn : ℕ) (spec : RunSpec) :
    (host.perform (.printTurn turn) = .ok () ∧
      (∃ o, runOne host args (experimentIdOf host args) turn spec = .ok o) ∧
      host.perform (.printOutcome turn) = .ok () ∧ host.perform (.writeManifest turn) = .ok ()) ↔
      host.RunsCell args turn spec := by
  simp only [runOne_eq_ok_iff]
  constructor
  · rintro ⟨hturn, ⟨o, message, hmessage, hwrite, maxConnections, hmax, hunlink, ho⟩, houtcome,
      hmanifest⟩
    unfold strInt at hmax
    split at hmax
    · cases hmax
    rename_i hdigits
    cases hmax
    refine ⟨exists_payloadMessage_iff.mp ⟨message, hmessage⟩, by omega, ?_, ?_⟩
    · intro message' hmessage'
      obtain rfl := Except.ok.inj (hmessage.symm.trans hmessage')
      exact exists_outcomeOf_iff.mp ⟨o, ho⟩
    · simp [hturn, hwrite, hunlink, houtcome, hmanifest]
  · rintro ⟨hmessage, hdigits, hlaunch, heffects⟩
    obtain ⟨message, hmessage⟩ := exists_payloadMessage_iff.mpr hmessage
    simp only [List.forall_mem_cons, List.not_mem_nil, false_imp_iff, implies_true,
      and_true] at heffects
    obtain ⟨hturn, hwrite, hunlink, houtcome, hmanifest⟩ := heffects
    obtain ⟨o, ho⟩ := exists_outcomeOf_iff.mpr (hlaunch message hmessage)
    exact ⟨hturn, ⟨o, message, hmessage, hwrite, _, if_neg (by omega), hunlink, ho⟩, houtcome,
      hmanifest⟩

/-- The loop over the cells goes through if all of its turns do. -/
theorem runAll_cons_eq_ok_iff {experimentId : Bytes} {turn : ℕ} {spec : RunSpec}
    {specs : List RunSpec} {outcomes : List RunOutcome} :
    runAll host args experimentId turn (spec :: specs) = .ok outcomes ↔
      ∃ o rest, (host.perform (.printTurn turn) = .ok () ∧
          runOne host args experimentId turn spec = .ok o ∧
          host.perform (.printOutcome turn) = .ok () ∧
          host.perform (.writeManifest turn) = .ok ()) ∧
        runAll host args experimentId (turn + 1) specs = .ok rest ∧ outcomes = o :: rest := by
  simp only [runAll, bind_eq_ok_iff]
  constructor
  · rintro ⟨⟨⟩, hturn, o, ho, ⟨⟩, houtcome, ⟨⟩, hmanifest, rest, hrest, h⟩
    cases h
    exact ⟨o, rest, ⟨hturn, ho, houtcome, hmanifest⟩, hrest, rfl⟩
  · rintro ⟨o, rest, ⟨hturn, ho, houtcome, hmanifest⟩, hrest, rfl⟩
    exact ⟨(), hturn, o, ho, (), houtcome, (), hmanifest, rest, hrest, rfl⟩

/-- The loop gives one outcome for each cell, and not that it was skipped. -/
theorem runAll_spec {experimentId : Bytes} {turn : ℕ} {specs : List RunSpec}
    {outcomes : List RunOutcome} (h : runAll host args experimentId turn specs = .ok outcomes) :
    outcomes.map RunOutcome.spec = specs ∧ ∀ o ∈ outcomes, o.status ≠ .skipped := by
  induction specs generalizing turn outcomes with
  | nil =>
    cases h
    exact ⟨rfl, nofun⟩
  | cons spec specs ih =>
    obtain ⟨o, rest, ⟨-, ho, -⟩, hrest, rfl⟩ := runAll_cons_eq_ok_iff.mp h
    obtain ⟨_, -, -, _, -, -, houtcome⟩ := runOne_eq_ok_iff.mp ho
    obtain ⟨hspec, hstatus⟩ := outcomeOf_spec houtcome
    obtain ⟨hspecs, hall⟩ := ih hrest
    refine ⟨by rw [List.map_cons, hspec, hspecs], ?_⟩
    exact List.forall_mem_cons.mpr ⟨hstatus, hall⟩

/-- The loop ends with outcomes exactly if nothing in its turns raises an exception. -/
theorem exists_runAll_iff (turn : ℕ) (specs : List RunSpec) :
    (∃ outcomes, runAll host args (experimentIdOf host args) turn specs = .ok outcomes) ↔
      ∀ i spec, specs[i]? = some spec → host.RunsCell args (turn + i) spec := by
  induction specs generalizing turn with
  | nil => exact iff_of_true ⟨[], rfl⟩ (by simp)
  | cons spec specs ih =>
    have hhead := @exists_turn_iff host args turn spec
    have htail := ih (turn + 1)
    constructor
    · rintro ⟨_, h⟩
      obtain ⟨o, rest, ⟨hturn, ho, houtcome⟩, hrest, -⟩ := runAll_cons_eq_ok_iff.mp h
      intro i spec' hspec
      cases i with
      | zero =>
        cases hspec
        exact hhead.mp ⟨hturn, ⟨o, ho⟩, houtcome⟩
      | succ i =>
        rw [← Nat.add_assoc, Nat.add_right_comm]
        exact htail.mp ⟨rest, hrest⟩ i spec' hspec
    · intro hall
      obtain ⟨hturn, ⟨o, ho⟩, houtcome⟩ := hhead.mpr (hall 0 spec rfl)
      have hrest : ∀ i spec', specs[i]? = some spec' → host.RunsCell args (turn + 1 + i) spec' := by
        intro i spec' hspec
        rw [Nat.add_right_comm]
        exact hall (i + 1) spec' hspec
      obtain ⟨rest, hrest⟩ := htail.mpr hrest
      exact ⟨_, runAll_cons_eq_ok_iff.mpr ⟨o, rest, ⟨hturn, ho, houtcome⟩, hrest, rfl⟩⟩

end Turns

variable {host : Host} {args : Arguments} {caps : Capabilities}

/-- How a run ends that is meant to get to the cells. -/
theorem main_eq_ok_iff (hready : host.Ready args caps) {result : Result} :
    main host args = .ok result ↔
      (∀ effect ∈ [Effect.makeResultsDir, .printHeader, .printMatrix],
        host.perform effect = .ok ()) ∧
      let gate := capabilityGate (availabilityTable caps) (buildMatrix args)
      if gate.1 = [] then result = .noneRunnable gate.2
      else (∀ effect ∈ [Effect.collectMetadata, .writeManifest 0, .printSummary],
          host.perform effect = .ok ()) ∧
        ∃ ran, runAll host args (experimentIdOf host args) 1 gate.1 = .ok ran ∧
          result = .finished (gate.2 ++ ran) := by
  obtain ⟨err, hreport⟩ := hready.report
  have hact (effect : Effect) {u : Unit} : host.act effect = .ok u ↔
      host.perform effect = .ok () :=
    mapError_eq_ok_iff
  rw [main, hready.files]
  simp only [bind_eq_ok_iff, hact, Unique.exists_iff, usableProfiles_toJson caps hreport,
    Except.ok.injEq, exists_eq_left', hready.dryRun, Bool.false_eq_true, if_false,
    List.isEmpty_iff, List.forall_mem_cons, List.not_mem_nil, false_imp_iff, implies_true, and_true]
  generalize capabilityGate (availabilityTable caps) (buildMatrix args) = gate
  simp only [and_assoc]
  refine and_congr_right fun _ => and_congr_right fun _ => and_congr_right fun _ => ?_
  split
  · exact ⟨fun h => (Except.ok.inj h).symm, fun h => congrArg Except.ok h.symm⟩
  · simp only [bind_eq_ok_iff, hact, mapError_eq_ok_iff, Unique.exists_iff]
    constructor
    · rintro ⟨hmetadata, hmanifest, ran, hran, hsummary, h⟩
      cases h
      exact ⟨hmetadata, hmanifest, hsummary, ran, hran, rfl⟩
    · rintro ⟨hmetadata, hmanifest, hsummary, ran, hran, rfl⟩
      exact ⟨hmetadata, hmanifest, ran, hran, hsummary, rfl⟩

/-- A run that is meant to get to the cells ends without an exception exactly if nothing on the way
raises one. -/
theorem exists_main_iff (hready : host.Ready args caps) :
    (∃ result, main host args = .ok result) ↔ host.Undisturbed args (usableCells args caps) := by
  have hturns := @exists_runAll_iff host args 1 (usableCells args caps)
  simp only [Nat.add_comm 1] at hturns
  simp only [main_eq_ok_iff hready, runnable_eq_usableCells]
  constructor
  · rintro ⟨result, hstart, hrest⟩
    split_ifs at hrest with hnone
    · exact ⟨hstart, fun hsome => absurd hnone hsome, by simp [hnone]⟩
    · obtain ⟨haround, ran, hran, -⟩ := hrest
      exact ⟨hstart, fun _ => haround, hturns.mp ⟨ran, hran⟩⟩
  · rintro ⟨hstart, haround, hall⟩
    split_ifs with hnone
    · exact ⟨_, hstart, rfl⟩
    · obtain ⟨ran, hran⟩ := hturns.mpr hall
      exact ⟨_, hstart, haround hnone, ran, hran, rfl⟩

end PqtlsLab.Experiment
