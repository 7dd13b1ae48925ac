import PqtlsLab.Experiment.ScriptRuns

/-!
# Which cells of the matrix are accounted for

A cell is requested if its parts are in the lists of the arguments. `build_matrix` leaves out the
cells with more concurrency than connections without a word, and has a cell as often as the lists
have its parts. The capability gate asks whether a profile is usable and never whether it is
experimental. Apart from this, every cell has one outcome, and only usable profiles are run, unless
an exception ends the script.
-/

namespace PqtlsLab.Experiment

/-- A combination of profile, concurrency and payload, with or without resumption. -/
structure Cell where
  profile : Bytes
  concurrency : ℤ
  payload : ℤ
  resumption : Bool
  deriving DecidableEq

/-- The combination that a specification is for. -/
def RunSpec.cell (spec : RunSpec) : Cell :=
  ⟨spec.profile, spec.concurrency, spec.payloadBytes, spec.reuseSession⟩

/-- The arguments ask for a combination. -/
def Arguments.Requests (args : Arguments) (cell : Cell) : Prop :=
  cell.profile ∈ args.profiles ∧ cell.concurrency ∈ args.concurrency ∧
    cell.payload ∈ args.payloads ∧ (cell.resumption = true → args.sessionResumption = true)

/-- The outcomes account for the matrix. -/
structure Accounted (args : Arguments) (outcomes : List RunOutcome) : Prop where
  /-- Every combination that was requested has one outcome. -/
  once : ∀ cell, args.Requests cell → outcomes.countP (fun o => o.spec.cell = cell) = 1
  /-- Whatever was skipped has a reason. -/
  reason : ∀ o ∈ outcomes, o.status = .skipped → o.reason.truthy = true

/-- Only cells with a profile that is usable, and not experimental unless that is allowed, have been
run. -/
def Gated (args : Arguments) (caps : Capabilities) (outcomes : List RunOutcome) : Prop :=
  ∀ o ∈ outcomes, o.status ≠ .skipped →
    ∃ a, caps.reported o.spec.profile = some a ∧ a.usable = true ∧
      (args.allowExperimental = false → a.experimental = false)

section Matrix

/-- A sum to which only one element contributes. -/
theorem sum_map_ite_eq {α : Type*} [BEq α] [LawfulBEq α] [DecidableEq α] (l : List α)
    (a : α) (n : ℕ) :
    (l.map fun b => if b = a then n else 0).sum = l.count a * n := by
  induction l with
  | nil => simp
  | cons b l ih =>
    rw [List.map_cons, List.sum_cons, ih, List.count_cons]
    by_cases hb : b = a
    · simp [hb, Nat.add_mul, Nat.add_comm]
    · simp [hb]

variable (args : Arguments) (cell : Cell)

/-- The loops can reach a combination: there are enough connections, and resumption is on if it is
needed. -/
def Arguments.Reaches : Prop :=
  cell.concurrency ≤ args.connections ∧ (cell.resumption = true → args.sessionResumption = true)

instance : Decidable (args.Reaches cell) := inferInstanceAs (Decidable (_ ∧ _))

/-- The innermost loop is about its own profile, concurrency and payload. -/
theorem cell_of_mem_cellSpecs {profile : Bytes} {concurrency payload : ℤ} {spec : RunSpec}
    (h : spec ∈ cellSpecs args profile concurrency payload) :
    spec.cell.payload = payload ∧ spec.cell.concurrency = concurrency ∧
      spec.cell.profile = profile := by
  unfold cellSpecs at h
  split at h
  · cases h
  · rcases List.mem_cons.mp h with rfl | h
    · exact ⟨rfl, rfl, rfl⟩
    · split at h
      · rw [List.mem_singleton.mp h]
        exact ⟨rfl, rfl, rfl⟩
      · cases h

/-- The innermost loop adds a combination once if it can reach it. -/
theorem countP_cellSpecs (profile : Bytes) (concurrency payload : ℤ) :
    (cellSpecs args profile concurrency payload).countP (fun spec => spec.cell = cell) =
      if payload = cell.payload then
        if concurrency = cell.concurrency then
          if profile = cell.profile then if args.Reaches cell then 1 else 0 else 0
        else 0
      else 0 := by
  by_cases hparts :
      payload = cell.payload ∧ concurrency = cell.concurrency ∧ profile = cell.profile
  · obtain ⟨hpayload, hconcurrency, hprofile⟩ := hparts
    obtain ⟨profile', concurrency', payload', resumption⟩ := cell
    subst hpayload hconcurrency hprofile
    by_cases hfew : concurrency > args.connections
    · have hnot : ¬ concurrency ≤ args.connections := by omega
      simp [cellSpecs, hfew, Arguments.Reaches, hnot]
    · have hle : concurrency ≤ args.connections := by omega
      cases resumption <;> cases hresumption : args.sessionResumption <;>
        simp [cellSpecs, hfew, Arguments.Reaches, hle, hresumption, RunSpec.cell]
  · have hzero : (cellSpecs args profile concurrency payload).countP
        (fun spec => spec.cell = cell) = 0 := by
      rw [List.countP_eq_zero]
      intro spec hspec heq
      have hcell := cell_of_mem_cellSpecs args hspec
      rw [of_decide_eq_true heq] at hcell
      exact hparts ⟨hcell.1.symm, hcell.2.1.symm, hcell.2.2.symm⟩
    rw [hzero]
    split_ifs with hpayload hconcurrency hprofile
    · exact absurd ⟨hpayload, hconcurrency, hprofile⟩ hparts
    all_goals rfl

/-- A combination is in the matrix as often as its parts are in the lists, if it can be reached. -/
theorem countP_buildMatrix :
    (buildMatrix args).countP (fun spec => spec.cell = cell) =
      args.profiles.count cell.profile * (args.concurrency.count cell.concurrency *
        (args.payloads.count cell.payload * if args.Reaches cell then 1 else 0)) := by
  simp only [buildMatrix, List.countP_flatMap, Function.comp_def, countP_cellSpecs, sum_map_ite_eq,
    mul_ite, mul_zero]

/-- The matrix is about the profiles of the arguments. -/
theorem profile_mem_of_mem_buildMatrix {spec : RunSpec} (h : spec ∈ buildMatrix args) :
    spec.profile ∈ args.profiles := by
  obtain ⟨profile, hprofile, h⟩ := List.mem_flatMap.mp h
  obtain ⟨concurrency, -, h⟩ := List.mem_flatMap.mp h
  obtain ⟨payload, -, h⟩ := List.mem_flatMap.mp h
  have hsame : spec.profile = profile := (cell_of_mem_cellSpecs args h).2.2
  rw [hsame]
  exact hprofile

/-- The matrix has every requested combination once exactly if the arguments allow enough
connections for each concurrency and repeat nothing. -/
theorem matrix_once_iff :
    (∀ cell, args.Requests cell →
        (buildMatrix args).countP (fun spec => spec.cell = cell) = 1) ↔
      (∀ concurrency ∈ args.concurrency, concurrency ≤ args.connections) ∧
        args.profiles.Nodup ∧ args.concurrency.Nodup ∧ args.payloads.Nodup := by
  constructor
  · intro honce
    have hparts : ∀ profile ∈ args.profiles, ∀ concurrency ∈ args.concurrency,
        ∀ payload ∈ args.payloads,
        concurrency ≤ args.connections ∧ args.profiles.count profile = 1 ∧
          args.concurrency.count concurrency = 1 ∧ args.payloads.count payload = 1 := by
      intro profile hprofile concurrency hconcurrency payload hpayload
      have hcount := honce ⟨profile, concurrency, payload, false⟩
        ⟨hprofile, hconcurrency, hpayload, fun h => nomatch h⟩
      rw [countP_buildMatrix] at hcount
      have hp := Nat.eq_one_of_mul_eq_one_right hcount
      have hcb := Nat.eq_one_of_mul_eq_one_left hcount
      have hc := Nat.eq_one_of_mul_eq_one_right hcb
      have hb := Nat.eq_one_of_mul_eq_one_left hcb
      have hreaches := Nat.eq_one_of_mul_eq_one_left hb
      have hreached : args.Reaches ⟨profile, concurrency, payload, false⟩ := by
        by_contra hnot
        rw [if_neg hnot] at hreaches
        cases hreaches
      exact ⟨hreached.1, hp, hc, Nat.eq_one_of_mul_eq_one_right hb⟩
    obtain ⟨profile, hprofile⟩ := List.exists_mem_of_ne_nil _ args.profiles_ne_nil
    obtain ⟨concurrency, hconcurrency⟩ := List.exists_mem_of_ne_nil _ args.concurrency_ne_nil
    obtain ⟨payload, hpayload⟩ := List.exists_mem_of_ne_nil _ args.payloads_ne_nil
    refine ⟨fun c hc => (hparts profile hprofile c hc payload hpayload).1, ?_, ?_, ?_⟩
    · rw [List.nodup_iff_count_eq_one]
      exact fun p hp => (hparts p hp concurrency hconcurrency payload hpayload).2.1
    · rw [List.nodup_iff_count_eq_one]
      exact fun c hc => (hparts profile hprofile c hc payload hpayload).2.2.1
    · rw [List.nodup_iff_count_eq_one]
      exact fun b hb => (hparts profile hprofile concurrency hconcurrency b hb).2.2.2
  · rintro ⟨hle, hprofiles, hconcurrencies, hpayloads⟩ cell ⟨hprofile, hconcurrency, hpayload, hres⟩
    have hreaches : args.Reaches cell := ⟨hle _ hconcurrency, hres⟩
    rw [countP_buildMatrix, if_pos hreaches, List.count_eq_one_of_mem hprofiles hprofile,
      List.count_eq_one_of_mem hconcurrencies hconcurrency,
      List.count_eq_one_of_mem hpayloads hpayload]

end Matrix

variable {host : Host} {args : Arguments} {caps : Capabilities}

/-- A run that gets to the end has an outcome for each cell of the matrix. A cell is skipped exactly
if its profile is not usable, and then with a reason. -/
theorem main_outcomes (hready : host.Ready args caps) {result : Result}
    (hmain : main host args = .ok result) :
    ∃ outcomes, result.outcomes? = some outcomes ∧
      (outcomes.map RunOutcome.spec).Perm (buildMatrix args) ∧
      (∀ o ∈ outcomes, o.status = .skipped → o.reason.truthy = true) ∧
      ∀ o ∈ outcomes, o.status ≠ .skipped ↔
        ∃ a, caps.reported o.spec.profile = some a ∧ a.usable = true := by
  let table := availabilityTable caps
  let gate := capabilityGate table (buildMatrix args)
  obtain ⟨ran, hspecs, hran, hresult⟩ : ∃ ran : List RunOutcome,
      ran.map RunOutcome.spec = gate.1 ∧ (∀ o ∈ ran, o.status ≠ .skipped) ∧
        result.outcomes? = some (gate.2 ++ ran) := by
    obtain ⟨-, hrest⟩ := (main_eq_ok_iff hready).mp hmain
    dsimp only at hrest
    split_ifs at hrest with hnone
    · refine ⟨[], hnone.symm, nofun, ?_⟩
      rw [hrest, List.append_nil]
      rfl
    · obtain ⟨-, ran, hran, rfl⟩ := hrest
      obtain ⟨hspecs, hstatus⟩ := runAll_spec hran
      exact ⟨ran, hspecs, hstatus, rfl⟩
  refine ⟨gate.2 ++ ran, hresult, ?_, ?_, ?_⟩
  · rw [List.map_append, hspecs]
    exact capabilityGate_perm table _
  · intro o ho hskipped
    rcases List.mem_append.mp ho with ho | ho
    · exact (skipped_of_mem_gate table ho).2.1
    · exact absurd hskipped (hran o ho)
  · intro o ho
    rw [← availabilityOf_table_iff]
    rcases List.mem_append.mp ho with ho | ho
    · obtain ⟨hskipped, -, hunusable⟩ := skipped_of_mem_gate table ho
      refine iff_of_false (fun h => h hskipped) ?_
      rw [Bool.not_eq_true]
      exact hunusable
    · refine iff_of_true (hran o ho) ?_
      have hspec : o.spec ∈ gate.1 := by
        rw [← hspecs]
        exact List.mem_map_of_mem ho
      exact usable_of_mem_gate table hspec

/-- The outcomes of a run account for the matrix and are gated exactly if there are enough
connections for each concurrency, nothing is repeated in the arguments, and no requested profile is
usable and experimental unless that is allowed. -/
theorem accounted_gated_iff (hready : host.Ready args caps) {result : Result}
    (hmain : main host args = .ok result) :
    ∃ outcomes, result.outcomes? = some outcomes ∧
      (Accounted args outcomes ∧ Gated args caps outcomes ↔
        ((∀ concurrency ∈ args.concurrency, concurrency ≤ args.connections) ∧
          args.profiles.Nodup ∧ args.concurrency.Nodup ∧ args.payloads.Nodup) ∧
        (args.allowExperimental = false → ∀ profile ∈ args.profiles, ∀ a,
          caps.reported profile = some a → a.usable = true → a.experimental = false)) := by
  obtain ⟨outcomes, hout, hperm, hreason, hrun⟩ := main_outcomes hready hmain
  have hcount : ∀ cell, outcomes.countP (fun o => o.spec.cell = cell) =
      (buildMatrix args).countP (fun spec => spec.cell = cell) := by
    intro cell
    rw [← hperm.countP_eq, List.countP_map]
    rfl
  have honce : Accounted args outcomes ↔
      (∀ concurrency ∈ args.concurrency, concurrency ≤ args.connections) ∧
        args.profiles.Nodup ∧ args.concurrency.Nodup ∧ args.payloads.Nodup := by
    rw [← matrix_once_iff]
    constructor
    · intro haccounted cell hcell
      rw [← hcount]
      exact haccounted.once cell hcell
    · intro hall
      refine ⟨fun cell hcell => ?_, hreason⟩
      rw [hcount]
      exact hall cell hcell
  refine ⟨outcomes, hout, ?_⟩
  rw [honce]
  refine and_congr_right fun hlists => ?_
  constructor
  · intro hgated hforbidden profile hprofile a ha husable
    obtain ⟨concurrency, hconcurrency⟩ := List.exists_mem_of_ne_nil _ args.concurrency_ne_nil
    obtain ⟨payload, hpayload⟩ := List.exists_mem_of_ne_nil _ args.payloads_ne_nil
    have hone := (honce.mpr hlists).once ⟨profile, concurrency, payload, false⟩
      ⟨hprofile, hconcurrency, hpayload, fun h => nomatch h⟩
    obtain ⟨o, ho, hcell⟩ := List.countP_pos_iff.mp (hone ▸ Nat.one_pos)
    have hof : o.spec.profile = profile := congrArg Cell.profile (of_decide_eq_true hcell)
    rw [← hof] at ha
    obtain ⟨a', ha', -, hexperimental⟩ := hgated o ho ((hrun o ho).mpr ⟨a, ha, husable⟩)
    rw [ha, Option.some.injEq] at ha'
    rw [ha']
    exact hexperimental hforbidden
  · intro hnone o ho hstatus
    obtain ⟨a, ha, husable⟩ := (hrun o ho).mp hstatus
    refine ⟨a, ha, husable, fun hforbidden => hnone hforbidden o.spec.profile ?_ a ha husable⟩
    exact profile_mem_of_mem_buildMatrix args (hperm.mem_iff.mp (List.mem_map_of_mem ho))

/-- A run has outcomes that account for the matrix and are gated exactly if there are enough
connections for each concurrency, nothing is repeated in the arguments, no requested profile is
usable and experimental unless that is allowed, and nothing raises an exception before the end. -/
theorem matrix_accounted_iff (hready : host.Ready args caps) :
    (∃ result outcomes, main host args = .ok result ∧ result.outcomes? = some outcomes ∧
        Accounted args outcomes ∧ Gated args caps outcomes) ↔
      (((∀ concurrency ∈ args.concurrency, concurrency ≤ args.connections) ∧
          args.profiles.Nodup ∧ args.concurrency.Nodup ∧ args.payloads.Nodup) ∧
        (args.allowExperimental = false → ∀ profile ∈ args.profiles, ∀ a,
          caps.reported profile = some a → a.usable = true → a.experimental = false)) ∧
      host.Undisturbed args (usableCells args caps) := by
  rw [← exists_main_iff hready]
  constructor
  · rintro ⟨result, outcomes, hmain, hout, hproperty⟩
    obtain ⟨outcomes', hout', hiff⟩ := accounted_gated_iff hready hmain
    obtain rfl := Option.some.inj (hout.symm.trans hout')
    exact ⟨hiff.mp hproperty, result, hmain⟩
  · rintro ⟨hcondition, result, hmain⟩
    obtain ⟨outcomes, hout, hiff⟩ := accounted_gated_iff hready hmain
    exact ⟨result, outcomes, hmain, hout, hiff.mpr hcondition⟩

/-- A host on which everything is in place and every cell succeeds. -/
def Host.reporting (caps : Capabilities) : Host where
  clientBin := ascii "pqtls-client"
  serverBin := ascii "pqtls-server"
  pathExists _ := .ok true
  timestamp := ascii "20260101T000000Z"
  resultsFile name := ascii "experiments/results/" ++ name
  capabilities := .ok ⟨0, .ok caps.toJson, []⟩
  perform _ := .ok ()
  memory _ := 2 ^ 30
  launch _ _ _ _ _ := .exited 0

/-- The script is meant to get to the cells there. -/
theorem Host.ready_reporting (caps : Capabilities) (args : Arguments) (h : args.dryRun = false) :
    (Host.reporting caps).Ready args caps where
  files := rfl
  report := ⟨_, rfl⟩
  dryRun := h

/-- Nothing raises an exception there unless the messages or the concurrency are large. -/
theorem Host.undisturbed_reporting (caps : Capabilities) {args : Arguments}
    (hsmall : ∀ spec ∈ usableCells args caps, spec.payloadBytes ≤ 1000 ∧ spec.concurrency ≤ 1000) :
    (Host.reporting caps).Undisturbed args (usableCells args caps) := by
  refine ⟨fun _ _ => rfl, fun _ _ _ => rfl, fun i spec hspec => ?_⟩
  obtain ⟨hpayload, hconcurrency⟩ := hsmall spec (List.mem_of_getElem? hspec)
  refine ⟨.inr ?_, ?_, nofun, fun _ _ => rfl⟩
  · have hlength : (telemetryEnvelope []).length = 135 := by decide +kernel
    rw [hlength]
    change _ ∧ max _ spec.payloadBytes ≤ ((2 ^ 30 : ℕ) : ℤ)
    omega
  · have hmax : (max (spec.concurrency * 2) 16).natAbs < 10 ^ 4 := by omega
    have hdigits : (decimal (max (spec.concurrency * 2) 16).natAbs).length ≤ 4 := by
      rw [decimal, List.length_map]
      exact (Nat.length_toDigits_le_iff (by decide) (by decide)).mpr hmax
    exact hdigits.trans (by decide)

/-- A report with a hybrid profile that is usable, and an experimental one that is usable, too. -/
def twoProfiles : Capabilities where
  tls13Available := true
  tlsGroups := [ascii "X25519MLKEM768", ascii "MLKEM768"]
  cipherSuites := [ascii "TLS_AES_256_GCM_SHA384"]
  mldsaAvailable := true
  profiles :=
    [⟨ascii "hybrid-x25519-mlkem768", true, false, [], [], []⟩,
      ⟨ascii "pure-mlkem768", true, true, [], [], []⟩]

/-- `--profiles hybrid-x25519-mlkem768 --connections 10 --concurrency 1 10 --payloads 100`. -/
def hybridOnly : Arguments :=
  { Arguments.default with
    profiles := [ascii "hybrid-x25519-mlkem768"]
    connections := 10
    concurrency := [1, 10]
    payloads := [100]
    profiles_ne_nil := List.cons_ne_nil _ _
    concurrency_ne_nil := List.cons_ne_nil _ _
    payloads_ne_nil := List.cons_ne_nil _ _ }

/-- With a profile that is not experimental and enough connections, the matrix is accounted for. -/
theorem hybrid_matrix_accounted :
    ∃ result outcomes, main (Host.reporting twoProfiles) hybridOnly = .ok result ∧
      result.outcomes? = some outcomes ∧
      Accounted hybridOnly outcomes ∧ Gated hybridOnly twoProfiles outcomes := by
  refine (matrix_accounted_iff (Host.ready_reporting twoProfiles hybridOnly rfl)).mpr
    ⟨⟨⟨by decide, by decide, by decide, by decide⟩, ?_⟩, ?_⟩
  · intro _ profile hprofile a ha _
    rw [List.mem_singleton.mp hprofile] at ha
    cases ha
    rfl
  · exact Host.undisturbed_reporting _ (by decide)

/-- A message that is too long for an index ends the run. -/
example :
    (main (Host.reporting twoProfiles)
      { hybridOnly with
        payloads := [10 ^ 20]
        payloads_ne_nil := List.cons_ne_nil _ _ }).toBool = false := by
  decide +kernel

/-- `--profiles hybrid-x25519-mlkem768 pure-mlkem768 --connections 10 --payloads 100`. -/
def withExperimental : Arguments :=
  { Arguments.default with
    profiles := [ascii "hybrid-x25519-mlkem768", ascii "pure-mlkem768"]
    connections := 10
    payloads := [100]
    profiles_ne_nil := List.cons_ne_nil _ _
    payloads_ne_nil := List.cons_ne_nil _ _ }

/-- With ten connections the cells for the default concurrency of 50 vanish, and the experimental
profile is run although that was not allowed. -/
theorem cells_vanish_and_experimental_runs :
    ∃ outcomes, main (Host.reporting twoProfiles) withExperimental = .ok (.finished outcomes) ∧
      ¬ Accounted withExperimental outcomes ∧ ¬ Gated withExperimental twoProfiles outcomes := by
  have hready := Host.ready_reporting twoProfiles withExperimental rfl
  obtain ⟨result, hmain⟩ :=
    (exists_main_iff hready).mpr (Host.undisturbed_reporting _ (by decide +kernel))
  obtain ⟨outcomes, hout, hperm, -, hrun⟩ := main_outcomes hready hmain
  obtain ⟨outcomes', rfl⟩ : ∃ outcomes', result = .finished outcomes' := by
    obtain ⟨-, hrest⟩ := (main_eq_ok_iff hready).mp hmain
    dsimp only at hrest
    rw [if_neg (by decide +kernel)] at hrest
    obtain ⟨-, ran, -, hresult⟩ := hrest
    exact ⟨_, hresult⟩
  obtain rfl := Option.some.inj hout
  refine ⟨outcomes', hmain, ?_, ?_⟩
  · intro haccounted
    let cell : Cell := ⟨ascii "hybrid-x25519-mlkem768", 50, 100, false⟩
    have hone := haccounted.once cell ⟨List.mem_cons_self, by decide, by decide, nofun⟩
    have hzero : (buildMatrix withExperimental).countP (fun spec => spec.cell = cell) = 0 := by
      decide +kernel
    rw [← hperm.countP_eq, List.countP_map] at hzero
    exact absurd (hone.symm.trans hzero) Nat.one_ne_zero
  · intro hgated
    let spec : RunSpec :=
      { profile := ascii "pure-mlkem768"
        connections := 10
        concurrency := 10
        payloadBytes := 100 }
    have hspec : spec ∈ buildMatrix withExperimental := by decide +kernel
    obtain ⟨o, ho, hof⟩ := List.mem_map.mp (hperm.mem_iff.mpr hspec)
    have hreported : twoProfiles.reported o.spec.profile =
        some ⟨ascii "pure-mlkem768", true, true, [], [], []⟩ := by
      rw [hof]
      rfl
    obtain ⟨a, ha, -, hexperimental⟩ := hgated o ho ((hrun o ho).mpr ⟨_, hreported, rfl⟩)
    rw [hreported, Option.some.injEq] at ha
    rw [← ha] at hexperimental
    cases hexperimental rfl

end PqtlsLab.Experiment
