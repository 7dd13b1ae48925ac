import PqtlsLab.Experiment.MatrixAccounting
import PqtlsLab.Foundation.SuffixCode

/-!
# The files of an experiment

The records of a cell go to two files, whose names hold the label of the cell between the id of the
experiment and an ending. A label is a free text followed by numbers, and it is read from the right:
a number has no letter in it, so the letter in front of it shows where it begins. The endings cannot
be confused either, since a label ends in a digit or with the suffix for resumption.
-/

namespace PqtlsLab

namespace Experiment

/-- A number in a label, behind a dash and a letter. -/
def labelField (letter : UInt8) (value : ℤ) : Bytes := [0x2D] ++ letter :: decimalInt value

/-- The part of a label behind the profile. -/
def labelNumbers (numbers : ℤ × ℤ × ℤ × Bool) : Bytes :=
  labelField 0x63 numbers.1 ++ (labelField 0x70 numbers.2.1 ++
    (labelField 0x62 numbers.2.2.1 ++ if numbers.2.2.2 then ascii "-resume" else []))

/-- A label is the profile and the numbers. -/
theorem RunSpec.label_eq (spec : RunSpec) :
    spec.label = spec.profile ++
      labelNumbers (spec.connections, spec.concurrency, spec.payloadBytes, spec.reuseSession) := by
  have hc : ascii "-c" = [0x2D, 0x63] := by decide
  have hp : ascii "-p" = [0x2D, 0x70] := by decide
  have hb : ascii "-b" = [0x2D, 0x62] := by decide
  simp [label, labelNumbers, labelField, hc, hp, hb]

/-- A number in a label ends in a digit. -/
theorem getLast?_labelField (letter : UInt8) (value : ℤ) :
    ∃ b, (labelField letter value).getLast? = some b ∧ 0x30 ≤ b ∧ b ≤ 0x39 := by
  have hne := decimal_ne_nil value.natAbs
  have hdigits : ∃ front, labelField letter value = front ++ decimal value.natAbs := by
    unfold labelField decimalInt
    split
    · exact ⟨[0x2D, letter, 0x2D], rfl⟩
    · exact ⟨[0x2D, letter], rfl⟩
  obtain ⟨front, hfront⟩ := hdigits
  rw [hfront, List.getLast?_append_of_ne_nil _ hne]
  exact ⟨_, List.getLast?_eq_some_getLast hne, mem_decimal_bounds (List.getLast_mem hne)⟩

/-- A number in a label does not end as a text whose last byte is no digit. -/
theorem getLast?_labelField_ne (last : UInt8) (hdigit : ¬ (0x30 ≤ last ∧ last ≤ 0x39))
    (letter : UInt8) (value : ℤ) : (labelField letter value).getLast? ≠ some last := by
  obtain ⟨b, hlast, hbounds⟩ := getLast?_labelField letter value
  rw [hlast]
  intro heq
  rw [Option.some.inj heq] at hbounds
  exact hdigit hbounds

/-- A number in a label can be cut off the end of a text. -/
theorem suffixCode_labelField (letter : UInt8) (hdash : letter ≠ 0x2D)
    (hdigit : ¬ (0x30 ≤ letter ∧ letter ≤ 0x39)) : SuffixCode (labelField letter) := by
  refine (SuffixCode.of_marker decimalInt_injective ?_).prepend [0x2D]
  intro value hmem
  exact (mem_decimalInt_bounds hmem).elim hdash hdigit

/-- The numbers of a label can be cut off the end of a text. -/
theorem suffixCode_labelNumbers : SuffixCode labelNumbers := by
  have hconnections := suffixCode_labelField 0x63 (by decide) (by decide)
  have hconcurrency := suffixCode_labelField 0x70 (by decide) (by decide)
  have hpayload := suffixCode_labelField 0x62 (by decide) (by decide)
  have hresume : SuffixCode fun p : ℤ × Bool =>
      labelField 0x62 p.1 ++ if p.2 then ascii "-resume" else [] :=
    hpayload.optional (fun _ => List.cons_ne_nil _ _) (by decide)
      (getLast?_labelField_ne 0x65 (by decide) 0x62)
  exact hconnections.append (hconcurrency.append hresume)

/-- Specifications with the same label differ at most in the number of messages. -/
theorem RunSpec.eq_of_label_eq {spec spec' : RunSpec} (h : spec.label = spec'.label) :
    spec = { spec' with messagesPerConnection := spec.messagesPerConnection } := by
  rw [label_eq, label_eq] at h
  obtain ⟨hprofile, hnumbers⟩ := suffixCode_labelNumbers.split h
  simp only [Prod.mk.injEq] at hnumbers
  obtain ⟨hconnections, hconcurrency, hpayload, hresumption⟩ := hnumbers
  obtain ⟨profile, connections, concurrency, payload, resumption, messages⟩ := spec
  simp only at hprofile hconnections hconcurrency hpayload hresumption
  subst hprofile hconnections hconcurrency hpayload hresumption
  rfl

/-- No label ends in `r`. -/
theorem RunSpec.getLast?_label_ne (spec : RunSpec) : spec.label.getLast? ≠ some 0x72 := by
  rw [label_eq]
  simp only [labelNumbers]
  have hfield := getLast?_labelField_ne 0x72 (by decide) 0x62 spec.payloadBytes
  have hne : labelField 0x62 spec.payloadBytes ≠ [] := List.cons_ne_nil _ _
  simp only [← List.append_assoc]
  cases spec.reuseSession with
  | false =>
    rw [if_neg Bool.false_ne_true, List.append_nil, List.getLast?_append_of_ne_nil _ hne]
    exact hfield
  | true =>
    rw [if_pos rfl, List.getLast?_append_of_ne_nil _ (by decide)]
    decide

/-- The name of the file for the records of the client. -/
def RunSpec.metricsName (experimentId : Bytes) (spec : RunSpec) : Bytes :=
  experimentId ++ ascii "-" ++ spec.label ++ ascii ".jsonl"

/-- The name of the file for the records of the server. -/
def RunSpec.serverMetricsName (experimentId : Bytes) (spec : RunSpec) : Bytes :=
  experimentId ++ ascii "-" ++ spec.label ++ ascii "-server.jsonl"

/-- The client is given its file. -/
theorem metricsName_infix_clientArgv (host : Host) (args : Arguments) (experimentId : Bytes)
    (spec : RunSpec) :
    [ascii "--output", host.resultsFile (spec.metricsName experimentId)] <:+:
      clientArgv host args experimentId spec := by
  let argv := clientArgv host args experimentId spec
  exact ⟨argv.take 22, argv.drop 24, rfl⟩

/-- The server is given its file. -/
theorem serverMetricsName_infix_serverArgv (host : Host) (args : Arguments) (experimentId : Bytes)
    (spec : RunSpec) (maxConnections : Bytes) :
    [ascii "--metrics", host.resultsFile (spec.serverMetricsName experimentId)] <:+:
      serverArgv host args experimentId spec maxConnections := by
  let argv := serverArgv host args experimentId spec maxConnections
  exact ⟨argv.take 12, argv.drop 14, rfl⟩

/-- The names of the files of a cell. -/
def RunSpec.fileNames (experimentId : Bytes) (spec : RunSpec) : List Bytes :=
  [spec.metricsName experimentId, spec.serverMetricsName experimentId]

/-- The files of the client are told apart by the labels. -/
theorem RunSpec.label_eq_of_metricsName_eq {experimentId : Bytes} {spec spec' : RunSpec}
    (h : spec.metricsName experimentId = spec'.metricsName experimentId) :
    spec.label = spec'.label :=
  List.append_cancel_left (List.append_cancel_right h)

/-- The files of the server are told apart by the labels. -/
theorem RunSpec.label_eq_of_serverMetricsName_eq {experimentId : Bytes} {spec spec' : RunSpec}
    (h : spec.serverMetricsName experimentId = spec'.serverMetricsName experimentId) :
    spec.label = spec'.label :=
  List.append_cancel_left (List.append_cancel_right h)

/-- No file is used by a client and by a server. -/
theorem RunSpec.metricsName_ne_serverMetricsName (experimentId : Bytes) (spec spec' : RunSpec) :
    spec.metricsName experimentId ≠ spec'.serverMetricsName experimentId := by
  intro h
  have hending : ascii "-server.jsonl" = ascii "-server" ++ ascii ".jsonl" := by decide
  unfold metricsName serverMetricsName at h
  rw [hending, ← List.append_assoc] at h
  have hlabels := List.append_cancel_right h
  rw [List.append_assoc _ _ (ascii "-server")] at hlabels
  have hlabel : spec.label = spec'.label ++ ascii "-server" := List.append_cancel_left hlabels
  have hlast := spec.getLast?_label_ne
  rw [hlabel, List.getLast?_append_of_ne_nil _ (by decide)] at hlast
  exact hlast (by decide)

/-- Cells with different labels have no file in common. -/
theorem RunSpec.disjoint_fileNames {spec spec' : RunSpec} (h : spec.label ≠ spec'.label)
    (experimentId : Bytes) :
    (spec.fileNames experimentId).Disjoint (spec'.fileNames experimentId) := by
  intro name hname hname'
  simp only [fileNames, List.mem_cons, List.not_mem_nil, or_false] at hname hname'
  rcases hname with rfl | rfl <;> rcases hname' with hsame | hsame
  · exact h (label_eq_of_metricsName_eq hsame)
  · exact metricsName_ne_serverMetricsName experimentId spec spec' hsame
  · exact metricsName_ne_serverMetricsName experimentId spec' spec hsame.symm
  · exact h (label_eq_of_serverMetricsName_eq hsame)

/-- All cells of a matrix send the same number of messages on a connection. -/
theorem messagesPerConnection_of_mem_buildMatrix {args : Arguments} {spec : RunSpec}
    (h : spec ∈ buildMatrix args) : spec.messagesPerConnection = args.messagesPerConnection := by
  obtain ⟨profile, -, h⟩ := List.mem_flatMap.mp h
  obtain ⟨concurrency, -, h⟩ := List.mem_flatMap.mp h
  obtain ⟨payload, -, h⟩ := List.mem_flatMap.mp h
  unfold cellSpecs at h
  split at h
  · cases h
  · rcases List.mem_cons.mp h with rfl | h
    · rfl
    · split at h
      · rw [List.mem_singleton.mp h]
      · cases h

/-- The cells of a matrix are told apart by their labels. -/
theorem eq_of_label_eq_of_mem_buildMatrix {args : Arguments} {spec spec' : RunSpec}
    (h : spec ∈ buildMatrix args) (h' : spec' ∈ buildMatrix args)
    (hlabel : spec.label = spec'.label) : spec = spec' := by
  have hspec := RunSpec.eq_of_label_eq hlabel
  rw [messagesPerConnection_of_mem_buildMatrix h,
    ← messagesPerConnection_of_mem_buildMatrix h'] at hspec
  exact hspec

/-- The files of some cells of a matrix are pairwise distinct exactly if the cells are. -/
theorem nodup_fileNames_iff {args : Arguments} {specs : List RunSpec}
    (hspecs : specs ⊆ buildMatrix args) (experimentId : Bytes) :
    (specs.flatMap (RunSpec.fileNames experimentId)).Nodup ↔ specs.Nodup := by
  rw [List.nodup_flatMap]
  constructor
  · rintro ⟨-, hpairs⟩
    refine hpairs.imp fun {spec spec'} hdisjoint hsame => ?_
    subst hsame
    exact hdisjoint List.mem_cons_self List.mem_cons_self
  · intro hnodup
    constructor
    · intro spec _
      have hne := spec.metricsName_ne_serverMetricsName experimentId spec
      simpa [RunSpec.fileNames] using hne
    · refine hnodup.imp_of_mem fun {spec spec'} hspec hspec' hne => ?_
      refine RunSpec.disjoint_fileNames (fun hlabel => hne ?_) experimentId
      exact eq_of_label_eq_of_mem_buildMatrix (hspecs hspec) (hspecs hspec') hlabel

/-- If no argument is repeated, no cell of the matrix is. -/
theorem nodup_buildMatrix {args : Arguments} (hprofiles : args.profiles.Nodup)
    (hconcurrency : args.concurrency.Nodup) (hpayloads : args.payloads.Nodup) :
    (buildMatrix args).Nodup := by
  rw [List.nodup_iff_count_le_one]
  intro spec
  have hcell : (buildMatrix args).count spec ≤
      (buildMatrix args).countP fun other => other.cell = spec.cell := by
    refine List.countP_mono_left fun other _ hsame => ?_
    rw [beq_iff_eq.mp hsame]
    exact decide_eq_true rfl
  have hprofile := List.nodup_iff_count_le_one.mp hprofiles spec.cell.profile
  have hconcurrency := List.nodup_iff_count_le_one.mp hconcurrency spec.cell.concurrency
  have hpayload := List.nodup_iff_count_le_one.mp hpayloads spec.cell.payload
  have hreaches : (if args.Reaches spec.cell then 1 else 0) ≤ 1 := by split <;> omega
  rw [countP_buildMatrix] at hcell
  have hproduct := Nat.mul_le_mul hprofile
    (Nat.mul_le_mul hconcurrency (Nat.mul_le_mul hpayload hreaches))
  exact hcell.trans hproduct

/-- Distinct cells of a matrix have distinct labels, no file of a client is one of a server, and so
the files of any cells of the matrix are pairwise distinct as long as no cell is repeated. -/
theorem result_files_distinct (args : Arguments) (experimentId : Bytes) :
    (∀ spec ∈ buildMatrix args, ∀ spec' ∈ buildMatrix args,
      spec ≠ spec' → spec.label ≠ spec'.label) ∧
    (∀ spec ∈ buildMatrix args, ∀ spec' ∈ buildMatrix args,
      spec.metricsName experimentId ≠ spec'.serverMetricsName experimentId) ∧
    ∀ specs ⊆ buildMatrix args,
      ((specs.flatMap fun spec =>
        [spec.metricsName experimentId, spec.serverMetricsName experimentId]).Nodup ↔
          specs.Nodup) := by
  refine ⟨?_, ?_, ?_⟩
  · intro spec h spec' h' hne hlabel
    exact hne (eq_of_label_eq_of_mem_buildMatrix h h' hlabel)
  · intro spec _ spec' _
    exact spec.metricsName_ne_serverMetricsName experimentId spec'
  · intro specs hspecs
    exact nodup_fileNames_iff hspecs experimentId

end Experiment

end PqtlsLab
