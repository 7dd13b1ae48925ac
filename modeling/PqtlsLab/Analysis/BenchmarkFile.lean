import PqtlsLab.Analysis.RecordFiles
import PqtlsLab.Client.Records
import PqtlsLab.Client.WarmupRecords

/-!
# From a benchmark to its analysis

`run_benchmark` returns the numbers of the measured connections that succeeded and failed, and
leaves the statistics to `analyze-results.py`, which has only the file of the metrics writer. The
records of all connections are found there, so the two countings agree, except that the analysis
cannot tell the warm-up connections from the others.
-/

namespace PqtlsLab

namespace ClientAttempt

/-- A result says in its record whether it is one of success. -/
theorem ok_clientResult (a : ClientAttempt) :
    a.clientResult.ok = a.clientResult.metrics.success := by
  cases hok : a.clientResult.ok with
  | false => exact (failure_recorded hok).1.symm
  | true =>
    cases hresult : a.connectAndExchange.result with
    | error e => simp [clientResult, outcomeOrError, hresult] at hok
    | ok r =>
      obtain ⟨x, hx⟩ := exchange_of_result hresult
      obtain ⟨peer, _, -, -, -, -, hexchange⟩ := policy_of_exchange hx
      rw [hresult] at hexchange
      unfold exchangeResult at hexchange
      split at hexchange
      · cases hexchange
      · cases hexchange
        simp [clientResult, outcomeOrError, hresult, completeRecord]

end ClientAttempt

/-- What `run_once` returns is the result of a connection. -/
def BenchmarkInput.FromConnection : BenchmarkInput → Prop
  | .connect (.ok result) => ∃ a : ClientAttempt, result = a.clientResult
  | _ => True

namespace Benchmark

variable {lib : JsonLibrary} {config : ClientConfig} {writer : MetricsWriter}
variable {s s' : BenchmarkState} {w w' : BenchmarkWorker} {x : BenchmarkInput}

/-- The records of the warm-up connections that have come back. -/
def warmupRecords (s : BenchmarkState) : List ConnectionMetrics :=
  (s.returned.filter fun r => !r.1.isMeasured).map Prod.snd

/-- The records of success among some records. -/
def succeeded (records : List ConnectionMetrics) : ℕ := records.countP ConnectionMetrics.success

/-- The successful connections that a worker is about to report. -/
def reporting : BenchmarkWorker → ℕ
  | .recording result => if result.ok then 1 else 0
  | _ => 0

/-- A test of the loop reports nothing. -/
@[simp]
theorem reporting_testClaim (phase : Phase) (current : UInt32) :
    reporting (testClaim phase current) = 0 := by
  unfold testClaim
  split
  · rfl
  · cases phase <;> rfl

/-- A step records a measured success, hands it over to be reported or reports it. -/
theorem succeeded_of_move (hx : x.FromConnection) (h : WorkerMove lib config s w x s' w') :
    succeeded (measuredRecords s') + s.summary.handshakeMs.length + reporting w =
      succeeded (measuredRecords s) + s'.summary.handshakeMs.length + reporting w' := by
  cases h with
  | claim phase positive => cases phase <;> rfl
  | load phase => rw [reporting_testClaim]; rfl
  | retry phase current positive spurious => rw [reporting_testClaim]; rfl
  | complete phase result writer written =>
    obtain ⟨a, rfl⟩ := hx
    have hok := a.ok_clientResult
    cases phase with
    | warmup request => simp [measuredRecords, Phase.isMeasured, reporting, afterConnection]
    | measured =>
      simp only [measuredRecords, List.filter_append, Phase.isMeasured, List.filter_cons_of_pos,
        List.filter_nil, List.map_append, List.map_cons, List.map_nil, succeeded,
        List.countP_append, List.countP_singleton, afterConnection, reporting, hok]
      omega
  | record result =>
    by_cases hok : result.ok = true
    · simp only [measuredRecords, BenchmarkSummary.record, hok, if_true, reporting,
        List.length_append, List.length_singleton]
      omega
    · simp only [measuredRecords, BenchmarkSummary.record, hok, if_false, reporting,
        Bool.false_eq_true]
  | _ => rfl

/-- The measured connections of which a record of success has been written are counted, or about
to be. -/
theorem succeeded_of_run {actions : List (ℕ × BenchmarkInput)}
    {s : Threaded BenchmarkState BenchmarkWorker} (hactions : ∀ a ∈ actions, a.2.FromConnection)
    (h : (machine lib config writer).run actions = some s) :
    succeeded (measuredRecords s.shared) =
      s.shared.summary.handshakeMs.length + total reporting s.threads := by
  refine (machine lib config writer).run_invariant (P := fun a => a.2.FromConnection)
    (I := fun s => succeeded (measuredRecords s.shared) =
      s.shared.summary.handshakeMs.length + total reporting s.threads) ?_ ?_ hactions h
  · simp [machine, Machine.ofThreads, measuredRecords, succeeded, reporting]
  · intro s a t ha hs ht
    obtain ⟨w, u, v, hw, hcall, rfl⟩ := Machine.ofThreads_step_eq_some_iff.mp ht
    have hmove := succeeded_of_move ha (workerMove_of_step hcall)
    have hset := total_set reporting hw v
    simp only
    omega

/-- The lines of the file are those of the connections that have come back. -/
theorem lines_of_run {actions : List (ℕ × BenchmarkInput)}
    {s : Threaded BenchmarkState BenchmarkWorker} (henabled : writer.enabled = true)
    (h : (machine lib config writer).run actions = some s) :
    s.shared.writer.lines =
        writer.lines ++ s.shared.returned.map (fun r => r.2.text lib) ∧
      ∀ r ∈ s.shared.returned, r.2.TextValid := by
  have hall := Machine.run_shared (I := fun s : BenchmarkState => s.writer.enabled = true ∧
    s.writer.lines = writer.lines ++ s.returned.map (fun r => r.2.text lib) ∧
    ∀ r ∈ s.returned, r.2.TextValid) ?_ ?_ h
  · exact hall.2
  · simp [henabled]
  · rintro u w x u' w' ⟨hwriter, hlines, hvalid⟩ hstep
    cases workerMove_of_step hstep with
    | claim phase positive => cases phase <;> exact ⟨hwriter, hlines, hvalid⟩
    | complete phase result writer' written =>
      have htext : result.metrics.TextValid :=
        (MetricsWriter.write_eq_ok_iff lib u.writer result.metrics).mp (by rw [written]) hwriter
      have hline := (ConnectionMetrics.toJsonlLine_eq_ok_iff lib result.metrics _).mpr ⟨htext, rfl⟩
      simp only [MetricsWriter.write, hwriter, Bool.not_true, Bool.false_eq_true, if_false, hline,
        Prod.mk.injEq, and_true] at written
      subst written
      refine ⟨rfl, ?_, ?_⟩
      · simp only [hlines, List.map_append, List.map_cons, List.map_nil, List.append_assoc]
        rfl
      · intro r hr
        rcases List.mem_append.mp hr with hr | hr
        · exact hvalid r hr
        · rw [List.mem_singleton.mp hr]
          exact htext
    | _ => exact ⟨hwriter, hlines, hvalid⟩

/-- A step adds the record of a client only. -/
theorem role_of_move (hx : x.FromConnection) (hs : ∀ r ∈ s.returned, r.2.role = .client)
    (h : WorkerMove lib config s w x s' w') : ∀ r ∈ s'.returned, r.2.role = .client := by
  cases h with
  | claim phase positive => cases phase <;> exact hs
  | complete phase result writer written =>
    obtain ⟨a, rfl⟩ := hx
    intro r hr
    rcases List.mem_append.mp hr with hr | hr
    · exact hs r hr
    · rw [List.mem_singleton.mp hr]
      rfl
  | _ => exact hs

/-- All records are those of a client. -/
theorem role_of_run {actions : List (ℕ × BenchmarkInput)}
    {s : Threaded BenchmarkState BenchmarkWorker} (hactions : ∀ a ∈ actions, a.2.FromConnection)
    (h : (machine lib config writer).run actions = some s) :
    ∀ r ∈ s.shared.returned, r.2.role = .client := by
  refine (machine lib config writer).run_invariant (P := fun a => a.2.FromConnection)
    (I := fun s => ∀ r ∈ s.shared.returned, r.2.role = .client) ?_ ?_ hactions h
  · simp [machine, Machine.ofThreads]
  · intro s a t ha hs ht
    obtain ⟨w, u, v, hw, hcall, rfl⟩ := Machine.ofThreads_step_eq_some_iff.mp ht
    exact role_of_move ha hs (workerMove_of_step hcall)

/-- Among the records are those of the measured connections and those of the warm-up
connections. -/
theorem countP_returned (s : BenchmarkState) (p : ConnectionMetrics → Bool) :
    (s.returned.map Prod.snd).countP p =
      (measuredRecords s).countP p + (warmupRecords s).countP p := by
  have hperm := List.filter_append_perm
    (fun r : Phase × ConnectionMetrics => r.1.isMeasured) s.returned
  rw [← (hperm.map Prod.snd).countP_eq, List.map_append, List.countP_append]
  rfl

/-- When all workers have returned, the summary counts the measured connections by the success that
their records show. -/
theorem counts_of_finished {production : Bool} (hvalid : config.validate production = .ok ())
    {actions : List (ℕ × BenchmarkInput)} {s : Threaded BenchmarkState BenchmarkWorker}
    (hactions : ∀ a ∈ actions, a.2.Constructs ∧ a.2.FromConnection)
    (h : (machine lib config writer).run actions = some s) (hfinished : Finished s) :
    succeeded (measuredRecords s.shared) = s.shared.summary.successful.toNat ∧
      ((measuredRecords s.shared).countP fun m => !m.success) =
        s.shared.summary.failed.toNat := by
  have hzero {f : BenchmarkWorker → ℕ} (hf : f .finished = 0) : total f s.threads = 0 := by
    apply total_eq_zero
    intro w hw
    rw [hfinished w hw, hf]
  have hreported := succeeded_of_run (fun a ha => (hactions a ha).2) h
  rw [hzero rfl, (sampled_of_run h).1, Nat.add_zero] at hreported
  have hcounted := counted_of_run h
  rw [hzero rfl, counted, remaining_of_finished hvalid h hfinished, UInt32.toNat_zero] at hcounted
  obtain ⟨hmeasured, -⟩ := completed_of_finished hvalid (fun a ha => (hactions a ha).1) h hfinished
  have hlength := length_measuredRecords s.shared
  have hsplit := List.length_eq_countP_add_countP ConnectionMetrics.success
    (l := measuredRecords s.shared)
  simp only [Bool.not_eq_true, Bool.decide_eq_false] at hsplit
  rw [succeeded] at hreported ⊢
  omega

end Benchmark

namespace Analysis

open Benchmark Python RecordLines

/-- The sum of what some summaries say under a name. -/
def sumOf {F : Type} (summaries : List (Summary F)) (name : Bytes) : ℕ :=
  (summaries.map fun summary => summary.number name).sum

/-- The numbers of a record have no infinity and no NaN among them. -/
theorem finiteBits_of_loadedRecord {m : ConnectionMetrics} {name : Bytes} {bits : UInt64}
    (h : m.loadedRecord.get name = .float bits) : Json.finiteBits bits = true := by
  have hloaded : ∀ j : Json, j.loaded = .float bits → Json.finiteBits bits = true := by
    intro j hj
    cases j with
    | float b =>
      rw [Json.loaded] at hj
      split at hj
      · rename_i hfinite
        cases hj
        exact hfinite
      · cases hj
    | _ => simp [Json.loaded] at hj
  rw [ConnectionMetrics.loadedRecord, Dict.get, Json.lookup_loadedMembers] at h
  cases hlookup : m.toJson.members.lookup name with
  | none =>
    rw [hlookup] at h
    cases h
  | some value =>
    rw [hlookup] at h
    exact hloaded value h

/-- In exact arithmetic some finite numbers always have a distribution. -/
theorem exists_timesDistribution (arithmetic : Arithmetic) {records : List Dict} {name : Bytes}
    (hfinite : ∀ bits, .float bits ∈ times records name → Json.finiteBits bits = true) :
    ∃ d, timesDistribution arithmetic.numbers records name = .ok d := by
  have hconvert : ∃ values, (times records name).mapM arithmetic.numbers.float = .ok values := by
    simp only [mapM_eq_ok_iff_forall₂, exists_forall₂_iff]
    intro value hvalue
    have hnumber : isNumber value = true := (List.mem_filter.mp hvalue).2
    cases value with
    | bool b => exact ⟨_, rfl⟩
    | int i => exact ⟨_, rfl⟩
    | float bits =>
      obtain ⟨x, hx⟩ := Binary64.ofBits_of_exponent (bne_iff_ne.mp (hfinite bits hvalue))
      exact ⟨x, by simp only [Numbers.float, Arithmetic.numbers, hx]⟩
    | _ => cases hnumber
  obtain ⟨values, hvalues⟩ := hconvert
  have hdistribution : ∃ d, Distribution.of arithmetic.numbers values = .ok d := by
    by_cases hne : values = []
    · subst hne
      exact ⟨_, rfl⟩
    · exact ⟨_, Distribution.of_eq arithmetic hne⟩
  obtain ⟨d, hd⟩ := hdistribution
  exact ⟨d, bind_eq_ok_iff.mpr ⟨values, hvalues, hd⟩⟩

/-- In exact arithmetic the records of connections always have summaries. -/
theorem exists_summaries (python : Python) (arithmetic : Arithmetic) (groupBy : List Bytes)
    (records : List ConnectionMetrics) :
    ∃ summaries, summarise python arithmetic.numbers
      (records.map ConnectionMetrics.loadedRecord) groupBy = .ok summaries := by
  simp only [summarise_eq_ok_iff, exists_forall₂_iff, mem_sortedGroups_iff]
  rintro _ ⟨record, -, rfl⟩
  have htimes (name : Bytes) : ∃ d, timesDistribution arithmetic.numbers
      (successes (groupOf python groupBy (records.map ConnectionMetrics.loadedRecord) record))
        name = .ok d := by
    refine exists_timesDistribution arithmetic fun bits hbits => ?_
    obtain ⟨other, hother, hvalue⟩ := List.mem_map.mp (List.mem_filter.mp hbits).1
    obtain ⟨m, -, rfl⟩ := List.mem_map.mp (List.mem_filter.mp (List.mem_filter.mp hother).1).1
    exact finiteBits_of_loadedRecord hvalue
  obtain ⟨handshake, hhandshake⟩ := htimes (ascii "handshake_ms")
  obtain ⟨connection, hconnection⟩ := htimes (ascii "connection_ms")
  exact ⟨_, handshake, connection, hhandshake, hconnection, rfl⟩

/-- The role of a record is read as it is. -/
theorem isOneOf_role {m : ConnectionMetrics} (hrole : m.role = .client) :
    (m.loadedRecord.get (ascii "role")).isOneOf [some (ascii "client")] = true := by
  have hfield : m.fields.lookup (ascii "role") = some (.string m.role.toText) := rfl
  rw [ConnectionMetrics.get_loadedRecord hfield, hrole]
  rfl

/-- The success of a record is read as it is. -/
theorem flagged_success (m : ConnectionMetrics) :
    flagged (ascii "success") m.loadedRecord = m.success := by
  have hfield : m.fields.lookup (ascii "success") = some (.bool m.success) := rfl
  rw [flagged, ConnectionMetrics.get_loadedRecord hfield]
  cases m.success <;> rfl

/-- The analysis of the records of clients counts each of them, as a success or as a failure, and
ends as what it prints and writes lets it. -/
theorem totals_of_records (python : Python) (arithmetic : Arithmetic) (host : AnalyzeHost)
    {args : AnalyzeArgs} (hargs : ∀ role ∈ args.role, role = ascii "client")
    {records : List ConnectionMetrics} (hroles : ∀ m ∈ records, m.role = .client)
    (hne : records ≠ []) :
    ∃ summaries, summarise python arithmetic.numbers
          (args.selected (records.map ConnectionMetrics.loadedRecord)) args.groupBy =
        .ok summaries ∧
      main python arithmetic.numbers host args (records.map ConnectionMetrics.loadedRecord) =
        (do host.printCount; host.reports args; return ⟨0, downgradeWarnings summaries⟩) ∧
      sumOf summaries (ascii "total") = records.length ∧
      sumOf summaries (ascii "successful") = succeeded records ∧
      sumOf summaries (ascii "failed") = records.countP fun m => !m.success := by
  have hselected : args.selected (records.map ConnectionMetrics.loadedRecord) =
      records.map ConnectionMetrics.loadedRecord := by
    unfold AnalyzeArgs.selected
    cases hrole : args.role with
    | none => rfl
    | some role =>
      obtain rfl := hargs role hrole
      apply List.filter_eq_self.mpr
      intro record hrecord
      obtain ⟨m, hm, rfl⟩ := List.mem_map.mp hrecord
      exact isOneOf_role (hroles m hm)
  have hsome : (records.map ConnectionMetrics.loadedRecord).isEmpty = false := by
    simpa using hne
  obtain ⟨summaries, hsummaries⟩ := exists_summaries python arithmetic args.groupBy records
  have hsum (i : ℕ) {name : Bytes} {p : Dict → Bool} {q : ConnectionMetrics → Bool}
      (hname : ∀ handshake connection group,
        (statistics python arithmetic.numbers handshake connection group)[i]? =
          some (name, .count (group.countP p))) (hp : ∀ m, p m.loadedRecord = q m) :
      sumOf summaries name = records.countP q := by
    rw [sumOf, sum_number_of_summarise python arithmetic.numbers hsummaries i hname,
      List.countP_map]
    exact congrArg (records.countP ·) (funext hp)
  rw [main, hselected, hsome, hsummaries]
  refine ⟨summaries, rfl, rfl, ?_, ?_, ?_⟩
  · rw [hsum 0 (p := fun _ => true) (q := fun _ => true) ?_ fun _ => rfl, List.countP_true]
    intro handshake connection group
    rw [List.countP_true]
    rfl
  · refine hsum 1 ?_ flagged_success
    intro handshake connection group
    rw [List.countP_eq_length_filter]
    rfl
  · refine hsum 2 (p := fun record => !flagged (ascii "success") record) ?_
      fun m => congrArg _ (flagged_success m)
    intro handshake connection group
    rw [List.countP_eq_length_filter]
    rfl

/-- If all clients of a benchmark can be constructed and all workers return, then the analysis of
the file of the metrics writer, in exact arithmetic, has no warning about a line, succeeds unless
printing or writing fails, and over its groups counts every connection that was requested, and the
warm-up connections besides: as many successes and failures as the summary of the benchmark has, and
those of the warm-up connections. -/
theorem analysis_of_benchmark {json : JsonModule} {lib : JsonLibrary}
    (hnumbers : ReadsNumbers json.toFloat lib.floatText) (python : Python) (arithmetic : Arithmetic)
    (host : AnalyzeHost) {args : AnalyzeArgs} (hargs : ∀ role ∈ args.role, role = ascii "client")
    {production : Bool} {config : ClientConfig} (hvalid : config.validate production = .ok ())
    {actions : List (ℕ × BenchmarkInput)} {s : Threaded BenchmarkState BenchmarkWorker}
    (hactions : ∀ a ∈ actions, a.2.Constructs ∧ a.2.FromConnection)
    (hrun : (machine lib config ⟨true, [], []⟩).run actions = some s) (hfinished : Finished s)
    (path : Bytes) :
    let files := [⟨path, .ok (s.shared.writer.lines.flatMap fun line => line ++ [0x0A])⟩]
    ∃ found summaries, iterRecords json files = .ok (found, []) ∧
      summarise python arithmetic.numbers (args.selected (found.map Found.record)) args.groupBy =
        .ok summaries ∧
      mainOfFiles python arithmetic.numbers host json args files =
        (show Except PythonError Outcome from do
          host.printFiles
          host.printCount
          host.reports args
          return ⟨0, downgradeWarnings summaries⟩).mapError .inr ∧
      sumOf summaries (ascii "total") =
        config.connections.toNat + config.warmupConnections.toNat ∧
      sumOf summaries (ascii "successful") =
        s.shared.summary.successful.toNat + succeeded (warmupRecords s.shared) ∧
      sumOf summaries (ascii "failed") = s.shared.summary.failed.toNat +
        (warmupRecords s.shared).countP fun m => !m.success := by
  intro files
  have hconstructs : ∀ a ∈ actions, a.2.Constructs := fun a ha => (hactions a ha).1
  have hconnections : ∀ a ∈ actions, a.2.FromConnection := fun a ha => (hactions a ha).2
  obtain ⟨hmeasured, hwarmup⟩ := completed_of_finished hvalid hconstructs hrun hfinished
  obtain ⟨hlines, htexts⟩ := lines_of_run rfl hrun
  -- What the analysis finds.
  let records := s.shared.returned.map Prod.snd
  have hcontent : (s.shared.writer.lines.flatMap fun line => line ++ [0x0A]) =
      records.flatMap (MetricsFile.line lib) ++ [] := by
    rw [hlines, flatMap_line, List.map_map, List.append_nil]
    rfl
  have htext : ∀ m ∈ records, m.TextValid := by
    intro m hm
    obtain ⟨r, hr, rfl⟩ := List.mem_map.mp hm
    exact htexts r hr
  have hutf8 : Utf8.valid (records.flatMap (MetricsFile.line lib) ++ []) = true := by
    rw [List.append_nil]
    exact valid_flatMap_line hnumbers htext
  obtain ⟨found, warnings, hread, hfound, -, hsilent⟩ :=
    iterRecords_lines hnumbers (@List.nil_prefix _ (MetricsFile.line lib {})) path hutf8
  obtain rfl := hsilent (.inr rfl)
  obtain ⟨inner, hinner⟩ := @exists_text_eq_braces lib {}
  rw [if_neg (by simp [hinner]), List.append_nil] at hfound
  rw [← hcontent] at hread
  -- What it makes of the records.
  have hlength : records.length = config.connections.toNat + config.warmupConnections.toNat := by
    rw [List.length_map, ← completed_add_completed, hmeasured, hwarmup]
  obtain ⟨hpos, -⟩ := ClientConfig.counts_of_validate hvalid
  have hne : records ≠ [] := List.ne_nil_of_length_pos (by omega)
  have hroles : ∀ m ∈ records, m.role = .client := by
    intro m hm
    obtain ⟨r, hr, rfl⟩ := List.mem_map.mp hm
    exact role_of_run hconnections hrun r hr
  obtain ⟨summaries, hsummaries, hmain, htotal, hsuccessful, hfailed⟩ :=
    totals_of_records python arithmetic host hargs hroles hne
  rw [← hfound] at hsummaries hmain
  obtain ⟨hsucceeded, hlost⟩ := counts_of_finished hvalid hactions hrun hfinished
  refine ⟨found, summaries, hread, hsummaries, ?_, htotal.trans hlength, ?_, ?_⟩
  · rw [mainOfFiles, hread]
    cases host.printFiles with
    | error e => rfl
    | ok _ =>
      simp only [Except.mapError, bind, Except.bind, hmain]
      cases host.printCount with
      | error e => rfl
      | ok _ => cases host.reports args <;> rfl
  · rw [hsuccessful, ← hsucceeded]
    exact countP_returned s.shared _
  · rw [hfailed, ← hlost]
    exact countP_returned s.shared _

/-- A library that reads the shortest messages. -/
def measuredLibrary : JsonLibrary :=
  { Message.minimalLibrary with floatText := bitsLibrary.floatText }

/-- A client that is answered once. -/
def answeredClient : ClientAttempt :=
  ClientAttempt.sample measuredLibrary SslView.sample [Chunk.pong]

/-- What `run_once` makes of the end of a connection. -/
def resultOf (a : ClientAttempt) (ending : Except Thrown ClientResult) : ClientResult :=
  let outcome := match ending with
    | .ok result => result
    | .error e => { metrics := ({} : ConnectionMetrics).withError e }
  { outcome with metrics := a.completeRecord outcome.metrics }

/-- The state of the exchange of the client that is answered, after some steps. -/
def answeredAfter (n : ℕ) : Exchange :=
  (answeredClient.exchangeEnv .standard).state n

/-- What it returns. -/
def answeredResult : ClientResult :=
  resultOf answeredClient
    (answeredClient.exchangeResult (.inet (ascii "127.0.0.1") 8443) (answeredAfter 7))

/-- The client has finished after seven steps. -/
theorem clientResult_answeredClient : answeredClient.clientResult = answeredResult := by
  let env := answeredClient.exchangeEnv .standard
  have hfinal : env.final = answeredAfter 7 := env.final_eq_state (by decide +kernel)
  have hresult : answeredClient.connectAndExchange.result =
      answeredClient.exchangeResult (.inet (ascii "127.0.0.1") 8443) (answeredAfter 7) := by
    rw [← hfinal]
    rfl
  calc answeredClient.clientResult
      = resultOf answeredClient answeredClient.connectAndExchange.result := rfl
    _ = answeredResult := by rw [hresult, answeredResult]

/-- A client whose handshake fails. -/
def rejectedClient : ClientAttempt :=
  { ClientAttempt.sample measuredLibrary SslView.sample [] with
    connectFailure := some .zeroReturn }

/-- Two measured connections after one for warming up. The first two fail. -/
def mixedRun : List (ℕ × BenchmarkInput) :=
  let connection (result : ClientResult) : List (ℕ × BenchmarkInput) :=
    [(0, .proceed), (0, .compareExchange false), (0, .request fun _ => Label.sample),
      (0, .connect (.ok result)), (0, .proceed)]
  (0, .construct (.ok Label.sample)) :: connection rejectedClient.clientResult ++
    connection rejectedClient.clientResult ++ connection answeredResult ++ [(0, .proceed)]

/-- The analysis counts two failures where the benchmark reports one, and the one success. -/
theorem analysis_of_benchmark_rejected :
    ∃ content found summaries,
      iterRecords bitsJson [⟨ascii "client.jsonl", .ok content⟩] = .ok (found, []) ∧
      summarise .ofAscii Arithmetic.ofSquares.numbers (found.map Found.record)
        (AnalyzeArgs.groupBy {}) = .ok summaries ∧
      sumOf summaries (ascii "total") = 3 ∧ sumOf summaries (ascii "successful") = 1 ∧
      sumOf summaries (ascii "failed") = 2 := by
  let config : ClientConfig := { connections := 2, warmupConnections := 1 }
  have hany := (machine measuredLibrary config ⟨true, [], []⟩).exists_of_run_any mixedRun
    (fun s => Finished s ∧ s.shared.summary.successful = 1 ∧ s.shared.summary.failed = 1 ∧
      succeeded (warmupRecords s.shared) = 0 ∧
      ((warmupRecords s.shared).countP fun m => !m.success) = 1) (by decide +kernel)
  obtain ⟨s, hrun, hfinished, hsuccessful, hfailed, hnone, hwarmup⟩ := hany
  have hactions : ∀ a ∈ mixedRun, a.2.Constructs ∧ a.2.FromConnection := by
    simp [mixedRun, BenchmarkInput.Constructs, BenchmarkInput.FromConnection,
      ← clientResult_answeredClient]
  obtain ⟨found, summaries, hread, hsummaries, -, htotal, hsum, hrest⟩ :=
    @analysis_of_benchmark bitsJson measuredLibrary readsNumbers_bits .ofAscii .ofSquares .willing
      {} (by simp) false config rfl _ s hactions hrun hfinished (ascii "client.jsonl")
  rw [hsuccessful, hnone] at hsum
  rw [hfailed, hwarmup] at hrest
  exact ⟨_, found, summaries, hread, hsummaries, htotal, hsum, hrest⟩

end Analysis

end PqtlsLab
