import PqtlsLab.Connection.RecordLines
import PqtlsLab.Validator.MetricsSchema

/-!
# Validating result files

`validate_file` of `result_validator.py` goes through the lines of a file, and `main` through the
files: it prints what is wrong and says so by its exit code. The package `jsonschema`, where it is
installed, takes the place of the structural check; it is a parameter. The files that the metrics
writer leaves behind are valid.
-/

namespace PqtlsLab.Validator

open Python MetricsFile RecordLines

/-- `Violation`. -/
structure Violation where
  path : Bytes
  line : ℕ
  kind : Bytes
  message : Bytes

/-- `str(violation)`. -/
def Violation.text (v : Violation) : Bytes :=
  v.path ++ ascii ":" ++ decimal v.line ++ ascii " [" ++ v.kind ++ ascii "] " ++ v.message

/-- `Report`. -/
structure Report where
  files : ℕ
  records : ℕ
  violations : List Violation
  schemaBackend : Bytes

/-- An error that a schema validator reports: the texts of the steps to the value, and a message. -/
structure SchemaError where
  path : List Bytes
  message : Bytes

/-- The text of the violation that is made of an error. -/
def SchemaError.text (e : SchemaError) : Bytes :=
  (if e.path.isEmpty then ascii "<root>" else List.intercalate (ascii "/") e.path) ++
    ascii ": " ++ e.message

/-- What `load_schema_validator` returns: the errors of a record in the order of their paths, if
there is a validator, and the name of what is used. -/
structure SchemaBackend where
  validator : Option (Dict → List SchemaError)
  name : Bytes

/-- The exceptions that reach `main`. -/
inductive ValidatorError where
  | read (path : Bytes) (e : ReadError)
  | typeError (e : TypeError)

variable (python : Python) (json : JsonModule) (backend : SchemaBackend)

/-- The kinds and the texts of the violations of a record. -/
def recordViolations (record : Dict) : Except TypeError (List (Bytes × Bytes)) := do
  let structural ← match backend.validator with
    | some errors => pure ((errors record).map fun e => (ascii "schema", e.text))
    | none => do
      let problems ← builtinStructuralCheck python record
      pure (problems.map fun problem => (ascii "structure", problem))
  return structural ++ (semanticCheck python record).map fun problem => (ascii "semantic", problem)

/-- The body of the loop of `validate_file`. -/
def validateLine (path : Bytes) (report : Report) (line : ℕ × Bytes) : Except TypeError Report :=
  match json.load line.2 with
  | none =>
    .ok { report with violations := report.violations ++
      [⟨path, line.1, ascii "json", ascii "not valid JSON: " ++ json.message line.2⟩] }
  | some (.object record) => do
    let found ← recordViolations python backend record
    return { report with
      records := report.records + 1
      violations := report.violations ++ found.map fun v => ⟨path, line.1, v.1, v.2⟩ }
  | some _ =>
    .ok { report with violations := report.violations ++
      [⟨path, line.1, ascii "json", ascii "each JSONL line must be a JSON object"⟩] }

/-- `validate_file`. -/
def validateFile (report : Report) (file : TextFile) : Except ValidatorError Report := do
  let lines ← file.numberedLines.mapError (.read file.path)
  (lines.foldlM (validateLine python json backend file.path)
    { report with files := report.files + 1 }).mapError .typeError

/-- An argument of the command line. -/
inductive PathArgument where
  /-- A directory with some files whose names end in `.jsonl`, in the order of their names. -/
  | directory (files : List TextFile)
  | file (file : TextFile)
  /-- There is nothing of this name. -/
  | missing (path : Bytes)

/-- The files that `main` goes through, or the first name that does not exist. -/
def collectFiles : List PathArgument → Except Bytes (List TextFile)
  | [] => .ok []
  | .directory files :: arguments => do return files ++ (← collectFiles arguments)
  | .file file :: arguments => do return file :: (← collectFiles arguments)
  | .missing path :: _ => .error path

/-- The arguments of `result_validator.py`. -/
structure ValidatorArgs where
  paths : List PathArgument
  quiet : Bool
  maxViolations : ℤ

/-- `violations[:limit]`. -/
def sliceTo (limit : ℤ) (violations : List Violation) : List Violation :=
  if 0 ≤ limit then violations.take limit.toNat
  else violations.take (violations.length - limit.natAbs)

/-- The note about a missing package. -/
def builtinNote : List Bytes :=
  [ascii "note: the 'jsonschema' package is not installed; using the built-in structural",
    ascii "      checker. Install it with 'pip install jsonschema' for full schema coverage."]

/-- The violations that are printed. -/
def listing (args : ValidatorArgs) (report : Report) : List Bytes :=
  let count := report.violations.length
  let limit := if args.maxViolations = 0 then (count : ℤ) else args.maxViolations
  if args.quiet then []
  else
    (sliceTo limit report.violations).map Violation.text ++
      if limit < count then [ascii "... and " ++ decimalInt (count - limit) ++ ascii " more"]
      else []

/-- The line that sums up a report. -/
def summaryLine (report : Report) : Bytes :=
  ascii "validated " ++ decimal report.records ++ ascii " record(s) in " ++
    decimal report.files ++ ascii " file(s) using " ++ report.schemaBackend ++ ascii ": " ++
    if report.violations.isEmpty then ascii "OK"
    else decimal report.violations.length ++ ascii " violation(s)"

/-- There is nothing to print about a report without violations. -/
theorem listing_eq_nil {args : ValidatorArgs} {report : Report} (hlimit : 0 ≤ args.maxViolations)
    (h : report.violations = []) : listing args report = [] := by
  by_cases hzero : args.maxViolations = 0
  · simp [listing, h, hzero, sliceTo]
  · simp [listing, h, hzero, sliceTo, not_lt.mpr hlimit]

/-- What `main` leaves behind: its exit code, and the lines that it has written. -/
structure Outcome where
  exitCode : ℕ
  stdout : List Bytes
  stderr : List Bytes

/-- `main`. Only a file that cannot be read is caught. -/
def main (args : ValidatorArgs) : Except ValidatorError Outcome :=
  match collectFiles args.paths with
  | .error path => .ok ⟨2, [], [ascii "error: " ++ path ++ ascii " does not exist"]⟩
  | .ok files =>
    if files.isEmpty then .ok ⟨2, [], [ascii "error: no .jsonl files to validate"]⟩
    else
      let note := if backend.name = ascii "builtin" && !args.quiet then builtinNote else []
      match files.foldlM (validateFile python json backend) ⟨0, 0, [], backend.name⟩ with
      | .error (.read path (.osError text)) =>
        .ok ⟨2, [], note ++ [ascii "error: cannot read " ++ path ++ ascii ": " ++ text]⟩
      | .error e => .error e
      | .ok report =>
        .ok ⟨if report.violations.isEmpty then 0 else 1, [summaryLine report],
          note ++ listing args report⟩

/-- The record of a connection of client or server, under a profile of a registry and with times
that clocks can measure. -/
inductive ConnectionRecord (registry : ProfileRegistry) : ConnectionMetrics → Prop where
  | client (a : ClientAttempt) (hget : registry.get a.config.common.profileId = .ok a.profile)
      (hreported : ∀ o, a.Completes o → o.Reported) (hhandshake : IsDuration a.handshakeMs)
      (hconnection : IsDuration a.connectionMs) (husage : a.usage.Reported) :
      ConnectionRecord registry a.clientResult.metrics
  | server (a : ServerAttempt) (hget : registry.get a.config.common.profileId = .ok a.profile)
      (hreported : ∀ o, a.Completes o → o.Reported) (hhandshake : IsDuration a.handshakeMs)
      (hconnection : IsDuration a.connectionMs) (husage : a.usage.Reported) :
      ConnectionRecord registry a.handleConnection.record

/-- A file that some threads have filled with records, all of them of connections, and that none of
them is writing to. -/
def FilledWith (lib : JsonLibrary) (registry : ProfileRegistry) (file : TextFile)
    (records : List ConnectionMetrics) : Prop :=
  ∃ threads actions s, (machine lib [] threads).run actions = some s ∧
    (∀ i m, (i, WriterInput.call (some m)) ∈ actions → ConnectionRecord registry m) ∧
    (∀ w ∈ s.threads, writing w = none) ∧ file.content = .ok s.shared.file ∧
    s.shared.written = records

/-- A schema validator finds no error in records that are valid for the schema. -/
def SchemaBackend.Permissive (backend : SchemaBackend) (dialect : Dialect) : Prop :=
  ∀ errors, backend.validator = some errors → ∀ record,
    (metricsSchema dialect).accepts (.object record) = true → errors record = []

section Accepted

variable {python json backend} {lib : JsonLibrary} {registry : ProfileRegistry}
  {dialect : Dialect} {m : ConnectionMetrics}

/-- The record of a connection is acceptable, keeps the promise of its profile and conforms to the
schema. -/
theorem ConnectionRecord.acceptable_conforms (hnames : registry.NamesHonest)
    (h : ConnectionRecord registry m) : Acceptable m ∧ KeepsPromise m ∧ Conforms dialect m := by
  cases h with
  | client a hget hreported hhandshake hconnection husage =>
    have haccepted := a.acceptable hreported hhandshake hconnection
    obtain ⟨hid, huser, hsystem⟩ := a.generated husage
    exact ⟨haccepted, a.keepsPromise hnames hget,
      conforms_of_acceptable haccepted hid huser hsystem⟩
  | server a hget hreported hhandshake hconnection husage =>
    have haccepted := a.acceptable hreported hhandshake hconnection
    obtain ⟨hid, huser, hsystem⟩ := a.generated husage
    exact ⟨haccepted, a.keepsPromise hnames hget,
      conforms_of_acceptable haccepted hid huser hsystem⟩

/-- There is nothing wrong with the record of a connection. -/
theorem recordViolations_eq_nil (hnames : registry.NamesHonest)
    (hbackend : backend.Permissive dialect) (h : ConnectionRecord registry m) :
    recordViolations python backend m.loadedRecord = .ok [] := by
  obtain ⟨haccepted, hpromise, hconforms⟩ : Acceptable m ∧ KeepsPromise m ∧ Conforms dialect m :=
    h.acceptable_conforms hnames
  unfold recordViolations
  rw [semanticCheck_of_acceptable haccepted hpromise]
  cases hvalidator : backend.validator with
  | none =>
    rw [builtinStructuralCheck_of_acceptable haccepted]
    rfl
  | some errors =>
    have hnone := hbackend errors hvalidator _ (metricsSchema_accepts_iff.mpr hconforms)
    simp [hnone, bind, Except.bind, pure, Except.pure]

variable (hnumbers : ReadsNumbers json.toFloat lib.floatText) (hnames : registry.NamesHonest)
  (hbackend : backend.Permissive dialect)

include hnumbers hnames hbackend

/-- The lines of records of connections are counted, and that is all. -/
theorem foldlM_validateLine (path : Bytes) {records : List ConnectionMetrics}
    (h : ∀ m ∈ records, ConnectionRecord registry m) (n : ℕ) (report : Report) :
    (((records.map fun m => m.text lib).zipIdx n).map Prod.swap).foldlM
        (validateLine python json backend path) report =
      .ok { report with records := report.records + records.length } := by
  induction records generalizing n report with
  | nil => rfl
  | cons m records ih =>
    have hm : recordViolations python backend m.loadedRecord = .ok [] :=
      recordViolations_eq_nil hnames hbackend (h m (by simp))
    have hline : validateLine python json backend path report (n, m.text lib) =
        .ok { report with records := report.records + 1 } := by
      simp [validateLine, load_text hnumbers, hm, bind, Except.bind, pure, Except.pure]
    rw [List.map_cons, List.zipIdx_cons, List.map_cons, List.foldlM_cons, Prod.swap_prod_mk, hline]
    simp only [bind, Except.bind]
    rw [ih (fun m' hm' => h m' (by simp [hm']))]
    simp [Nat.add_assoc, Nat.add_comm 1]

/-- A file that has been filled with records of connections is counted, and its records are. -/
theorem validateFile_of_filled {file : TextFile} {records : List ConnectionMetrics}
    (h : FilledWith lib registry file records) (report : Report) :
    validateFile python json backend report file =
      .ok { report with
        files := report.files + 1
        records := report.records + records.length } := by
  obtain ⟨threads, actions, s, hrun, hcalls, hquiet, hcontent, rfl⟩ := h
  have hrecords : ∀ m ∈ s.shared.written, ConnectionRecord registry m := by
    intro m hm
    obtain ⟨i, hi⟩ := requested_of_run hrun m hm
    exact hcalls i m hi
  obtain ⟨tail, hfile, htail⟩ := contents_of_run hrun
  obtain rfl : tail = [] := by
    rcases htail with htail | ⟨w, hw, m, hm, -⟩
    · exact htail
    · rw [hquiet w hw] at hm
      cases hm
  rw [List.nil_append] at hfile
  have hvalid : Utf8.valid s.shared.file = true := by
    rw [hfile, List.append_nil]
    exact valid_flatMap_line hnumbers (textValid_of_run hrun).1
  have hlines : file.numberedLines =
      .ok (((s.shared.written.map fun m => m.text lib).zipIdx 1).map Prod.swap) := by
    rw [TextFile.numberedLines, hcontent]
    simp only [hvalid, if_true]
    rw [hfile, strippedLines_flatMap_line hnumbers]
    exact congrArg Except.ok (List.append_nil _)
  rw [validateFile, hlines]
  simp only [Except.mapError, bind, Except.bind]
  rw [foldlM_validateLine hnumbers hnames hbackend file.path hrecords]

/-- Files that have been filled with records of connections are counted, and their records are. -/
theorem foldlM_validateFile {entries : List (TextFile × List ConnectionMetrics)}
    (h : ∀ entry ∈ entries, FilledWith lib registry entry.1 entry.2) (report : Report) :
    (entries.map Prod.fst).foldlM (validateFile python json backend) report =
      .ok { report with
        files := report.files + entries.length
        records := report.records + (entries.map fun entry => entry.2.length).sum } := by
  induction entries generalizing report with
  | nil => rfl
  | cons entry entries ih =>
    have hfile : validateFile python json backend report entry.1 = _ :=
      validateFile_of_filled hnumbers hnames hbackend (h entry (by simp)) report
    rw [List.map_cons, List.foldlM_cons, hfile]
    simp only [bind, Except.bind]
    rw [ih fun entry' hentry' => h entry' (by simp [hentry'])]
    simp [Nat.add_assoc, Nat.add_comm 1]

end Accepted

/-- Files that clients and servers have filled with the records of their connections, with any
number of threads and whatever has become of the connections, are valid: the validator counts the
records, prints no violation and exits with zero, with or without the package `jsonschema`. -/
theorem result_files_valid (python : Python) {json : JsonModule} {lib : JsonLibrary}
    (hnumbers : ReadsNumbers json.toFloat lib.floatText) {registry : ProfileRegistry}
    (hnames : registry.NamesHonest) {backend : SchemaBackend} {dialect : Dialect}
    (hbackend : backend.Permissive dialect) (args : ValidatorArgs)
    {entries : List (TextFile × List ConnectionMetrics)} (hne : entries ≠ [])
    (hcollect : collectFiles args.paths = .ok (entries.map Prod.fst))
    (hfilled : ∀ entry ∈ entries, FilledWith lib registry entry.1 entry.2) :
    ∃ stderr, main python json backend args =
      .ok ⟨0, [summaryLine ⟨entries.length, (entries.map fun entry => entry.2.length).sum, [],
        backend.name⟩], stderr⟩ ∧
      (0 ≤ args.maxViolations → ∀ line ∈ stderr, line ∈ builtinNote) := by
  have hfold : (entries.map Prod.fst).foldlM (validateFile python json backend)
      ⟨0, 0, [], backend.name⟩ = _ := foldlM_validateFile hnumbers hnames hbackend hfilled _
  simp only [Nat.zero_add] at hfold
  have hfiles : (entries.map Prod.fst).isEmpty = false := by
    rw [List.isEmpty_eq_false_iff]
    simpa using hne
  unfold main
  rw [hcollect]
  simp only [hfiles, Bool.false_eq_true, if_false, hfold, List.isEmpty_nil, if_true]
  refine ⟨_, rfl, fun hlimit line hline => ?_⟩
  rcases List.mem_append.mp hline with hline | hline
  · split at hline
    · exact hline
    · cases hline
  · rw [listing_eq_nil hlimit rfl] at hline
    cases hline

/-- A run of one thread that writes some records. -/
def writingRun (records : List ConnectionMetrics) : List (ℕ × WriterInput) :=
  records.flatMap fun m =>
    [(0, .call (some m)), (0, .proceed), (0, .proceed), (0, .insert 2000), (0, .proceed),
      (0, .spill 2000), (0, .proceed), (0, .proceed)]

/-- A client whose handshake fails. -/
def failingClient : ClientAttempt :=
  { ClientAttempt.sample bitsLibrary SslView.sample [] with connectFailure := some .zeroReturn }

/-- A server whose handshake fails. -/
def failingServer : ServerAttempt :=
  { ServerAttempt.sample bitsLibrary [] with accepted := false }

/-- The records of a failed handshake are valid. -/
theorem result_files_valid_failures :
    ∃ content stderr, main .ofAscii bitsJson ⟨none, ascii "builtin"⟩
        ⟨[.file ⟨ascii "results.jsonl", .ok content⟩], false, 50⟩ =
      .ok ⟨0, [summaryLine ⟨1, 2, [], ascii "builtin"⟩], stderr⟩ ∧
      ∀ line ∈ stderr, line ∈ builtinNote := by
  let records := [failingClient.clientResult.metrics, failingServer.handleConnection.record]
  obtain ⟨registry, hregistry⟩ : ∃ registry, ProfileRegistry.builtin = .ok registry := ⟨_, rfl⟩
  have hget : registry.get (ascii "hybrid-x25519-mlkem768") = .ok SecurityProfile.hybrid := by
    cases hregistry
    rfl
  have hreported : (inspect SslView.sample).Reported := ⟨rfl, by decide, by decide⟩
  have husage : (⟨none, none, none⟩ : ResourceUsage).Reported := ⟨nofun, nofun⟩
  have hcalls : ∀ i m, (i, WriterInput.call (some m)) ∈ writingRun records →
      ConnectionRecord registry m := by
    intro i m hm
    have hm : m ∈ records := by
      simp only [writingRun, List.mem_flatMap] at hm
      obtain ⟨m', hm', hcall⟩ := hm
      have heq : m = m' := by simpa using And.right (by simpa using hcall : i = 0 ∧ m = m')
      exact heq ▸ hm'
    obtain rfl | rfl : m = failingClient.clientResult.metrics ∨
        m = failingServer.handleConnection.record := by simpa [records] using hm
    · refine .client _ hget ?_ isDuration_zero isDuration_zero husage
      rintro o ⟨-, -, rfl⟩
      exact hreported
    · refine .server _ hget ?_ isDuration_zero isDuration_zero husage
      rintro o ⟨-, -, rfl⟩
      exact hreported
  have hany := (machine bitsLibrary [] 1).exists_of_run_any (writingRun records)
    (fun s => (∀ w ∈ s.threads, writing w = none) ∧ s.shared.written.length = 2) (by decide +kernel)
  obtain ⟨s, hrun, hquiet, hwritten⟩ := hany
  obtain ⟨stderr, hmain, hstderr⟩ := @result_files_valid .ofAscii _ _ readsNumbers_bits _
    (ProfileRegistry.namesHonest_builtin hregistry) ⟨none, ascii "builtin"⟩ .python nofun
    ⟨[.file ⟨ascii "results.jsonl", .ok s.shared.file⟩], false, 50⟩
    [(⟨ascii "results.jsonl", .ok s.shared.file⟩, s.shared.written)] (List.cons_ne_nil _ _) rfl
    (List.forall_mem_singleton.mpr ⟨1, _, s, hrun, hcalls, hquiet, rfl, rfl⟩)
  refine ⟨s.shared.file, stderr, ?_, hstderr (show (0 : ℤ) ≤ 50 by decide)⟩
  rw [hmain]
  simp [hwritten]

end PqtlsLab.Validator
