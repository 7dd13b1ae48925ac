import PqtlsLab.Analysis.DowngradeWarnings
import PqtlsLab.Connection.RecordLines

/-!
# Reading files of records

`iter_records` of `analyze-results.py` goes through the lines of the files, skips what is not an
object and yields the rest. A file may have been left behind by a process that was killed, and
another process may have appended to it: here it is compared with the runs of the metrics writer
which records are found.
-/

namespace PqtlsLab

namespace Analysis

open Python MetricsFile RecordLines

/-- What `iter_records` yields. -/
structure Found where
  path : Bytes
  lineNumber : ℕ
  record : Dict

/-- The record on a line. -/
def lineRecord (json : JsonModule) (line : Bytes) : Option Dict :=
  match json.load line with
  | some (.object record) => some record
  | _ => none

/-- The warning about a line without a record. -/
def lineWarning (json : JsonModule) (path : Bytes) (number : ℕ) (line : Bytes) : Option Bytes :=
  match json.load line with
  | some (.object _) => none
  | some _ =>
    some (ascii "warning: " ++ path ++ ascii ":" ++ decimal number ++
      ascii " is not a JSON object; skipped")
  | none =>
    some (ascii "warning: " ++ path ++ ascii ":" ++ decimal number ++
      ascii " is not valid JSON and was skipped (" ++ json.errorText line ++ ascii ")")

/-- What is yielded from some lines. -/
def foundIn (json : JsonModule) (path : Bytes) (lines : List (ℕ × Bytes)) : List Found :=
  lines.filterMap fun line => (lineRecord json line.2).map fun record => ⟨path, line.1, record⟩

/-- What is written to `stderr` about some lines. -/
def warningsIn (json : JsonModule) (path : Bytes) (lines : List (ℕ × Bytes)) : List Bytes :=
  lines.filterMap fun line => lineWarning json path line.1 line.2

/-- The body of the outer loop of `iter_records`. -/
def fileRecords (json : JsonModule) (file : TextFile) :
    Except ReadError (List Found × List Bytes) := do
  let lines ← file.numberedLines
  return (foundIn json file.path lines, warningsIn json file.path lines)

/-- `iter_records`. An exception ends the program. Not modelled are the exceptions of `json.loads`
other than `JSONDecodeError`: a `ValueError` for an integer of more than 4300 digits and a
`RecursionError` for a text that is nested too deeply. -/
def iterRecords (json : JsonModule) (files : List TextFile) :
    Except ReadError (List Found × List Bytes) := do
  let each ← files.mapM (fileRecords json)
  return (each.flatMap Prod.fst, each.flatMap Prod.snd)

/-- `main`, after the arguments have been read and the files collected. -/
def mainOfFiles {F : Type} (python : Python) (numbers : Numbers F) (host : AnalyzeHost)
    (json : JsonModule) (args : AnalyzeArgs) (files : List TextFile) :
    Except (ReadError ⊕ PythonError) Outcome := do
  host.printFiles.mapError .inr
  let (found, warnings) ← (iterRecords json files).mapError .inl
  let outcome ← (main python numbers host args (found.map Found.record)).mapError .inr
  return { outcome with stderr := warnings ++ outcome.stderr }

section Lines

variable {json : JsonModule} {lib : JsonLibrary}

/-- What `iter_records` makes of one file that is UTF-8. -/
theorem iterRecords_singleton {content : Bytes} (hvalid : Utf8.valid content = true)
    (path : Bytes) :
    iterRecords json [⟨path, .ok content⟩] =
      .ok (foundIn json path (strippedLines 1 (lines content)),
        warningsIn json path (strippedLines 1 (lines content))) := by
  simp [iterRecords, fileRecords, TextFile.numberedLines, hvalid, bind, Except.bind, pure,
    Except.pure]

variable (hnumbers : ReadsNumbers json.toFloat lib.floatText)

include hnumbers

/-- On the lines of records their records are found. -/
theorem records_foundIn (path : Bytes) (records : List ConnectionMetrics) (n : ℕ)
    (rest : List (ℕ × Bytes)) :
    (foundIn json path (((records.map fun m => m.text lib).zipIdx n).map Prod.swap ++ rest)).map
        Found.record =
      records.map ConnectionMetrics.loadedRecord ++ (foundIn json path rest).map Found.record := by
  induction records generalizing n with
  | nil => rfl
  | cons m records ih =>
    have hrecord : lineRecord json (m.text lib) = some m.loadedRecord := by
      rw [lineRecord, load_text hnumbers]
    simp only [foundIn] at ih ⊢
    simp only [List.map_cons, List.zipIdx_cons, List.cons_append, Prod.swap_prod_mk,
      List.filterMap_cons, hrecord, Option.map_some, ih]

/-- On the lines of records there is nothing to warn about. -/
theorem warningsIn_records (path : Bytes) (records : List ConnectionMetrics) (n : ℕ)
    (rest : List (ℕ × Bytes)) :
    warningsIn json path (((records.map fun m => m.text lib).zipIdx n).map Prod.swap ++ rest) =
      warningsIn json path rest := by
  induction records generalizing n with
  | nil => rfl
  | cons m records ih =>
    have hwarning (number : ℕ) : lineWarning json path number (m.text lib) = none := by
      rw [lineWarning, load_text hnumbers]
    simp only [warningsIn] at ih ⊢
    simp only [List.map_cons, List.zipIdx_cons, List.cons_append, Prod.swap_prod_mk,
      List.filterMap_cons, hwarning, ih]

/-- What is found in a file that begins with the lines of records, and how much there is to warn
about, if the rest is the beginning of the line of a record. -/
theorem iterRecords_lines {before : List ConnectionMetrics} {m : ConnectionMetrics} {part : Bytes}
    (hpart : part <+: line lib m) (path : Bytes)
    (hvalid : Utf8.valid (before.flatMap (line lib) ++ part) = true) :
    ∃ found warnings,
      iterRecords json [⟨path, .ok (before.flatMap (line lib) ++ part)⟩] = .ok (found, warnings) ∧
      found.map Found.record = (before ++ if m.text lib <+: part then [m] else []).map
        ConnectionMetrics.loadedRecord ∧
      warnings.length ≤ 1 ∧ (m.text lib <+: part ∨ part = [] → warnings = []) := by
  have hlines := strippedLines_flatMap_line hnumbers before 1 part
  refine ⟨_, _, iterRecords_singleton hvalid path, ?_, ?_⟩
  · rw [hlines, records_foundIn hnumbers, List.map_append]
    congr 1
    rcases strippedLines_part hnumbers hpart (1 + before.length) with
      ⟨hlong, hrest⟩ | ⟨hlong, hrest⟩
    · rw [hrest, if_pos hlong]
      simp [foundIn, lineRecord, load_text hnumbers]
    · rw [if_neg hlong]
      rcases hrest with hrest | ⟨text, hload, hrest⟩
      · rw [hrest]
        rfl
      · rw [hrest]
        simp [foundIn, lineRecord, hload]
  · rw [hlines, warningsIn_records hnumbers]
    rcases strippedLines_part hnumbers hpart (1 + before.length) with
      ⟨hlong, hrest⟩ | ⟨hlong, hrest⟩
    · rw [hrest]
      simp [warningsIn, lineWarning, load_text hnumbers]
    · rcases hrest with hrest | ⟨text, hload, hrest⟩
      · rw [hrest]
        simp [warningsIn]
      · have hne : part ≠ [] := by
          rintro rfl
          cases hrest
        rw [hrest]
        simp [warningsIn, lineWarning, hload, hlong, hne]

/-- What is found in a file to which a process has appended that did not find the file at the
beginning of a line: the first record that it has written is lost, together with the record before
it. -/
theorem iterRecords_resumed {before : List ConnectionMetrics} {m : ConnectionMetrics}
    {part : Bytes} (hpart : part <+: m.text lib) (hne : part ≠ []) (first : ConnectionMetrics)
    (records : List ConnectionMetrics) (path : Bytes)
    (hvalid : Utf8.valid (before.flatMap (line lib) ++ part ++
      (first :: records).flatMap (line lib)) = true) :
    ∃ found warnings,
      iterRecords json [⟨path, .ok (before.flatMap (line lib) ++ part ++
        (first :: records).flatMap (line lib))⟩] = .ok (found, warnings) ∧
      found.map Found.record = (before ++ records).map ConnectionMetrics.loadedRecord := by
  obtain ⟨inner, hinner⟩ := @exists_text_eq_braces lib m
  obtain ⟨inner', hinner'⟩ := @exists_text_eq_braces lib first
  obtain ⟨start, rfl⟩ : ∃ start, part = 0x7B :: start := by
    obtain ⟨b, start, rfl⟩ := List.exists_cons_of_ne_nil hne
    rw [hinner] at hpart
    exact ⟨start, congrArg (· :: start) (List.cons_prefix_cons.mp hpart).1⟩
  -- The line between the whole ones consists of the part and the text of the first record.
  have hcontent : before.flatMap (line lib) ++ (0x7B :: start) ++
      (first :: records).flatMap (line lib) =
      before.flatMap (line lib) ++ ((0x7B :: start ++ first.text lib) ++
        0x0A :: (records.flatMap (line lib) ++ [])) := by
    simp [line_eq_text_append]
  have hstrip : strip (0x7B :: start ++ first.text lib) = 0x7B :: start ++ first.text lib := by
    have hbraces :
        0x7B :: start ++ first.text lib = 0x7B :: (start ++ 0x7B :: inner') ++ [0x7D] := by
      rw [hinner']
      simp
    rw [hbraces, strip_braces]
  have hline : OneLine (0x7B :: start ++ first.text lib) :=
    ((oneLine_text hnumbers m).of_isPrefix hpart).append (oneLine_text hnumbers first)
  have hload := load_torn_append hnumbers first hne hpart
  have hlines := strippedLines_flatMap_line hnumbers before 1
    ((0x7B :: start ++ first.text lib) ++ 0x0A :: (records.flatMap (line lib) ++ []))
  rw [lines_append hline, strippedLines, hstrip, if_neg (by simp),
    strippedLines_flatMap_line hnumbers records] at hlines
  rw [hcontent] at hvalid ⊢
  refine ⟨_, _, iterRecords_singleton hvalid path, ?_⟩
  rw [hlines, records_foundIn hnumbers, List.map_append]
  congr 1
  have hskip (rest : List (ℕ × Bytes)) (n : ℕ) :
      foundIn json path ((n, 0x7B :: start ++ first.text lib) :: rest) =
        foundIn json path rest := by
    rw [foundIn, List.filterMap_cons, lineRecord, hload]
    rfl
  rw [hskip, records_foundIn hnumbers]
  exact List.append_nil _

end Lines

/-- The records that a reader finds of those that have been written after a file was left with the
beginning of the line of a record, with that record if it is one of them. -/
def survivors (lib : JsonLibrary) (m : ConnectionMetrics) (part : Bytes)
    (written : List ConnectionMetrics) : List ConnectionMetrics :=
  if part = [] then written
  else if part = line lib m then m :: written
  else
    match written with
    | [] => if part = m.text lib then [m] else []
    | _ :: records => records

section Runs

variable {json : JsonModule} {lib : JsonLibrary}

/-- What is found in a file to which a process has appended after the beginning of the line of a
record. -/
theorem survivors_spec (hnumbers : ReadsNumbers json.toFloat lib.floatText)
    {before : List ConnectionMetrics} {m : ConnectionMetrics} {part : Bytes}
    (hpart : part <+: line lib m) (written : List ConnectionMetrics) (path : Bytes)
    (hvalid : Utf8.valid (before.flatMap (line lib) ++ part ++
      written.flatMap (line lib)) = true) :
    ∃ found warnings,
      iterRecords json [⟨path, .ok (before.flatMap (line lib) ++ part ++
        written.flatMap (line lib))⟩] = .ok (found, warnings) ∧
      found.map Found.record =
        (before ++ survivors lib m part written).map ConnectionMetrics.loadedRecord := by
  have htext : ¬ m.text lib <+: [] := by
    obtain ⟨inner, hinner⟩ := @exists_text_eq_braces lib m
    simp [hinner]
  have hwhole (records : List ConnectionMetrics)
      (heq : before.flatMap (line lib) ++ part ++ written.flatMap (line lib) =
        records.flatMap (line lib)) :
      ∃ found warnings,
        iterRecords json [⟨path, .ok (before.flatMap (line lib) ++ part ++
          written.flatMap (line lib))⟩] = .ok (found, warnings) ∧
        found.map Found.record = records.map ConnectionMetrics.loadedRecord := by
    rw [← List.append_nil (records.flatMap (line lib))] at heq
    rw [heq] at hvalid ⊢
    obtain ⟨found, warnings, hread, hfound, -⟩ :=
      iterRecords_lines hnumbers (@List.nil_prefix _ (line lib m)) path hvalid
    rw [if_neg htext, List.append_nil] at hfound
    exact ⟨found, warnings, hread, hfound⟩
  unfold survivors
  split
  · rename_i hnil
    exact hwhole (before ++ written) (by simp [hnil])
  · rename_i hne
    split
    · rename_i hline
      exact hwhole (before ++ m :: written) (by simp [hline])
    · rename_i hshort
      have hbegins : part <+: m.text lib :=
        (List.prefix_concat_iff.mp (line_eq_text_append m ▸ hpart)).resolve_left hshort
      cases written with
      | nil =>
        rw [List.flatMap_nil, List.append_nil] at hvalid ⊢
        obtain ⟨found, warnings, hread, hfound, -⟩ := iterRecords_lines hnumbers hpart path hvalid
        refine ⟨found, warnings, hread, hfound.trans ?_⟩
        congr 2
        refine if_congr ?_ rfl rfl
        exact ⟨fun hlong => hbegins.eq_of_length_le hlong.length_le,
          fun heq => heq ▸ List.prefix_rfl⟩
      | cons first records =>
        exact iterRecords_resumed hnumbers hbegins hne first records path hvalid

end Runs

/-- Whenever a process that appends to a file of records is killed, a reader that can decode the
file finds the records that were there, then those that have been written, in that order, and then
at most one more, which was being written and of whose line at most the newline is missing. If no
record was being written, then the file can be decoded and nothing else is in it. -/
theorem records_of_killed_run {json : JsonModule} {lib : JsonLibrary}
    (hnumbers : ReadsNumbers json.toFloat lib.floatText) {before : List ConnectionMetrics}
    (hbefore : ∀ m ∈ before, m.TextValid) {threads : ℕ} {actions : List (ℕ × WriterInput)}
    {s : Threaded MetricsFile WriterThread}
    (h : (machine lib (before.flatMap (line lib)) threads).run actions = some s) (path : Bytes) :
    (Utf8.valid s.shared.file = true → ∃ found warnings extra,
      iterRecords json [⟨path, .ok s.shared.file⟩] = .ok (found, warnings) ∧
      found.map Found.record =
        (before ++ s.shared.written ++ extra).map ConnectionMetrics.loadedRecord ∧
      warnings.length ≤ 1 ∧
      (extra = [] ∨ ∃ w ∈ s.threads, ∃ m ∈ writing w, extra = [m])) ∧
    ((∀ w ∈ s.threads, writing w = none) → ∃ found,
      iterRecords json [⟨path, .ok s.shared.file⟩] = .ok (found, []) ∧
      found.map Found.record =
        (before ++ s.shared.written).map ConnectionMetrics.loadedRecord) := by
  obtain ⟨tail, hfile, htail⟩ := contents_of_run h
  rw [← List.flatMap_append] at hfile
  have hempty (m : ConnectionMetrics) : ¬ m.text lib <+: [] := by
    obtain ⟨inner, hinner⟩ := @exists_text_eq_braces lib m
    simp [hinner]
  rw [hfile]
  constructor
  · intro hvalid
    rcases htail with rfl | ⟨w, hw, m, hm, hbegins⟩
    · obtain ⟨found, warnings, hread, hfound, hwarnings, -⟩ :=
        iterRecords_lines hnumbers (@List.nil_prefix _ (line lib {})) path hvalid
      rw [if_neg (hempty _)] at hfound
      exact ⟨found, warnings, [], hread, hfound, hwarnings, .inl rfl⟩
    · obtain ⟨found, warnings, hread, hfound, hwarnings, -⟩ :=
        iterRecords_lines hnumbers hbegins path hvalid
      refine ⟨found, warnings, _, hread, hfound, hwarnings, ?_⟩
      split
      · exact .inr ⟨w, hw, m, hm, rfl⟩
      · exact .inl rfl
  · intro hquiet
    obtain rfl : tail = [] := by
      rcases htail with htail | ⟨w, hw, m, hm, -⟩
      · exact htail
      · rw [hquiet w hw] at hm
        cases hm
    have hvalid : Utf8.valid ((before ++ s.shared.written).flatMap (line lib) ++ []) = true := by
      rw [List.append_nil]
      refine valid_flatMap_line hnumbers fun m hm => ?_
      rcases List.mem_append.mp hm with hm | hm
      · exact hbefore m hm
      · exact (textValid_of_run h).1 m hm
    obtain ⟨found, warnings, hread, hfound, -, hsilent⟩ :=
      iterRecords_lines hnumbers (@List.nil_prefix _ (line lib {})) path hvalid
    rw [if_neg (hempty _), List.append_nil] at hfound
    exact ⟨found, hsilent (.inr rfl) ▸ hread, hfound⟩

/-- If a process is killed and another one appends to the file that it has left, without being
killed, then a reader that can decode the file finds the records of both, except that the first
record of the second process is lost if the file did not end with a line end, together with the
record that the first process was writing. -/
theorem records_of_resumed_run {json : JsonModule} {lib : JsonLibrary}
    (hnumbers : ReadsNumbers json.toFloat lib.floatText) (before : List ConnectionMetrics)
    {threads threads' : ℕ} {actions actions' : List (ℕ × WriterInput)}
    {s t : Threaded MetricsFile WriterThread}
    (hkilled : (machine lib (before.flatMap (line lib)) threads).run actions = some s)
    (hresumed : (machine lib s.shared.file threads').run actions' = some t)
    (hquiet : ∀ w ∈ t.threads, writing w = none) (hvalid : Utf8.valid t.shared.file = true)
    (path : Bytes) :
    ∃ m part, s.shared.file = (before ++ s.shared.written).flatMap (line lib) ++ part ∧
      (part = [] ∨ part <+: line lib m ∧ ∃ w ∈ s.threads, m ∈ writing w) ∧
      ∃ found warnings, iterRecords json [⟨path, .ok t.shared.file⟩] = .ok (found, warnings) ∧
        found.map Found.record =
          (before ++ s.shared.written ++ survivors lib m part t.shared.written).map
            ConnectionMetrics.loadedRecord := by
  obtain ⟨part, hfile, hpart⟩ := contents_of_run hkilled
  obtain ⟨tail, hfile', htail⟩ := contents_of_run hresumed
  rw [← List.flatMap_append] at hfile
  obtain rfl : tail = [] := by
    rcases htail with htail | ⟨w, hw, m, hm, -⟩
    · exact htail
    · rw [hquiet w hw] at hm
      cases hm
  rw [hfile, List.append_nil] at hfile'
  rw [hfile'] at hvalid ⊢
  rcases hpart with rfl | ⟨w, hw, m, hm, hbegins⟩
  · exact ⟨{}, [], hfile, .inl rfl, survivors_spec hnumbers List.nil_prefix _ path hvalid⟩
  · exact ⟨m, part, hfile, .inr ⟨hbegins, w, hw, hm⟩, survivors_spec hnumbers hbegins _ path hvalid⟩

/-- A process is killed while it writes a second record. -/
theorem records_of_killed_run_torn :
    ∃ s, (machine bitsLibrary [] 2).run killedRun = some s ∧ ∃ found warnings extra,
      iterRecords bitsJson [⟨ascii "client.jsonl", .ok s.shared.file⟩] = .ok (found, warnings) ∧
      found.map Found.record = (s.shared.written ++ extra).map ConnectionMetrics.loadedRecord := by
  have hany := (machine bitsLibrary [] 2).exists_of_run_any killedRun
    (fun s => Utf8.valid s.shared.file = true) (by decide +kernel)
  obtain ⟨s, hrun, hvalid⟩ := hany
  obtain ⟨found, warnings, extra, hread, hfound, -⟩ :=
    (@records_of_killed_run _ _ readsNumbers_bits [] (by simp) _ _ _ hrun
      (ascii "client.jsonl")).1 hvalid
  exact ⟨s, hrun, found, warnings, extra, hread, hfound⟩

/-- A run of one thread that writes two records. -/
def resumingRun : List (ℕ × WriterInput) :=
  let write (m : ConnectionMetrics) : List (ℕ × WriterInput) :=
    [(0, .call (some m)), (0, .proceed), (0, .proceed), (0, .insert 1000), (0, .proceed),
      (0, .spill 1000), (0, .proceed), (0, .proceed)]
  write {} ++ write { role := .server }

/-- After a process has been killed while it wrote a record, another one writes two records. -/
theorem records_of_resumed_run_torn :
    ∃ s t, (machine bitsLibrary [] 2).run killedRun = some s ∧
      (machine bitsLibrary s.shared.file 1).run resumingRun = some t ∧
      ∃ m part found warnings,
        iterRecords bitsJson [⟨ascii "client.jsonl", .ok t.shared.file⟩] = .ok (found, warnings) ∧
        found.map Found.record =
          (s.shared.written ++ survivors bitsLibrary m part t.shared.written).map
            ConnectionMetrics.loadedRecord := by
  have hany := (machine bitsLibrary [] 2).exists_of_run_any killedRun
    (fun s => ((machine bitsLibrary s.shared.file 1).run resumingRun).any
      (fun t => decide ((∀ w ∈ t.threads, writing w = none) ∧
        Utf8.valid t.shared.file = true)) = true) (by decide +kernel)
  obtain ⟨s, hrun, hany'⟩ := hany
  obtain ⟨t, hrun', hquiet, hvalid⟩ :=
    (machine bitsLibrary s.shared.file 1).exists_of_run_any resumingRun _ hany'
  obtain ⟨m, part, -, -, found, warnings, hread, hfound⟩ :=
    records_of_resumed_run readsNumbers_bits [] hrun hrun' hquiet hvalid (ascii "client.jsonl")
  exact ⟨s, t, hrun, hrun', m, part, found, warnings, hread, hfound⟩

end Analysis

end PqtlsLab
