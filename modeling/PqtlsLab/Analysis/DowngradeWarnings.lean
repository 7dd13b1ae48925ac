import PqtlsLab.Analysis.FloatRange
import PqtlsLab.Policy.ProfileRegistry

/-!
# Warnings about downgrades

After the table and the files, `main` of `analyze-results.py` goes through the summaries and warns
about each group whose profile announces post-quantum key establishment and whose successful
connections did not all have it. The name of the profile is read from the summary, which has it only
if the records were grouped by it. An exception before the warnings, from the statistics or from
what is printed and written, leaves no warning.
-/

namespace PqtlsLab.Analysis

/-- The arguments of `analyze-results.py` that decide which records are summarised, and how, and
what is written. -/
structure AnalyzeArgs where
  /-- `--role`. -/
  role : Option Bytes := none
  /-- `--group-by`. -/
  groupBy : List Bytes := [ascii "requested_profile", ascii "negotiated_group", ascii "role"]
  /-- `--json`. -/
  json : Option Bytes := none
  /-- `--csv`. -/
  csv : Option Bytes := none

/-- What raises an exception on the host when it is printed or written, such as a text that the
encoding of `stdout` does not have, or a directory that cannot be made. -/
structure AnalyzeHost where
  /-- The number of files. -/
  printFiles : Except PythonError Unit
  /-- The number of records. -/
  printCount : Except PythonError Unit
  /-- `print_table`. -/
  printTable : Except PythonError Unit
  /-- The file of `--json`. -/
  writeJson : Except PythonError Unit
  /-- The file of `--csv`. -/
  writeCsv : Except PythonError Unit

/-- A host on which everything can be printed and written. -/
def AnalyzeHost.willing : AnalyzeHost := ⟨.ok (), .ok (), .ok (), .ok (), .ok ()⟩

/-- What `main` prints and writes between the summaries and the warnings. -/
def AnalyzeHost.reports (host : AnalyzeHost) (args : AnalyzeArgs) : Except PythonError Unit := do
  host.printTable
  if args.json.isSome then host.writeJson
  if args.csv.isSome then host.writeCsv

/-- The records that are left after `--role`. -/
def AnalyzeArgs.selected (args : AnalyzeArgs) (records : List Dict) : List Dict :=
  match args.role with
  | none => records
  | some role => records.filter fun record => (record.get (ascii "role")).isOneOf [some role]

variable {F : Type}

/-- `str(summary.get("requested_profile", ""))`: under this name there is a text, or nothing. -/
def Summary.profile (summary : Summary F) : Bytes :=
  match summary.get? (ascii "requested_profile") with
  | some (.text profile) => profile
  | _ => []

/-- The text of the warning about a summary. -/
def warningText (summary : Summary F) : Bytes :=
  0x0A :: ascii "WARNING: profile '" ++ summary.profile ++ ascii "' had " ++
    decimal (summary.number (ascii "successful")) ++
    ascii " successful connections but only " ++
    decimal (summary.number (ascii "pq_key_establishment_count")) ++
    ascii " used a post-quantum group. Investigate before using these results."

/-- The warnings about some summaries. -/
def downgradeWarnings (summaries : List (Summary F)) : List Bytes :=
  summaries.filterMap fun summary =>
    if announcesPostQuantum summary.profile && 0 < summary.number (ascii "successful") &&
        summary.number (ascii "pq_key_establishment_count") < summary.number (ascii "successful")
    then some (warningText summary) else none

/-- What `main` leaves behind: its exit code, and what it has written to `stderr`. -/
structure Outcome where
  exitCode : ℕ
  stderr : List Bytes

/-- `main`, after the arguments and the records have been read. -/
def main (python : Python) (numbers : Numbers F) (host : AnalyzeHost) (args : AnalyzeArgs)
    (records : List Dict) : Except PythonError Outcome :=
  if (args.selected records).isEmpty then
    .ok ⟨1, [ascii "error: no usable records were found"]⟩
  else do
    host.printCount
    let summaries ← summarise python numbers (args.selected records) args.groupBy
    host.reports args
    return ⟨0, downgradeWarnings summaries⟩

/-- A record of a successful connection under a profile that announces post-quantum key
establishment, without post-quantum key establishment. -/
def Downgraded (record : Dict) : Prop :=
  flagged (ascii "success") record = true ∧
    (∃ profile, record.lookup (ascii "requested_profile") = some (.string profile) ∧
      announcesPostQuantum profile = true) ∧
    flagged (ascii "pq_key_establishment") record = false

variable (python : Python) (numbers : Numbers F) {groupBy : List Bytes}

/-- The names of the fields come with their texts. -/
theorem zip_groupKey (groupBy : List Bytes) (record : Dict) :
    groupBy.zip ((groupKey python groupBy record).map (SummaryValue.text (F := F))) =
      groupBy.map fun field => (field, SummaryValue.text (fieldText python record field)) := by
  induction groupBy with
  | nil => rfl
  | cons field groupBy ih =>
    rw [List.map_cons, ← ih]
    rfl

variable {handshake connection : Distribution F}

/-- If the records are grouped by their profile, then a summary names the profile of its records. -/
theorem profile_groupSummary (record : Dict) (group : List Dict)
    (h : ascii "requested_profile" ∈ groupBy) :
    (groupSummary python numbers groupBy (groupKey python groupBy record) handshake connection
        group : Summary F).profile = fieldText python record (ascii "requested_profile") := by
  have hname : ascii "requested_profile" ∉
      (statistics python numbers handshake connection group).map Prod.fst := by
    rw [statistics_names]
    decide
  rw [Summary.profile, groupSummary, Dictionary.get?_ofList_append_of_not_mem _ hname,
    zip_groupKey, Dictionary.get?_ofList_map _ h]

/-- If the records are not grouped by their profile, then no summary names a profile. -/
theorem profile_groupSummary_eq_nil (key : List Bytes) (group : List Dict)
    (h : ascii "requested_profile" ∉ groupBy) :
    (groupSummary python numbers groupBy key handshake connection group : Summary F).profile =
      [] := by
  have hname : ascii "requested_profile" ∉
      (statistics python numbers handshake connection group).map Prod.fst := by
    rw [statistics_names]
    decide
  have hfield : ascii "requested_profile" ∉
      (groupBy.zip (key.map (SummaryValue.text (F := F)))).map Prod.fst := by
    intro hmem
    obtain ⟨⟨field, value⟩, hentry, rfl⟩ := List.mem_map.mp hmem
    exact h (List.of_mem_zip hentry).1
  rw [Summary.profile, groupSummary, Dictionary.get?_ofList_append_of_not_mem _ hname,
    Dictionary.get?_ofList_eq_none hfield]

/-- A summary is worth a warning. -/
def Suspicious (summary : Summary F) : Prop :=
  announcesPostQuantum (Summary.profile summary) = true ∧
    0 < Summary.number summary (ascii "successful") ∧
    Summary.number summary (ascii "pq_key_establishment_count") <
      Summary.number summary (ascii "successful")

/-- There is a warning for every summary that is worth one. -/
theorem mem_downgradeWarnings_iff (summaries : List (Summary F)) (line : Bytes) :
    line ∈ downgradeWarnings summaries ↔
      ∃ summary ∈ summaries, Suspicious summary ∧ line = warningText summary := by
  simp only [downgradeWarnings, List.mem_filterMap, Option.ite_none_right_eq_some,
    Bool.and_eq_true, decide_eq_true_eq, Option.some.injEq, Suspicious, and_assoc,
    @eq_comm _ line]

/-- A text that announces post-quantum key establishment begins with one of two letters. -/
theorem head_of_announces {text : Bytes} (h : announcesPostQuantum text = true) :
    ∃ b rest, text = b :: rest ∧ (b = 0x68 ∨ b = 0x70) := by
  rw [announcesPostQuantum, Bool.or_eq_true, List.isPrefixOf_iff_prefix,
    List.isPrefixOf_iff_prefix] at h
  rcases h with ⟨rest, rfl⟩ | ⟨rest, rfl⟩
  · exact ⟨_, _, rfl, .inl rfl⟩
  · exact ⟨_, _, rfl, .inr rfl⟩

/-- Of all values only a text is written as one that announces post-quantum key establishment. -/
theorem string_of_announces {value : Json} (h : announcesPostQuantum (python.str value) = true) :
    ∃ profile, value = .string profile := by
  obtain ⟨b, rest, htext, hb⟩ := head_of_announces h
  cases value with
  | string s => exact ⟨s, rfl⟩
  | null =>
    cases htext
    exact absurd hb (by decide)
  | bool v =>
    cases v <;> cases htext <;> exact absurd hb (by decide)
  | int i =>
    have hdigit := mem_decimalInt_bounds (i := i) (htext ▸ List.mem_cons_self)
    rcases hb with rfl | rfl <;> exact absurd hdigit (by decide)
  | float bits =>
    obtain ⟨c, rest', heq, hc⟩ := python.reprFloat_head bits
    obtain rfl : c = b := (List.cons.inj (heq.symm.trans htext)).1
    rcases hb with rfl | rfl <;> exact absurd hc (by decide)
  | array xs =>
    cases htext
    exact absurd hb (by decide)
  | object ms =>
    cases htext
    exact absurd hb (by decide)

/-- If the records are grouped by their profile, then a group is worth a warning exactly if it has a
downgraded record. -/
theorem suspicious_groupSummary_iff {key : List Bytes} {group : List Dict}
    (hkey : ∀ record ∈ group, groupKey python groupBy record = key)
    (h : ascii "requested_profile" ∈ groupBy) :
    Suspicious (groupSummary python numbers groupBy key handshake connection group) ↔
      ∃ record ∈ group, Downgraded record := by
  have hsuccessful :=
    @number_groupSummary _ python numbers handshake connection group groupBy key 1 _ _ rfl
  have hpostQuantum :=
    @number_groupSummary _ python numbers handshake connection group groupBy key 10 _ _ rfl
  have hprofile : ∀ record ∈ group,
      (groupSummary python numbers groupBy key handshake connection group : Summary F).profile =
        fieldText python record (ascii "requested_profile") := by
    intro record hrecord
    rw [← hkey record hrecord]
    exact profile_groupSummary python numbers record group h
  rw [Suspicious, hsuccessful, hpostQuantum]
  constructor
  · rintro ⟨hannounces, -, hless⟩
    have hsome : ¬∀ record ∈ successes group,
        flagged (ascii "pq_key_establishment") record = true := fun hall =>
      hless.ne (List.countP_eq_length.mpr hall)
    push Not at hsome
    obtain ⟨record, hrecord, hclassical⟩ := hsome
    obtain ⟨hmem, hsuccess⟩ := List.mem_filter.mp hrecord
    rw [hprofile record hmem, fieldText] at hannounces
    obtain ⟨profile, htext⟩ := string_of_announces python hannounces
    rw [htext] at hannounces
    refine ⟨record, hmem, hsuccess, ⟨profile, ?_, hannounces⟩, by simpa using hclassical⟩
    cases hlookup : record.lookup (ascii "requested_profile") with
    | some value =>
      rw [hlookup] at htext
      exact congrArg some htext
    | none =>
      rw [hlookup] at htext
      cases htext
      cases hannounces
  · rintro ⟨record, hmem, hsuccess, ⟨profile, hlookup, hannounces⟩, hclassical⟩
    have hsuccesses : record ∈ successes group := List.mem_filter.mpr ⟨hmem, hsuccess⟩
    refine ⟨?_, List.length_pos_of_mem hsuccesses, ?_⟩
    · rw [hprofile record hmem, fieldText, hlookup]
      exact hannounces
    · refine List.countP_le_length.lt_of_ne fun hall => ?_
      have hflag := List.countP_eq_length.mp hall record hsuccesses
      rw [hclassical] at hflag
      cases hflag

/-- Some summary is worth a warning exactly if the records were grouped by their profile and one of
them is downgraded. -/
theorem exists_suspicious_iff {records : List Dict} {summaries : List (Summary F)}
    (h : summarise python numbers records groupBy = .ok summaries) :
    (∃ summary ∈ summaries, Suspicious summary) ↔
      ascii "requested_profile" ∈ groupBy ∧ ∃ record ∈ records, Downgraded record := by
  obtain ⟨-, hkey, hall⟩ := sortedGroups_spec python groupBy records
  have hgroups : (∃ summary ∈ summaries, Suspicious summary) ↔
      ∃ entry ∈ sortedGroups python groupBy records,
        ascii "requested_profile" ∈ groupBy ∧ ∃ record ∈ entry.2, Downgraded record := by
    refine exists_mem_iff_of_forall₂ ((summarise_eq_ok_iff python numbers).mp h) ?_
    rintro entry hentry _ ⟨handshake, connection, -, -, rfl⟩
    by_cases hgrouped : ascii "requested_profile" ∈ groupBy
    · rw [suspicious_groupSummary_iff python numbers (hkey entry hentry) hgrouped,
        and_iff_right hgrouped]
    · refine iff_of_false ?_ fun hboth => hgrouped hboth.1
      rw [Suspicious, profile_groupSummary_eq_nil python numbers entry.1 entry.2 hgrouped]
      exact fun hsuspicious => absurd hsuspicious.1 (by decide)
  rw [hgroups]
  constructor
  · rintro ⟨entry, hentry, hgrouped, record, hrecord, hdowngraded⟩
    exact ⟨hgrouped, record, hall.mem_iff.mp (List.mem_flatMap.mpr ⟨entry, hentry, hrecord⟩),
      hdowngraded⟩
  · rintro ⟨hgrouped, record, hrecord, hdowngraded⟩
    obtain ⟨entry, hentry, hmem⟩ := List.mem_flatMap.mp (hall.mem_iff.mpr hrecord)
    exact ⟨entry, hentry, hgrouped, record, hmem, hdowngraded⟩

/-- How `main` ends when there are records. -/
theorem main_eq_ok_iff {host : AnalyzeHost} {args : AnalyzeArgs} {records : List Dict}
    (hselected : args.selected records ≠ []) {outcome : Outcome} :
    main python numbers host args records = .ok outcome ↔
      host.printCount = .ok () ∧ host.reports args = .ok () ∧ ∃ summaries,
        summarise python numbers (args.selected records) args.groupBy = .ok summaries ∧
          outcome = ⟨0, downgradeWarnings summaries⟩ := by
  have hempty : (args.selected records).isEmpty = false := by simpa using hselected
  simp only [main, hempty, Bool.false_eq_true, if_false, bind_eq_ok_iff]
  constructor
  · rintro ⟨⟨⟩, hcount, summaries, hsummaries, ⟨⟩, hreports, h⟩
    cases h
    exact ⟨hcount, hreports, summaries, hsummaries, rfl⟩
  · rintro ⟨hcount, hreports, summaries, hsummaries, rfl⟩
    exact ⟨(), hcount, summaries, hsummaries, (), hreports, rfl⟩

/-- `main` warns about a downgrade exactly if the records are grouped by their profile, `--role`
keeps a downgraded record, the times of the records fit, and nothing that is printed or written
before raises an exception. -/
theorem downgrade_warned_iff (host : AnalyzeHost) (args : AnalyzeArgs) (records : List Dict) :
    (∃ outcome, main python floats host args records = .ok outcome ∧
        ∃ summary : Summary Binary64, warningText summary ∈ outcome.stderr) ↔
      ascii "requested_profile" ∈ args.groupBy ∧
        (∃ record ∈ args.selected records, Downgraded record) ∧
        TimesFit python args.groupBy (args.selected records) ∧
        host.printCount = .ok () ∧ host.reports args = .ok () := by
  by_cases hselected : args.selected records = []
  · refine iff_of_false ?_ fun h => ?_
    · rintro ⟨outcome, hmain, summary, hline⟩
      rw [main, hselected] at hmain
      cases hmain
      have hhead := congrArg List.head? (List.mem_singleton.mp hline)
      cases hhead
    · obtain ⟨-, ⟨record, hrecord, -⟩, -⟩ := h
      rw [hselected] at hrecord
      cases hrecord
  · simp only [main_eq_ok_iff python floats hselected, ← summarise_floats_iff]
    constructor
    · rintro ⟨_, ⟨hcount, hreports, summaries, hsummaries, rfl⟩, _, hline⟩
      obtain ⟨summary, hsummary, hsuspicious, -⟩ := (mem_downgradeWarnings_iff _ _).mp hline
      obtain ⟨hgrouped, hdowngraded⟩ :=
        (exists_suspicious_iff python floats hsummaries).mp ⟨summary, hsummary, hsuspicious⟩
      exact ⟨hgrouped, hdowngraded, ⟨summaries, hsummaries⟩, hcount, hreports⟩
    · rintro ⟨hgrouped, hdowngraded, ⟨summaries, hsummaries⟩, hcount, hreports⟩
      obtain ⟨summary, hsummary, hsuspicious⟩ :=
        (exists_suspicious_iff python floats hsummaries).mpr ⟨hgrouped, hdowngraded⟩
      exact ⟨_, ⟨hcount, hreports, summaries, hsummaries, rfl⟩, summary,
        (mem_downgradeWarnings_iff _ _).mpr ⟨summary, hsummary, hsuspicious, rfl⟩⟩

/-- A record of a successful classical connection under a hybrid profile. -/
def downgradedRecord : Dict :=
  [(ascii "requested_profile", .string (ascii "hybrid-x25519-mlkem768")),
    (ascii "negotiated_group", .string (ascii "x25519")), (ascii "role", .string (ascii "client")),
    (ascii "success", .bool true), (ascii "pq_key_establishment", .bool false)]

/-- The record shows a downgrade. -/
theorem downgraded_downgradedRecord : Downgraded downgradedRecord :=
  ⟨rfl, ⟨_, rfl, by decide⟩, rfl⟩

/-- With the default grouping there is one warning. -/
example : (main Python.ofAscii floats .willing {} [downgradedRecord]).map
    (fun outcome => outcome.stderr.length) = .ok 1 := rfl

/-- Grouped by the role alone, the record causes no output. -/
theorem downgrade_not_warned_by_role :
    Downgraded downgradedRecord ∧
      main Python.ofAscii floats .willing { groupBy := [ascii "role"] } [downgradedRecord] =
        .ok ⟨0, []⟩ := by
  refine ⟨downgraded_downgradedRecord, ?_⟩
  rfl

end PqtlsLab.Analysis
