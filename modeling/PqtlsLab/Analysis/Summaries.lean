import PqtlsLab.Analysis.Percentiles
import PqtlsLab.Error
import PqtlsLab.Foundation.Dictionary
import PqtlsLab.Foundation.Python

/-!
# Summaries of result records

`summarise` of `analyze-results.py` groups records by the texts of some fields and makes a summary
of each group: how many connections there were and succeeded, how long they took, why they failed
and what they negotiated. A summary is a dictionary in which the names of the statistics come
after, and win over, the names of the fields. If the statistics of one group cannot be computed,
there are no summaries at all.
-/

namespace PqtlsLab.Analysis

/-- A value in a summary. -/
inductive SummaryValue (F : Type) where
  | text (s : Bytes)
  | count (n : ℕ)
  | rate (q : F)
  /-- The dictionary that `Distribution.as_dict` makes. -/
  | distribution (d : Distribution F)
  /-- The dictionary of a `Counter`. -/
  | counts (c : Dictionary Bytes ℕ)

/-- A summary of one group. -/
abbrev Summary (F : Type) := Dictionary Bytes (SummaryValue F)

variable {F : Type}

/-- A number in a summary. -/
def Summary.number (summary : Summary F) (name : Bytes) : ℕ :=
  match summary.get? name with
  | some (.count n) => n
  | _ => 0

variable (python : Python) (numbers : Numbers F)

/-- `str(record.get(field, ""))`. -/
def fieldText (record : Dict) (field : Bytes) : Bytes :=
  python.str ((record.lookup field).getD (.string []))

/-- `group_key`. -/
def groupKey (groupBy : List Bytes) (record : Dict) : List Bytes :=
  groupBy.map (fieldText python record)

/-- `isinstance(value, (int, float))`. A `bool` is an `int`. -/
def isNumber : Json → Bool
  | .bool _ => true
  | .int _ => true
  | .float _ => true
  | _ => false

/-- `float(value)` of a number. -/
def Numbers.float (numbers : Numbers F) : Json → Except PythonError F
  | .bool b => numbers.ofInt (if b then 1 else 0)
  | .int i => numbers.ofInt i
  | .float bits => numbers.ofBits bits
  | _ => .error (.raised (ascii "TypeError"))

/-- The numbers that some records have under a name. -/
def times (records : List Dict) (name : Bytes) : List Json :=
  (records.map fun record => record.get name).filter isNumber

/-- The distribution of the numbers that some records have under a name. -/
def timesDistribution (records : List Dict) (name : Bytes) :
    Except PythonError (Distribution F) := do
  Distribution.of numbers (← (times records name).mapM numbers.float)

/-- `str(record.get(name) or "unknown")`. -/
def textOrUnknown (name : Bytes) (record : Dict) : Bytes :=
  if (record.get name).truthy then python.str (record.get name) else ascii "unknown"

/-- `record.get(name) is True`. -/
def flagged (name : Bytes) (record : Dict) : Bool := (record.get name).isTrue

/-- The records of successful connections. -/
def successes (group : List Dict) : List Dict := group.filter (flagged (ascii "success"))

/-- All other records. -/
def failures (group : List Dict) : List Dict :=
  group.filter fun record => !flagged (ascii "success") record

/-- The share of some records in a group. -/
def share (part group : List Dict) : F :=
  numbers.nearest (if group.isEmpty then 0 else part.length / group.length)

/-- The statistics of a group. -/
def statistics (handshake connection : Distribution F) (group : List Dict) :
    List (Bytes × SummaryValue F) :=
  [(ascii "total", .count group.length),
    (ascii "successful", .count (successes group).length),
    (ascii "failed", .count (failures group).length),
    (ascii "success_rate", .rate (share numbers (successes group) group)),
    (ascii "failure_rate", .rate (share numbers (failures group) group)),
    (ascii "handshake_ms", .distribution handshake),
    (ascii "connection_ms", .distribution connection),
    (ascii "error_categories", .counts
      (.counter ((failures group).map (textOrUnknown python (ascii "error_category"))))),
    (ascii "negotiated_groups", .counts
      (.counter ((successes group).map (textOrUnknown python (ascii "negotiated_group"))))),
    (ascii "sessions_resumed",
      .count ((successes group).countP (flagged (ascii "session_reused")))),
    (ascii "pq_key_establishment_count",
      .count ((successes group).countP (flagged (ascii "pq_key_establishment")))),
    (ascii "hybrid_key_establishment_count",
      .count ((successes group).countP (flagged (ascii "hybrid_key_establishment")))),
    (ascii "pq_authentication_count",
      .count ((successes group).countP (flagged (ascii "pq_authentication"))))]

/-- The summary of a group: `dict(zip(by, key))`, updated with the statistics. -/
def groupSummary (groupBy key : List Bytes) (handshake connection : Distribution F)
    (group : List Dict) : Summary F :=
  .ofList (groupBy.zip (key.map .text) ++
    statistics python numbers handshake connection group)

/-- The body of the loop of `summarise`. -/
def summariseGroup (groupBy key : List Bytes) (group : List Dict) :
    Except PythonError (Summary F) := do
  let handshake ← timesDistribution numbers (successes group) (ascii "handshake_ms")
  let connection ← timesDistribution numbers (successes group) (ascii "connection_ms")
  return groupSummary python numbers groupBy key handshake connection group

/-- `sorted(groups.items())`. The keys are different, so their order decides. -/
def sortedGroups (groupBy : List Bytes) (records : List Dict) : List (List Bytes × List Dict) :=
  (Dictionary.groups (groupKey python groupBy) records).sortedEntries

/-- `summarise`. -/
def summarise (records : List Dict) (groupBy : List Bytes) :
    Except PythonError (List (Summary F)) :=
  (sortedGroups python groupBy records).mapM fun entry =>
    summariseGroup python numbers groupBy entry.1 entry.2

/-- There is one summary for each group, in the order of the keys. -/
theorem summarise_eq_ok_iff {records : List Dict} {groupBy : List Bytes}
    {summaries : List (Summary F)} :
    summarise python numbers records groupBy = .ok summaries ↔
      List.Forall₂ (fun entry summary => ∃ handshake connection,
          timesDistribution numbers (successes entry.2) (ascii "handshake_ms") = .ok handshake ∧
          timesDistribution numbers (successes entry.2) (ascii "connection_ms") = .ok connection ∧
          summary = groupSummary python numbers groupBy entry.1 handshake connection entry.2)
        (sortedGroups python groupBy records) summaries := by
  rw [summarise, mapM_eq_ok_iff_forall₂]
  refine iff_of_eq
    (congrArg (fun R => List.Forall₂ R _ _) (funext₂ fun entry summary => propext ?_))
  simp only [summariseGroup, bind_eq_ok_iff]
  constructor
  · rintro ⟨handshake, hhandshake, connection, hconnection, h⟩
    cases h
    exact ⟨handshake, connection, hhandshake, hconnection, rfl⟩
  · rintro ⟨handshake, connection, hhandshake, hconnection, rfl⟩
    exact ⟨handshake, hhandshake, connection, hconnection, rfl⟩

section Accounting

/-- The names of the statistics. -/
def statisticNames : List Bytes :=
  [ascii "total", ascii "successful", ascii "failed", ascii "success_rate", ascii "failure_rate",
    ascii "handshake_ms", ascii "connection_ms", ascii "error_categories",
    ascii "negotiated_groups", ascii "sessions_resumed", ascii "pq_key_establishment_count",
    ascii "hybrid_key_establishment_count", ascii "pq_authentication_count"]

/-- The statistics have these names. -/
theorem statistics_names (handshake connection : Distribution F) (group : List Dict) :
    (statistics python numbers handshake connection group).map Prod.fst = statisticNames := rfl

variable {handshake connection : Distribution F} {group : List Dict}

/-- A summary has every statistic under its name. -/
theorem get?_groupSummary (groupBy key : List Bytes) (i : ℕ) {name : Bytes}
    {value : SummaryValue F}
    (h : (statistics python numbers handshake connection group)[i]? = some (name, value)) :
    (groupSummary python numbers groupBy key handshake connection group).get? name =
      some value := by
  refine Dictionary.get?_ofList_append_of_mem _ ?_ (List.mem_of_getElem? h)
  rw [statistics_names]
  decide

/-- A number among the statistics. -/
theorem number_groupSummary (groupBy key : List Bytes) (i : ℕ) {name : Bytes} {n : ℕ}
    (h : (statistics python numbers handshake connection group)[i]? = some (name, .count n)) :
    (groupSummary python numbers groupBy key handshake connection group : Summary F).number name =
      n := by
  rw [Summary.number, get?_groupSummary python numbers groupBy key i h]

/-- The numbers in a summary account for the records of its group. -/
structure Accounts (summary : Summary F) (group : List Dict) : Prop where
  /-- Every record of the group is counted, and as a success or as a failure. -/
  records : ∃ successful failed, summary.get? (ascii "total") = some (.count group.length) ∧
    summary.get? (ascii "successful") = some (.count successful) ∧
    summary.get? (ascii "failed") = some (.count failed) ∧
    successful + failed = group.length
  /-- Every failure has a category. -/
  failures : ∃ failed categories, summary.get? (ascii "failed") = some (.count failed) ∧
    summary.get? (ascii "error_categories") = some (.counts categories) ∧
    (categories.entries.map Prod.snd).sum = failed
  /-- Every success has a group. -/
  successes : ∃ successful groups, summary.get? (ascii "successful") = some (.count successful) ∧
    summary.get? (ascii "negotiated_groups") = some (.counts groups) ∧
    (groups.entries.map Prod.snd).sum = successful
  /-- What is said about post-quantum cryptography is said about successes. -/
  postQuantum : ∃ successful, summary.get? (ascii "successful") = some (.count successful) ∧
    ∀ name ∈ [ascii "pq_key_establishment_count", ascii "hybrid_key_establishment_count",
      ascii "pq_authentication_count"],
      ∃ n, summary.get? name = some (.count n) ∧ n ≤ successful

/-- A record is a success or a failure. -/
theorem successes_add_failures (group : List Dict) :
    (successes group).length + (failures group).length = group.length := by
  have hsplit := List.length_eq_length_filter_add (l := group) (flagged (ascii "success"))
  exact hsplit.symm

/-- The summary of a group accounts for its records. -/
theorem groupSummary_accounts (groupBy key : List Bytes) (handshake connection : Distribution F)
    (group : List Dict) :
    Accounts (groupSummary python numbers groupBy key handshake connection group) group := by
  have hget := @get?_groupSummary F python numbers handshake connection group groupBy key
  have hsuccessful := hget 1 rfl
  have hfailed := hget 2 rfl
  constructor
  · exact ⟨_, _, hget 0 rfl, hsuccessful, hfailed, successes_add_failures group⟩
  · refine ⟨_, _, hfailed, hget 7 rfl, ?_⟩
    rw [Dictionary.sum_counter, List.length_map]
  · refine ⟨_, _, hsuccessful, hget 8 rfl, ?_⟩
    rw [Dictionary.sum_counter, List.length_map]
  · refine ⟨_, hsuccessful, ?_⟩
    simp only [List.forall_mem_cons, List.not_mem_nil, false_implies, implies_true, and_true]
    exact ⟨⟨_, hget 10 rfl, List.countP_le_length⟩, ⟨_, hget 11 rfl, List.countP_le_length⟩,
      ⟨_, hget 12 rfl, List.countP_le_length⟩⟩

/-- Two values are the same up to the order of counts. -/
inductive SummaryValue.Same : SummaryValue F → SummaryValue F → Prop where
  | refl (value : SummaryValue F) : Same value value
  | counts {c c' : Dictionary Bytes ℕ} (h : c.entries.Perm c'.entries) :
    Same (.counts c) (.counts c')

/-- Two summaries have the same names in the same order, and the same values up to the order of
counts. -/
def SameSummary (s t : Summary F) : Prop :=
  List.Forall₂ (fun a b => a.1 = b.1 ∧ a.2.Same b.2) s.entries t.entries

/-- The statistics of a group do not depend on the order of its records, if the distributions do
not. -/
theorem statistics_perm (handshake connection : Distribution F) {group group' : List Dict}
    (h : group.Perm group') :
    List.Forall₂ (fun a b => a.1 = b.1 ∧ a.2.Same b.2)
      (statistics python numbers handshake connection group)
      (statistics python numbers handshake connection group') := by
  have hsuccesses : (successes group).Perm (successes group') := h.filter _
  have hfailures : (failures group).Perm (failures group') := h.filter _
  have hcount : ∀ name : Bytes, (successes group).countP (flagged name) =
      (successes group').countP (flagged name) := fun name => hsuccesses.countP_eq _
  have hempty : group.isEmpty = group'.isEmpty := by
    rw [Bool.eq_iff_iff, List.isEmpty_iff, List.isEmpty_iff, ← List.length_eq_zero_iff,
      ← List.length_eq_zero_iff, h.length_eq]
  simp only [statistics, share, hcount, hempty, h.length_eq, hsuccesses.length_eq,
    hfailures.length_eq]
  refine .cons ⟨rfl, .refl _⟩ (.cons ⟨rfl, .refl _⟩ (.cons ⟨rfl, .refl _⟩ (.cons ⟨rfl, .refl _⟩
    (.cons ⟨rfl, .refl _⟩ (.cons ⟨rfl, .refl _⟩ (.cons ⟨rfl, .refl _⟩ (.cons ⟨rfl, ?_⟩
    (.cons ⟨rfl, ?_⟩ (.cons ⟨rfl, .refl _⟩ (.cons ⟨rfl, .refl _⟩ (.cons ⟨rfl, .refl _⟩
    (.cons ⟨rfl, .refl _⟩ .nil))))))))))))
  · exact .counts (Dictionary.entries_counter_perm (hfailures.map _))
  · exact .counts (Dictionary.entries_counter_perm (hsuccesses.map _))

/-- The summary of a group does not depend on the order of its records, if the distributions do
not. -/
theorem groupSummary_perm (groupBy key : List Bytes) (handshake connection : Distribution F)
    {group group' : List Dict} (h : group.Perm group') :
    SameSummary (groupSummary python numbers groupBy key handshake connection group)
      (groupSummary python numbers groupBy key handshake connection group') := by
  apply Dictionary.forall₂_ofList
  apply List.rel_append
  · exact List.forall₂_same.mpr fun entry _ => ⟨rfl, .refl _⟩
  · exact statistics_perm python numbers handshake connection h

/-- The groups of the records: their keys are different, each record has the key of its group, and
together the groups have exactly the records. -/
theorem sortedGroups_spec (groupBy : List Bytes) (records : List Dict) :
    ((sortedGroups python groupBy records).map Prod.fst).Nodup ∧
      (∀ entry ∈ sortedGroups python groupBy records, ∀ record ∈ entry.2,
        groupKey python groupBy record = entry.1) ∧
      ((sortedGroups python groupBy records).flatMap Prod.snd).Perm records := by
  have hperm := (Dictionary.groups (groupKey python groupBy) records).sortedEntries_perm
  refine ⟨?_, ?_, ?_⟩
  · exact (hperm.map Prod.fst).nodup_iff.mpr (Dictionary.nodup _)
  · intro entry hentry record hrecord
    have hmem := hperm.mem_iff.mp hentry
    rw [Dictionary.entries_groups] at hmem
    obtain ⟨key, _, rfl⟩ := List.mem_map.mp hmem
    exact of_decide_eq_true (List.mem_filter.mp hrecord).2
  · exact (hperm.flatMap_right _).trans (Dictionary.flatMap_groups_perm _ records)

/-- Some summaries account for every record: each record is in exactly one group, the totals add up
to the number of records, and the numbers in each summary account for its group. -/
structure AccountFor (groupBy : List Bytes) (records : List Dict) (summaries : List (Summary F)) :
    Prop where
  keys : ((sortedGroups python groupBy records).map Prod.fst).Nodup
  members : ∀ entry ∈ sortedGroups python groupBy records, ∀ record ∈ entry.2,
    groupKey python groupBy record = entry.1
  all : ((sortedGroups python groupBy records).flatMap Prod.snd).Perm records
  groups : List.Forall₂ (fun entry summary => Accounts summary entry.2)
    (sortedGroups python groupBy records) summaries
  total : (summaries.map fun summary => summary.number (ascii "total")).sum = records.length

/-- What the summaries say under a name, if they say there how many records of the group have a
property. -/
theorem map_number_of_summarise {groupBy : List Bytes} {records : List Dict}
    {summaries : List (Summary F)} (h : summarise python numbers records groupBy = .ok summaries)
    (i : ℕ) {name : Bytes} {p : Dict → Bool}
    (hstatistic : ∀ handshake connection group,
      (statistics python numbers handshake connection group)[i]? =
        some (name, .count (group.countP p))) :
    summaries.map (fun summary => summary.number name) =
      (sortedGroups python groupBy records).map fun entry => entry.2.countP p := by
  rw [summarise_eq_ok_iff] at h
  generalize sortedGroups python groupBy records = entries at h ⊢
  induction h with
  | nil => rfl
  | cons hfirst _ ih =>
    obtain ⟨handshake, connection, -, -, rfl⟩ := hfirst
    rw [List.map_cons, List.map_cons, ih,
      number_groupSummary python numbers groupBy _ i (hstatistic handshake connection _)]

/-- Over all summaries these numbers add up to how many of all records have the property. -/
theorem sum_number_of_summarise {groupBy : List Bytes} {records : List Dict}
    {summaries : List (Summary F)} (h : summarise python numbers records groupBy = .ok summaries)
    (i : ℕ) {name : Bytes} {p : Dict → Bool}
    (hstatistic : ∀ handshake connection group,
      (statistics python numbers handshake connection group)[i]? =
        some (name, .count (group.countP p))) :
    (summaries.map fun summary => summary.number name).sum = records.countP p := by
  obtain ⟨-, -, hperm⟩ := sortedGroups_spec python groupBy records
  rw [map_number_of_summarise python numbers h i hstatistic, ← hperm.countP_eq,
    List.countP_flatMap]
  rfl

/-- The summaries that are made account for every record. -/
theorem accountFor_of_summarise {groupBy : List Bytes} {records : List Dict}
    {summaries : List (Summary F)} (h : summarise python numbers records groupBy = .ok summaries) :
    AccountFor python groupBy records summaries := by
  obtain ⟨hkeys, hmembers, hall⟩ := sortedGroups_spec python groupBy records
  refine ⟨hkeys, hmembers, hall, ?_, ?_⟩
  · refine ((summarise_eq_ok_iff python numbers).mp h).imp ?_
    rintro entry summary ⟨handshake, connection, -, -, rfl⟩
    exact groupSummary_accounts python numbers groupBy entry.1 handshake connection entry.2
  · rw [sum_number_of_summarise python numbers h 0 (p := fun _ => true), List.countP_true]
    intro handshake connection group
    rw [List.countP_true]
    rfl

end Accounting

section Exact

variable (arithmetic : Arithmetic)

/-- An exact distribution does not depend on the order of the values. -/
theorem Distribution.of_perm {values values' : List ℚ} (h : values.Perm values') :
    Distribution.of arithmetic.numbers values = Distribution.of arithmetic.numbers values' := by
  unfold Distribution.of
  rw [Arithmetic.numbers_sorted, Arithmetic.numbers_sorted, sorted_eq_of_perm h]

/-- An exact distribution does not depend on the order of the records. -/
theorem timesDistribution_perm {group group' : List Dict} (h : group.Perm group') {name : Bytes}
    {d : Distribution ℚ} (hd : timesDistribution arithmetic.numbers group name = .ok d) :
    timesDistribution arithmetic.numbers group' name = .ok d := by
  obtain ⟨values, hvalues, hd⟩ := bind_eq_ok_iff.mp hd
  obtain ⟨values', hvalues', hperm⟩ := mapM_perm ((h.map _).filter isNumber) hvalues
  rw [timesDistribution, times, hvalues']
  exact (Distribution.of_perm arithmetic hperm).symm.trans hd

/-- The order of the records shows in the order within the groups only. -/
theorem sortedGroups_perm (groupBy : List Bytes) {records permuted : List Dict}
    (h : records.Perm permuted) :
    List.Forall₂ (fun a b => a.1 = b.1 ∧ a.2.Perm b.2) (sortedGroups python groupBy records)
      (sortedGroups python groupBy permuted) := by
  rw [sortedGroups, sortedGroups, Dictionary.sortedEntries_groups,
    Dictionary.sortedEntries_groups, Dictionary.sorted_keys_eq _ h, List.forall₂_map_left_iff,
    List.forall₂_map_right_iff, List.forall₂_same]
  intro key _
  exact ⟨rfl, h.filter _⟩

/-- Exact summaries do not depend on the order of the records, up to the order of counts. -/
theorem summarise_perm {groupBy : List Bytes} {records permuted : List Dict}
    (h : records.Perm permuted) {summaries : List (Summary ℚ)}
    (hsummaries : summarise python arithmetic.numbers records groupBy = .ok summaries) :
    ∃ summaries', summarise python arithmetic.numbers permuted groupBy = .ok summaries' ∧
      List.Forall₂ SameSummary summaries summaries' := by
  simp only [summarise_eq_ok_iff] at hsummaries ⊢
  have hgroups := sortedGroups_perm python groupBy h
  generalize sortedGroups python groupBy records = entries at hgroups hsummaries
  generalize sortedGroups python groupBy permuted = entries' at hgroups ⊢
  induction hsummaries generalizing entries' with
  | nil =>
    cases hgroups
    exact ⟨[], .nil, .nil⟩
  | @cons entry summary entries summaries hfirst _ ih =>
    obtain ⟨handshake, connection, hhandshake, hconnection, rfl⟩ := hfirst
    rcases hgroups with _ | @⟨_, entry', _, entries', ⟨hkey, hgroup⟩, hothers⟩
    obtain ⟨summaries', hsummaries', hsame⟩ := ih _ hothers
    have hsuccesses : (successes entry.2).Perm (successes entry'.2) := hgroup.filter _
    refine ⟨_, .cons ⟨handshake, connection,
      timesDistribution_perm arithmetic hsuccesses hhandshake,
      timesDistribution_perm arithmetic hsuccesses hconnection, rfl⟩ hsummaries', .cons ?_ hsame⟩
    rw [hkey]
    exact groupSummary_perm python arithmetic.numbers groupBy entry'.1 handshake connection hgroup

end Exact

end PqtlsLab.Analysis
