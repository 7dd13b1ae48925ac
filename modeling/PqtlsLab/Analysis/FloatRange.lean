import PqtlsLab.Analysis.Summaries

/-!
# Which records can be summarised

Some numbers have no summary: an integer can be too large for a float, and of several numbers the
running sum or the standard deviation can be. Then `summarise` raises an exception, and no record is
accounted for. With all other numbers every step of a distribution succeeds, since the places of the
percentiles lie in the list although they are rounded.
-/

namespace PqtlsLab.Analysis

open Binary64

/-- The float for a number, which is infinite for an integer that is too large. -/
def floatOf : Json → Binary64
  | .bool b => nearest (if b then 1 else 0)
  | .int i => nearest i
  | .float bits => ofBits bits
  | _ => .nan

/-- Some numbers have a distribution: every integer can be converted, and several numbers are
finite, can be added in increasing order without an overflow, and have a standard deviation that is
a float. -/
structure Fits (values : List Json) : Prop where
  integers : ∀ i : ℤ, .int i ∈ values → |(i : ℚ)| < limit
  several : 2 ≤ values.length → ∃ exact : List ℚ,
    Binary64.sorted (values.map floatOf) = exact.map .finite ∧
      RunningSumsFinite [] (exact.map .finite) ∧ variance exact < limit ^ 2

/-- A number is converted unless it is an integer that is too large. -/
theorem float_eq_ok_iff {value : Json} (hvalue : isNumber value = true) {x : Binary64} :
    floats.float value = .ok x ↔
      x = floatOf value ∧ ∀ i : ℤ, .int i = value → |(i : ℚ)| < limit := by
  have hinteger : ∀ i : ℤ, floats.ofInt i = .ok x ↔ x = nearest i ∧ |(i : ℚ)| < limit := by
    intro i
    rcases lt_or_ge |(i : ℚ)| limit with hlt | hle
    · obtain ⟨v, hv⟩ := nearest_of_lt hlt
      simp [floats, hv, hlt, eq_comm]
    · simp [floats, nearest_of_le hle, not_lt.mpr hle]
  have hlimit := one_lt_limit
  cases value with
  | int i => simp [Numbers.float, floatOf, hinteger]
  | float bits => simp [Numbers.float, floatOf, floats, eq_comm]
  | bool b => cases b <;> simp [Numbers.float, floatOf, hinteger, hlimit, hlimit.le.trans_lt']
  | null => cases hvalue
  | string s => cases hvalue
  | array xs => cases hvalue
  | object ms => cases hvalue

/-- Numbers are converted unless one of them is an integer that is too large. -/
theorem mapM_float_eq_ok_iff {values : List Json} (hvalues : ∀ v ∈ values, isNumber v = true)
    {data : List Binary64} :
    values.mapM floats.float = .ok data ↔
      data = values.map floatOf ∧ ∀ i : ℤ, .int i ∈ values → |(i : ℚ)| < limit := by
  rw [mapM_eq_ok_iff_forall₂]
  constructor
  · intro h
    induction h with
    | nil => simp
    | cons hfirst _ ih =>
      obtain ⟨hvalue, hothers⟩ := List.forall_mem_cons.mp hvalues
      obtain ⟨rfl, hinteger⟩ := (float_eq_ok_iff hvalue).mp hfirst
      obtain ⟨rfl, hintegers⟩ := ih hothers
      refine ⟨rfl, fun i hi => ?_⟩
      rcases List.mem_cons.mp hi with hi | hi
      · exact hinteger i hi
      · exact hintegers i hi
  · rintro ⟨rfl, hintegers⟩
    rw [List.forall₂_map_right_iff, List.forall₂_same]
    intro value hvalue
    refine (float_eq_ok_iff (hvalues value hvalue)).mpr ⟨rfl, ?_⟩
    rintro i rfl
    exact hintegers i hvalue

/-- The place of a percentile lies between the first and the last value. -/
theorem position_bounds {f : ℚ} (hf : 0 ≤ f) (hf' : f ≤ 99 / 100) {m : ℕ} (hm : 1 ≤ m) :
    let position := (nearest f).mul (nearest m)
    0 ≤ position.floor ∧ position.floor ≤ m ∧ 0 ≤ position.ceil ∧ position.ceil ≤ m := by
  intro position
  have hpos : (1 : ℚ) ≤ m := by exact_mod_cast hm
  have hnowhere : ∀ p : Binary64, p.isFinite = false →
      0 ≤ p.floor ∧ p.floor ≤ m ∧ 0 ≤ p.ceil ∧ p.ceil ≤ m := by
    intro p hp
    cases p with
    | finite x => cases hp
    | nan => simp [floor, ceil]
    | infinite negative => simp [floor, ceil]
  have hlimit := one_lt_limit
  obtain ⟨c, hc⟩ := nearest_of_lt (x := f) (by rw [abs_of_nonneg hf]; linarith)
  obtain ⟨hc₀, hc₁⟩ := nearest_bounds hf hc
  simp only [position, hc]
  rcases lt_or_ge |(m : ℚ)| limit with hlt | hle
  · obtain ⟨v, hv⟩ := nearest_of_lt hlt
    obtain ⟨hv₀, hv₁⟩ := nearest_bounds (by linarith) hv
    rw [hv]
    cases hw : (finite c).mul (finite v) with
    | finite w =>
      have hproduct : 0 ≤ c * v := mul_nonneg hc₀ hv₀
      obtain ⟨hw₀, hw₁⟩ := nearest_bounds hproduct hw
      have hupper : c * v ≤ (993 / 1000) * (m * (1001 / 1000) + 1 / 1000) :=
        mul_le_mul (by linarith) hv₁ hv₀ (by norm_num)
      have hw₂ : w ≤ m := by linarith
      simp only [floor, ceil]
      refine ⟨Int.floor_nonneg.mpr hw₀, ?_, Int.ceil_nonneg hw₀,
        Int.ceil_le.mpr (by simpa using hw₂)⟩
      exact_mod_cast (Int.floor_le w).trans hw₂
    | nan => exact hnowhere _ rfl
    | infinite negative => exact hnowhere _ rfl
  · rw [nearest_of_le hle]
    refine hnowhere _ ?_
    simp only [mul]
    split <;> rfl

/-- An entry of a list is there. -/
theorem exists_index {α : Type} (values : List α) {i : ℤ} (hi : 0 ≤ i) (hi' : i < values.length) :
    ∃ a, index values i = .ok a := by
  lift i to ℕ using hi
  have hlt : i < values.length := by omega
  exact ⟨_, index_natCast hlt values[i]⟩

/-- Every percentile of at least one value succeeds. -/
theorem exists_percentile {data : List Binary64} (hne : data ≠ []) {f : ℚ} (hf : 0 ≤ f)
    (hf' : f ≤ 99 / 100) : ∃ p, percentile floats data f = .ok p := by
  have hlength := List.length_pos_iff.mpr hne
  have hempty : data.isEmpty = false := by simpa using hne
  unfold percentile
  simp only [hempty, Bool.false_eq_true, if_false]
  by_cases hsingle : data.length = 1
  · obtain ⟨a, ha⟩ := exists_index data le_rfl (by omega)
    rw [if_pos hsingle, ha]
    exact ⟨some a, rfl⟩
  · obtain ⟨hlow, hlow', hhigh, hhigh'⟩ :=
      position_bounds hf hf' (m := data.length - 1) (by omega)
    have hlast : ((data.length : ℚ) - 1) = ((data.length - 1 : ℕ) : ℚ) := by
      rw [Nat.cast_sub hlength, Nat.cast_one]
    obtain ⟨a, ha⟩ := exists_index data hlow (by omega)
    obtain ⟨b, hb⟩ := exists_index data hhigh (by omega)
    simp only [if_neg hsingle, hlast, floats, truncate, if_pos hlow, ha, hb]
    split <;> exact ⟨_, rfl⟩

/-- Sorting keeps the number of floats. -/
theorem length_sorted_floats (data : List Binary64) :
    (floats.sorted data).length = data.length := (sorted_perm data).length_eq

/-- The median of at least one value succeeds. -/
theorem exists_median {data : List Binary64} (hne : data ≠ []) :
    ∃ m, median floats data = .ok m := by
  have hlength : 0 < (floats.sorted data).length := by
    rw [length_sorted_floats]
    exact List.length_pos_iff.mpr hne
  unfold median
  simp only [hlength.ne', if_false]
  obtain ⟨b, hb⟩ := exists_index (floats.sorted data)
    (i := ((floats.sorted data).length / 2 : ℕ)) (by omega) (by omega)
  by_cases hodd : (floats.sorted data).length % 2 = 1
  · rw [if_pos hodd, hb]
    exact ⟨b, rfl⟩
  · obtain ⟨a, ha⟩ := exists_index (floats.sorted data)
      (i := ((floats.sorted data).length / 2 : ℕ) - 1) (by omega) (by omega)
    rw [if_neg hodd, ha, hb]
    exact ⟨_, rfl⟩

/-- The sum of some floats and their standard deviation decide on whether there is a
distribution. -/
theorem Distribution.of_floats_iff (values : List Binary64) :
    (∃ d, Distribution.of floats values = .ok d) ↔
      (values ≠ [] → ∃ total, floats.fsum (floats.sorted values) = .ok total) ∧
        (2 ≤ values.length → ∃ deviation, floats.stdev (floats.sorted values) = .ok deviation) := by
  by_cases hne : values = []
  · subst hne
    exact iff_of_true ⟨_, rfl⟩ ⟨fun hne => absurd rfl hne, fun htwo => by simp at htwo⟩
  have hlength := length_sorted_floats values
  have hcount : ¬values.length = 0 := by
    rw [List.length_eq_zero_iff]
    exact hne
  have hdata : floats.sorted values ≠ [] := by
    intro hnil
    rw [hnil, List.length_nil] at hlength
    exact hcount hlength.symm
  have hempty : (floats.sorted values).isEmpty = false := by simpa using hdata
  unfold Distribution.of
  generalize floats.sorted values = data at hlength hdata hempty ⊢
  obtain ⟨middle, hmedian⟩ := exists_median hdata
  obtain ⟨first, hfirst⟩ := exists_index data le_rfl (by omega)
  have hlast := index_neg_one hdata first
  obtain ⟨p50, h50⟩ := exists_percentile hdata (f := 1 / 2) (by norm_num) (by norm_num)
  obtain ⟨p90, h90⟩ := exists_percentile hdata (f := 9 / 10) (by norm_num) (by norm_num)
  obtain ⟨p95, h95⟩ := exists_percentile hdata (f := 19 / 20) (by norm_num) (by norm_num)
  obtain ⟨p99, h99⟩ := exists_percentile hdata (f := 99 / 100) (by norm_num) (by norm_num)
  simp only [hlength, if_neg hcount, fmean, hempty, Bool.false_eq_true, if_false, hmedian, hfirst,
    hlast, h50, h90, h95, h99]
  cases floats.fsum data with
  | error e => exact iff_of_false (by rintro ⟨d, hd⟩; cases hd) fun h => by simp [hne] at h
  | ok total =>
    by_cases htwo : 2 ≤ values.length
    · cases floats.stdev data with
      | error e =>
        refine iff_of_false ?_ fun h => by simp [htwo] at h
        simp only [if_pos htwo]
        rintro ⟨d, hd⟩
        cases hd
      | ok deviation =>
        refine iff_of_true ?_ ⟨fun _ => ⟨total, rfl⟩, fun _ => ⟨deviation, rfl⟩⟩
        simp only [if_pos htwo]
        exact ⟨_, rfl⟩
    · refine iff_of_true ?_ ⟨fun _ => ⟨total, rfl⟩, fun h => absurd h htwo⟩
      simp only [if_neg htwo]
      exact ⟨_, rfl⟩

/-- The sum and the standard deviation of the sorted floats succeed exactly if, when there are
several, they are finite, no running sum overflows and the variance is not too large. -/
theorem fsum_and_stdev_iff (values : List Binary64) :
    ((values ≠ [] → ∃ total, floats.fsum (floats.sorted values) = .ok total) ∧
        (2 ≤ values.length → ∃ deviation, floats.stdev (floats.sorted values) = .ok deviation)) ↔
      (2 ≤ values.length → ∃ exact : List ℚ, floats.sorted values = exact.map .finite ∧
        RunningSumsFinite [] (exact.map .finite) ∧ variance exact < limit ^ 2) := by
  have hlength := length_sorted_floats values
  by_cases htwo : 2 ≤ values.length
  · have hne : values ≠ [] := List.ne_nil_of_length_pos (by omega)
    simp only [hne, ne_eq, not_false_eq_true, htwo, true_imp_iff]
    have hstdev := @stdev_eq_ok_iff (floats.sorted values) (by omega)
    have hfinite : ∀ exact : List ℚ, ∀ x ∈ exact.map Binary64.finite, x.isFinite = true := by
      simp [isFinite]
    constructor
    · rintro ⟨hsum, hdeviation⟩
      obtain ⟨exact, hexact, hvariance⟩ := hstdev.mp hdeviation
      rw [hexact] at hsum
      exact ⟨exact, hexact, (fsum_eq_ok_iff (hfinite exact)).mp hsum, hvariance⟩
    · rintro ⟨exact, hexact, hsums, hvariance⟩
      refine ⟨?_, hstdev.mpr ⟨exact, hexact, hvariance⟩⟩
      rw [hexact]
      exact (fsum_eq_ok_iff (hfinite exact)).mpr hsums
  · simp only [htwo, false_imp_iff, and_true, iff_true]
    intro hne
    have hone : (floats.sorted values).length = 1 := by
      have hpos := List.length_pos_iff.mpr hne
      omega
    obtain ⟨x, hx⟩ := List.length_eq_one_iff.mp hone
    rw [hx]
    exact fsum_singleton x

/-- The numbers of some records have a distribution exactly if they fit. -/
theorem timesDistribution_floats_iff (records : List Dict) (name : Bytes) :
    (∃ d, timesDistribution floats records name = .ok d) ↔ Fits (times records name) := by
  have hnumbers : ∀ v ∈ times records name, isNumber v = true := fun v hv =>
    (List.mem_filter.mp hv).2
  have hsplit : (∃ d, timesDistribution floats records name = .ok d) ↔
      (∀ i : ℤ, .int i ∈ times records name → |(i : ℚ)| < limit) ∧
        ∃ d, Distribution.of floats ((times records name).map floatOf) = .ok d := by
    simp only [timesDistribution, bind_eq_ok_iff, mapM_float_eq_ok_iff hnumbers]
    constructor
    · rintro ⟨d, _, ⟨rfl, hintegers⟩, hd⟩
      exact ⟨hintegers, d, hd⟩
    · rintro ⟨hintegers, d, hd⟩
      exact ⟨d, _, ⟨rfl, hintegers⟩, hd⟩
  rw [hsplit, Distribution.of_floats_iff, fsum_and_stdev_iff, List.length_map]
  exact ⟨fun h => ⟨h.1, h.2⟩, fun h => ⟨h.integers, h.several⟩⟩

/-- The records of the group of a record. -/
def groupOf (python : Python) (groupBy : List Bytes) (records : List Dict) (record : Dict) :
    List Dict :=
  records.filter fun r => groupKey python groupBy r = groupKey python groupBy record

/-- In the group of each record, the times of the successful connections have distributions. -/
def TimesFit (python : Python) (groupBy : List Bytes) (records : List Dict) : Prop :=
  ∀ record ∈ records, ∀ name ∈ [ascii "handshake_ms", ascii "connection_ms"],
    Fits (times (successes (groupOf python groupBy records record)) name)

/-- The groups are those of the records. -/
theorem mem_sortedGroups_iff (python : Python) {groupBy : List Bytes} {records : List Dict}
    {entry : List Bytes × List Dict} :
    entry ∈ sortedGroups python groupBy records ↔ ∃ record ∈ records,
      entry = (groupKey python groupBy record, groupOf python groupBy records record) := by
  rw [sortedGroups, (Dictionary.sortedEntries_perm _).mem_iff, Dictionary.entries_groups,
    List.mem_map]
  simp only [Dictionary.groups, Dictionary.mem_keys_accumulate]
  constructor
  · rintro ⟨_, ⟨record, hrecord, rfl⟩, rfl⟩
    exact ⟨record, hrecord, rfl⟩
  · rintro ⟨record, hrecord, rfl⟩
    exact ⟨_, ⟨record, hrecord, rfl⟩, rfl⟩

/-- With the floats of Python there are summaries exactly if the times fit. -/
theorem summarise_floats_iff (python : Python) (groupBy : List Bytes) (records : List Dict) :
    (∃ summaries, summarise python floats records groupBy = .ok summaries) ↔
      TimesFit python groupBy records := by
  simp only [summarise_eq_ok_iff, exists_forall₂_iff, mem_sortedGroups_iff, TimesFit,
    List.forall_mem_cons, ← timesDistribution_floats_iff]
  constructor
  · intro h record hrecord
    obtain ⟨_, handshake, connection, hhandshake, hconnection, -⟩ := h _ ⟨record, hrecord, rfl⟩
    exact ⟨⟨handshake, hhandshake⟩, ⟨connection, hconnection⟩, by simp⟩
  · rintro h _ ⟨record, hrecord, rfl⟩
    obtain ⟨⟨handshake, hhandshake⟩, ⟨connection, hconnection⟩, -⟩ := h record hrecord
    exact ⟨_, handshake, connection, hhandshake, hconnection, rfl⟩

/-- There are summaries, and they account for every record, exactly if the times of the successful
connections fit in each group. In exact arithmetic no order of the records changes more than the
order of the counts in the two count dictionaries. -/
theorem summaries_account_iff (python : Python) (arithmetic : Arithmetic) (groupBy : List Bytes)
    (records : List Dict) :
    ((∃ summaries, summarise python floats records groupBy = .ok summaries ∧
          AccountFor python groupBy records summaries) ∧
        ∀ permuted : List Dict, records.Perm permuted → ∀ summaries,
          summarise python arithmetic.numbers records groupBy = .ok summaries →
            ∃ summaries', summarise python arithmetic.numbers permuted groupBy = .ok summaries' ∧
              List.Forall₂ SameSummary summaries summaries') ↔
      TimesFit python groupBy records := by
  rw [← summarise_floats_iff]
  constructor
  · rintro ⟨⟨summaries, hsummaries, -⟩, -⟩
    exact ⟨summaries, hsummaries⟩
  · rintro ⟨summaries, hsummaries⟩
    refine ⟨⟨summaries, hsummaries, accountFor_of_summarise python floats hsummaries⟩, ?_⟩
    intro permuted hperm exact hexact
    exact summarise_perm python arithmetic hperm hexact

/-- Two ordinary times fit. -/
example : Fits [.int 12, .float 0x4029000000000000] := by
  refine ⟨fun i hi => ?_, fun _ => ⟨[12, 25 / 2], by decide +kernel, ?_, by decide +kernel⟩⟩
  · obtain rfl : i = 12 := by simpa using hi
    decide +kernel
  · simp only [List.map_cons, runningSumsFinite_cons_iff]
    exact ⟨by decide +kernel, by decide +kernel, runningSumsFinite_nil _⟩

/-- The record of a connection that took longer than a float can say. -/
def endlessRecord : Dict :=
  [(ascii "success", .bool true), (ascii "handshake_ms", .int (10 ^ 400))]

/-- This record has no summary. -/
theorem endless_record_not_summarised :
    summarise Python.ofAscii floats [endlessRecord] [ascii "role"] = .error .overflowError := by
  have hgroups : sortedGroups Python.ofAscii [ascii "role"] [endlessRecord] =
      [([[]], [endlessRecord])] := rfl
  have htimes : times (successes [endlessRecord]) (ascii "handshake_ms") = [.int (10 ^ 400)] := rfl
  have hlarge : limit ≤ |((10 ^ 400 : ℤ) : ℚ)| := by decide +kernel
  have hfloat : floats.float (.int (10 ^ 400)) = .error .overflowError := by
    simp only [Numbers.float, floats, nearest_of_le hlarge]
  have hhandshake : timesDistribution floats (successes [endlessRecord]) (ascii "handshake_ms") =
      .error .overflowError := by
    rw [timesDistribution, htimes, List.mapM_cons, hfloat]
    rfl
  rw [summarise, hgroups, List.mapM_cons, summariseGroup, hhandshake]
  rfl

end PqtlsLab.Analysis
