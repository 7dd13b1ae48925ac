import PqtlsLab.Analysis.Distribution

/-!
# Percentiles are order statistics

A percentile of sorted values is the value at a place between the first and the last one, read off
the line between its neighbours. The branches of `percentile` for a single value and for an integral
place agree with this reading, so percentiles are ordered as the fractions and the samples are. All
of this is about exact arithmetic.
-/

namespace PqtlsLab.Analysis

variable (arithmetic : Arithmetic) {data samples : List ℚ} {f : ℚ}

/-- The entry of a list at a place. -/
def entry (data : List ℚ) (i : ℕ) : ℚ := data.getD i 0

/-- The place of a percentile among the sorted values. -/
def place (data : List ℚ) (f : ℚ) : ℚ := f * ((data.length - 1 : ℕ) : ℚ)

/-- The place of a percentile, as the source computes it. -/
theorem position_eq (hne : data ≠ []) (f : ℚ) : f * ((data.length : ℚ) - 1) = place data f := by
  have hlength := List.length_pos_iff.mpr hne
  rw [place, Nat.cast_sub hlength, Nat.cast_one]

/-- A place lies between the first and the last one. -/
theorem place_bounds (data : List ℚ) (hf : 0 ≤ f) (hf' : f ≤ 1) :
    0 ≤ place data f ∧ ⌈place data f⌉₊ ≤ data.length - 1 := by
  have hlast : (0 : ℚ) ≤ ((data.length - 1 : ℕ) : ℚ) := Nat.cast_nonneg _
  refine ⟨mul_nonneg hf hlast, Nat.ceil_le.mpr ?_⟩
  calc f * ((data.length - 1 : ℕ) : ℚ) ≤ 1 * ((data.length - 1 : ℕ) : ℚ) :=
        mul_le_mul_of_nonneg_right hf' hlast
    _ = ((data.length - 1 : ℕ) : ℚ) := one_mul _

/-- A larger fraction has a larger place. -/
theorem place_mono {g : ℚ} (hfg : f ≤ g) : place data f ≤ place data g :=
  mul_le_mul_of_nonneg_right hfg (Nat.cast_nonneg _)

/-- The entry at a place up to the last one. -/
theorem index_entry (hne : data ≠ []) {i : ℕ} (hi : i ≤ data.length - 1) :
    index data i = .ok (entry data i) := by
  have hlength := List.length_pos_iff.mpr hne
  exact index_natCast (by omega) 0

/-- The entry at a place within the list. -/
theorem entry_of_lt {i : ℕ} (hi : i < data.length) : entry data i = data[i] := by
  rw [entry, List.getD_eq_getElem?_getD, List.getElem?_eq_getElem hi, Option.getD_some]

/-- The entries of an increasing list increase up to the last one. -/
theorem entry_monotoneOn (hdata : data.Pairwise (· ≤ ·)) :
    MonotoneOn (entry data) (Set.Iic (data.length - 1)) := by
  intro i hi j hj hij
  have hi' : i ≤ data.length - 1 := hi
  have hj' : j ≤ data.length - 1 := hj
  rcases Nat.eq_zero_or_pos data.length with hzero | hpos
  · have hsame : i = j := by omega
    rw [hsame]
  · have hi : i < data.length := by omega
    have hj : j < data.length := by omega
    rw [entry_of_lt hi, entry_of_lt hj]
    rcases hij.lt_or_eq with hlt | heq
    · exact List.pairwise_iff_getElem.mp hdata i j hi hj hlt
    · subst heq
      exact le_rfl

/-- A percentile is the value at its place, whichever branch computes it. -/
theorem percentile_eq (hne : data ≠ []) (hf : 0 ≤ f) (hf' : f ≤ 1) :
    percentile arithmetic.numbers data f =
      .ok (some (interpolate (entry data) (place data f))) := by
  obtain ⟨hpos, hlast⟩ := place_bounds data hf hf'
  have hfloor : ⌊place data f⌋ = (⌊place data f⌋₊ : ℤ) := (Int.natCast_floor_eq_floor hpos).symm
  have hceil : ⌈place data f⌉ = (⌈place data f⌉₊ : ℤ) := (Int.natCast_ceil_eq_ceil hpos).symm
  have hempty : data.isEmpty = false := by simpa using hne
  have hbelow := index_entry hne ((Nat.floor_le_ceil _).trans hlast)
  have habove := index_entry hne hlast
  unfold percentile
  simp only [hempty, Bool.false_eq_true, if_false, Arithmetic.numbers_nearest,
    Arithmetic.numbers_mul, Arithmetic.numbers_floor, Arithmetic.numbers_ceil, position_eq hne]
  by_cases hsingle : data.length = 1
  · have hplace : place data f = (0 : ℕ) := by simp [place, hsingle]
    have hfirst : index data 0 = .ok (entry data 0) := index_entry hne (Nat.zero_le _)
    rw [if_pos hsingle, hplace, interpolate_natCast, hfirst]
    rfl
  · rw [if_neg hsingle]
    by_cases hintegral : ⌊place data f⌋ = ⌈place data f⌉
    · have hexact : place data f = (⌊place data f⌋₊ : ℕ) := by
        have hle := Int.le_ceil (place data f)
        rw [← hintegral, hfloor, Int.cast_natCast] at hle
        exact le_antisymm hle (Nat.floor_le hpos)
      have hvalue : interpolate (entry data) (place data f) = entry data ⌊place data f⌋₊ := by
        conv_lhs => rw [hexact]
        exact interpolate_natCast _ _
      have hnonneg : 0 ≤ ⌊place data f⌋ := Int.floor_nonneg.mpr hpos
      rw [if_pos hintegral, truncate, Arithmetic.numbers_floor, if_pos hnonneg, hfloor, hbelow,
        hvalue]
      rfl
    · rw [if_neg hintegral, hfloor, hceil, hbelow, habove, Int.cast_natCast]
      rfl

/-- Percentiles increase with the fraction. -/
theorem interpolate_place_mono {g : ℚ} (hdata : data.Pairwise (· ≤ ·)) (hf : 0 ≤ f) (hfg : f ≤ g)
    (hg : g ≤ 1) :
    interpolate (entry data) (place data f) ≤ interpolate (entry data) (place data g) := by
  have hplace := place_bounds data hf (hfg.trans hg)
  have hplace' := place_bounds data (hf.trans hfg) hg
  exact interpolate_mono (entry_monotoneOn hdata) hplace.1 (place_mono hfg) hplace'.2

/-- The percentile of the fraction zero is the first value. -/
theorem interpolate_place_zero (data : List ℚ) :
    interpolate (entry data) (place data 0) = entry data 0 := by
  have hplace : place data 0 = (0 : ℕ) := by simp [place]
  rw [hplace, interpolate_natCast]

/-- The percentile of the fraction one is the last value. -/
theorem interpolate_place_one (data : List ℚ) :
    interpolate (entry data) (place data 1) = entry data (data.length - 1) := by
  rw [place, one_mul, interpolate_natCast]

/-- The percentile of one half is the median: with an odd number of values its place is the middle,
with an even number it lies half way between the two values in the middle. -/
theorem median_eq (hne : data ≠ []) (hdata : data.Pairwise (· ≤ ·)) :
    median arithmetic.numbers data = .ok (interpolate (entry data) (place data (1 / 2))) := by
  have hlength := List.length_pos_iff.mpr hne
  unfold median
  simp only [Arithmetic.numbers_sorted, sorted_of_pairwise hdata, hlength.ne', if_false]
  rcases Nat.even_or_odd' data.length with ⟨k, heven | hodd⟩
  · have hk : data.length / 2 = k := by omega
    have hparity : ¬data.length % 2 = 1 := by omega
    have hplace : place data (1 / 2) = ((k - 1 : ℕ) : ℚ) + 1 / 2 := by
      have hlast : data.length - 1 = 2 * (k - 1) + 1 := by omega
      rw [place, hlast]
      push_cast
      ring
    have hfloor : ⌊place data (1 / 2)⌋₊ = k - 1 := by
      rw [hplace, Nat.floor_eq_iff (by positivity)]
      constructor <;> linarith
    have hceil : ⌈place data (1 / 2)⌉₊ = k := by
      have hnext : ((k - 1 : ℕ) : ℚ) + 1 = (k : ℚ) := by
        have hk : 1 ≤ k := by omega
        rw [Nat.cast_sub hk]
        ring
      rw [hplace, Nat.ceil_eq_iff (by omega)]
      constructor <;> linarith
    have hbelow : index data ((k : ℤ) - 1) = .ok (entry data (k - 1)) := by
      have hcast : ((k : ℤ) - 1) = ((k - 1 : ℕ) : ℤ) := by omega
      rw [hcast]
      exact index_entry hne (by omega)
    have habove : index data (k : ℤ) = .ok (entry data k) := index_entry hne (by omega)
    have hvalue : interpolate (entry data) (place data (1 / 2)) =
        (entry data (k - 1) + entry data k) / 2 := by
      rw [interpolate, hfloor, hceil, hplace]
      ring
    rw [if_neg hparity, hk, hbelow, habove, hvalue]
    rfl
  · have hk : data.length / 2 = k := by omega
    have hparity : data.length % 2 = 1 := by omega
    have hplace : place data (1 / 2) = (k : ℕ) := by
      have hlast : data.length - 1 = 2 * k := by omega
      rw [place, hlast]
      push_cast
      ring
    rw [if_pos hparity, hk, hplace, interpolate_natCast]
    exact index_entry hne (by omega)

/-- At least one sample makes at least one sorted value. -/
theorem sorted_ne_nil (hne : samples ≠ []) : sorted samples ≠ [] := by
  intro hnil
  have hlength := length_sorted samples
  rw [hnil, List.length_nil] at hlength
  exact hne (List.length_eq_zero_iff.mp hlength.symm)

/-- Every sorted value is a sample. -/
theorem entry_mem {i : ℕ} (hi : i < (sorted samples).length) :
    entry (sorted samples) i ∈ samples := by
  rw [entry_of_lt hi]
  exact mem_sorted.mp (List.getElem_mem hi)

/-- Every sample is one of the sorted values. -/
theorem exists_entry_of_mem {x : ℚ} (hx : x ∈ samples) :
    ∃ i ≤ (sorted samples).length - 1, entry (sorted samples) i = x := by
  obtain ⟨i, hi, rfl⟩ := List.getElem_of_mem (mem_sorted.mpr hx)
  exact ⟨i, by omega, entry_of_lt hi⟩

/-- The first of the sorted values is the least of the samples. -/
theorem isLeast_entry_zero (hne : samples ≠ []) :
    IsLeast {x | x ∈ samples} (entry (sorted samples) 0) := by
  have hlength : 0 < (sorted samples).length := List.length_pos_iff.mpr (sorted_ne_nil hne)
  refine ⟨entry_mem hlength, fun x hx => ?_⟩
  obtain ⟨i, hlast, rfl⟩ := exists_entry_of_mem hx
  exact entry_monotoneOn (sorted_pairwise samples) (Nat.zero_le _) hlast (Nat.zero_le i)

/-- The last of the sorted values is the greatest of the samples. -/
theorem isGreatest_entry_last (hne : samples ≠ []) :
    IsGreatest {x | x ∈ samples} (entry (sorted samples) ((sorted samples).length - 1)) := by
  have hlength : (sorted samples).length - 1 < (sorted samples).length := by
    have hpos := List.length_pos_iff.mpr (sorted_ne_nil hne)
    omega
  refine ⟨entry_mem hlength, fun x hx => ?_⟩
  obtain ⟨i, hlast, rfl⟩ := exists_entry_of_mem hx
  exact entry_monotoneOn (sorted_pairwise samples) hlast (Set.mem_Iic.mpr le_rfl) hlast

/-- Percentiles lie between the least and the greatest of the samples. -/
theorem interpolate_place_bounds (hdata : data.Pairwise (· ≤ ·)) (hf : 0 ≤ f) (hf' : f ≤ 1) :
    entry data 0 ≤ interpolate (entry data) (place data f) ∧
      interpolate (entry data) (place data f) ≤ entry data (data.length - 1) := by
  constructor
  · rw [← interpolate_place_zero]
    exact interpolate_place_mono hdata le_rfl hf hf'
  · rw [← interpolate_place_one]
    exact interpolate_place_mono hdata hf hf' le_rfl

/-- Percentiles increase with every sample. -/
theorem interpolate_sorted_mono {larger : List ℚ} (hlarger : List.Forall₂ (· ≤ ·) samples larger)
    (hf : 0 ≤ f) (hf' : f ≤ 1) :
    interpolate (entry (sorted samples)) (place (sorted samples) f) ≤
      interpolate (entry (sorted larger)) (place (sorted larger) f) := by
  have hsorted := forall₂_sorted hlarger
  have hlength : (sorted larger).length = (sorted samples).length := hsorted.length_eq.symm
  have hplace : place (sorted larger) f = place (sorted samples) f := by
    rw [place, place, hlength]
  have hentries : ∀ i ≤ (sorted samples).length - 1,
      entry (sorted samples) i ≤ entry (sorted larger) i := by
    intro i hi
    by_cases hbound : i < (sorted samples).length
    · have hbound' : i < (sorted larger).length := by omega
      rw [entry_of_lt hbound, entry_of_lt hbound']
      exact hsorted.get hbound hbound'
    · have hbound' : ¬i < (sorted larger).length := by omega
      simp [entry, List.getD_eq_getElem?_getD, List.getElem?_eq_none (not_lt.mp hbound),
        List.getElem?_eq_none (not_lt.mp hbound')]
  obtain ⟨hpos, hlast⟩ := place_bounds (sorted samples) hf hf'
  rw [hplace]
  exact interpolate_le_interpolate hentries hpos hlast

/-- What `Distribution.of` computes from at least one value. -/
theorem Distribution.of_eq (hne : samples ≠ []) :
    Distribution.of arithmetic.numbers samples = .ok
      (let data := sorted samples
       let stdev := if 2 ≤ data.length then some (arithmetic.stdev data) else none
       let margin := stdev.bind (margin arithmetic.numbers data.length)
       { count := data.length
         mean := some (exactMean data)
         median := some (interpolate (entry data) (place data (1 / 2)))
         minimum := some (entry data 0)
         maximum := some (entry data (data.length - 1))
         stdev := stdev
         p50 := some (interpolate (entry data) (place data (1 / 2)))
         p90 := some (interpolate (entry data) (place data (9 / 10)))
         p95 := some (interpolate (entry data) (place data (19 / 20)))
         p99 := some (interpolate (entry data) (place data (99 / 100)))
         ci95Low := margin.map (exactMean data - ·)
         ci95High := margin.map (exactMean data + ·) }) := by
  have hdata : sorted samples ≠ [] := sorted_ne_nil hne
  have hcount : ¬(sorted samples).length = 0 := by
    rw [List.length_eq_zero_iff]
    exact hdata
  have hempty : (sorted samples).isEmpty = false := by simpa using hdata
  have hmean : fmean arithmetic.numbers (sorted samples) = .ok (exactMean (sorted samples)) := by
    simp only [fmean, hempty]
    rfl
  have hfirst : index (sorted samples) 0 = .ok (entry (sorted samples) 0) :=
    index_entry hdata (Nat.zero_le _)
  unfold Distribution.of
  simp only [Arithmetic.numbers_sorted, hcount, if_false, hmean, Arithmetic.numbers_stdev,
    median_eq arithmetic hdata (sorted_pairwise samples), hfirst, index_neg_one hdata 0,
    percentile_eq arithmetic hdata (f := 1 / 2) (by norm_num) (by norm_num),
    percentile_eq arithmetic hdata (f := 9 / 10) (by norm_num) (by norm_num),
    percentile_eq arithmetic hdata (f := 19 / 20) (by norm_num) (by norm_num),
    percentile_eq arithmetic hdata (f := 99 / 100) (by norm_num) (by norm_num)]
  by_cases htwo : 2 ≤ (sorted samples).length
  · simp only [if_pos htwo]
    rfl
  · simp only [if_neg htwo]
    rfl

/-- The percentiles of some samples are consistent order statistics. -/
structure PercentilesOrdered (arithmetic : Arithmetic) (samples : List ℚ) : Prop where
  /-- Every percentile is defined and lies between the minimum and the maximum. -/
  bounded : ∀ f, 0 ≤ f → f ≤ 1 → ∃ v lo hi,
    percentile arithmetic.numbers (sorted samples) f = .ok (some v) ∧
    IsLeast {x | x ∈ samples} lo ∧ IsGreatest {x | x ∈ samples} hi ∧ lo ≤ v ∧ v ≤ hi
  /-- Percentiles increase with the fraction. -/
  monotone : ∀ f g, 0 ≤ f → f ≤ g → g ≤ 1 → ∃ p q,
    percentile arithmetic.numbers (sorted samples) f = .ok (some p) ∧
    percentile arithmetic.numbers (sorted samples) g = .ok (some q) ∧ p ≤ q
  /-- One half gives the median. -/
  half : ∃ v, median arithmetic.numbers samples = .ok v ∧
    percentile arithmetic.numbers (sorted samples) (1 / 2) = .ok (some v)
  /-- Zero gives the minimum. -/
  zero : ∃ lo, IsLeast {x | x ∈ samples} lo ∧
    percentile arithmetic.numbers (sorted samples) 0 = .ok (some lo)
  /-- One gives the maximum. -/
  one : ∃ hi, IsGreatest {x | x ∈ samples} hi ∧
    percentile arithmetic.numbers (sorted samples) 1 = .ok (some hi)
  /-- The percentiles of a distribution are in order. -/
  distribution : ∃ d lo p50 p90 p95 p99 hi, Distribution.of arithmetic.numbers samples = .ok d ∧
    d.minimum = some lo ∧ d.p50 = some p50 ∧ d.p90 = some p90 ∧ d.p95 = some p95 ∧
    d.p99 = some p99 ∧ d.maximum = some hi ∧
    lo ≤ p50 ∧ p50 ≤ p90 ∧ p90 ≤ p95 ∧ p95 ≤ p99 ∧ p99 ≤ hi
  /-- Percentiles increase with every sample. -/
  samples : ∀ larger, List.Forall₂ (· ≤ ·) samples larger → ∀ f, 0 ≤ f → f ≤ 1 →
    ∃ p q, percentile arithmetic.numbers (sorted samples) f = .ok (some p) ∧
      percentile arithmetic.numbers (sorted larger) f = .ok (some q) ∧ p ≤ q

/-- The percentiles of at least one sample are consistent order statistics. -/
theorem percentiles_ordered (arithmetic : Arithmetic) (samples : List ℚ) (hne : samples ≠ []) :
    PercentilesOrdered arithmetic samples := by
  have hdata : sorted samples ≠ [] := sorted_ne_nil hne
  have hpairwise := sorted_pairwise samples
  have hleast := isLeast_entry_zero hne
  have hgreatest := isGreatest_entry_last hne
  constructor
  · intro f hf hf'
    obtain ⟨hlow, hhigh⟩ := interpolate_place_bounds hpairwise hf hf'
    exact ⟨_, _, _, percentile_eq arithmetic hdata hf hf', hleast, hgreatest, hlow, hhigh⟩
  · intro f g hf hfg hg
    exact ⟨_, _, percentile_eq arithmetic hdata hf (hfg.trans hg),
      percentile_eq arithmetic hdata (hf.trans hfg) hg, interpolate_place_mono hpairwise hf hfg hg⟩
  · have hmedian :
        median arithmetic.numbers samples = median arithmetic.numbers (sorted samples) := by
      rw [median, median, Arithmetic.numbers_sorted, Arithmetic.numbers_sorted,
        sorted_of_pairwise hpairwise]
    exact ⟨_, hmedian.trans (median_eq arithmetic hdata hpairwise),
      percentile_eq arithmetic hdata (by norm_num) (by norm_num)⟩
  · refine ⟨_, hleast, ?_⟩
    rw [percentile_eq arithmetic hdata le_rfl zero_le_one, interpolate_place_zero]
  · refine ⟨_, hgreatest, ?_⟩
    rw [percentile_eq arithmetic hdata zero_le_one le_rfl, interpolate_place_one]
  · refine ⟨_, _, _, _, _, _, _, Distribution.of_eq arithmetic hne, rfl, rfl, rfl, rfl, rfl, rfl,
      ?_, ?_, ?_, ?_, ?_⟩
    · exact (interpolate_place_bounds hpairwise (by norm_num) (by norm_num)).1
    · exact interpolate_place_mono hpairwise (by norm_num) (by norm_num) (by norm_num)
    · exact interpolate_place_mono hpairwise (by norm_num) (by norm_num) (by norm_num)
    · exact interpolate_place_mono hpairwise (by norm_num) (by norm_num) (by norm_num)
    · exact (interpolate_place_bounds hpairwise (by norm_num) (by norm_num)).2
  · intro larger hlarger f hf hf'
    have hne' : larger ≠ [] := by
      rintro rfl
      exact hne (List.forall₂_nil_right_iff.mp hlarger)
    exact ⟨_, _, percentile_eq arithmetic hdata hf hf',
      percentile_eq arithmetic (sorted_ne_nil hne') hf hf', interpolate_sorted_mono hlarger hf hf'⟩

/-- Three samples that are not in order. -/
theorem percentiles_of_three_samples : PercentilesOrdered Arithmetic.ofSquares [3, 1, 2] :=
  percentiles_ordered Arithmetic.ofSquares [3, 1, 2] (by simp)

end PqtlsLab.Analysis
