import PqtlsLab.Analysis.Percentiles
import Mathlib.Algebra.Order.BigOperators.Group.List
import Mathlib.Data.Real.Basic

/-!
# The width of the confidence interval

`t_critical_95` answers from a table. Between two entries of the table it takes the value of the
next larger number of degrees of freedom, and beyond the table the limit of the normal
distribution. The critical values decrease, so in both cases the answer is too small: the interval
is as wide as it should be for the tabulated numbers only. The interval is the one of exact
arithmetic, since rounding alone can make an interval of floats narrower than its formula.
-/

namespace PqtlsLab.Analysis

/-- A curve of critical values for the table: it decreases strictly, goes through every entry and
stays above the limit. -/
structure CriticalCurve (t : ℤ → ℝ) : Prop where
  decreasing : ∀ m n, 1 ≤ m → m < n → t n < t m
  table : ∀ n critical, (n, critical) ∈ t95 → t n = (critical : ℚ)
  limit : ∀ n, 1 ≤ n → 1.960 < t n

/-- The table has an entry for a number of degrees of freedom. -/
def Tabulated (n : ℤ) : Prop := ∃ critical, (n, critical) ∈ t95

/-- A number without an entry is not found. -/
theorem lookup_t95_eq_none_iff {n : ℤ} : t95.lookup n = none ↔ ¬Tabulated n := by
  simp only [List.lookup_eq_none_iff, bne_iff_ne, Tabulated]
  constructor
  · rintro hnone ⟨critical, hmem⟩
    exact hnone _ hmem rfl
  · rintro hno ⟨k, critical⟩ hmem heq
    exact hno ⟨critical, by rwa [heq]⟩

/-- What is found is an entry. -/
theorem mem_of_lookup_t95 {n : ℤ} {critical : ℚ} (h : t95.lookup n = some critical) :
    (n, critical) ∈ t95 := by
  obtain ⟨before, after, heq, _⟩ := List.lookup_eq_some_iff.mp h
  rw [heq]
  simp

variable {t : ℤ → ℝ} {n : ℤ}

/-- For a tabulated number the answer is on the curve. -/
theorem tCritical95_of_tabulated (ht : CriticalCurve t) (hn : 1 ≤ n) (htable : Tabulated n) :
    ∃ critical : ℚ, tCritical95 n = some critical ∧ (critical : ℝ) = t n := by
  cases hlookup : t95.lookup n with
  | none => exact absurd htable (lookup_t95_eq_none_iff.mp hlookup)
  | some critical =>
    refine ⟨critical, ?_, (ht.table n critical (mem_of_lookup_t95 hlookup)).symm⟩
    simp only [tCritical95, hlookup, if_neg (not_lt.mpr hn)]

/-- For every other number the answer is below the curve. -/
theorem tCritical95_of_not_tabulated (ht : CriticalCurve t) (hn : 1 ≤ n) (htable : ¬Tabulated n) :
    ∃ critical : ℚ, tCritical95 n = some critical ∧ (critical : ℝ) < t n := by
  have hnone : t95.lookup n = none := lookup_t95_eq_none_iff.mpr htable
  simp only [tCritical95, hnone, if_neg (not_lt.mpr hn)]
  cases hfind : (sorted (t95.map Prod.fst)).find? fun threshold => n ≤ threshold with
  | none =>
    refine ⟨1.960, rfl, ?_⟩
    have hlimit := ht.limit n hn
    norm_num at hlimit ⊢
    exact hlimit
  | some threshold =>
    have hle : n ≤ threshold := by simpa using List.find?_some hfind
    have hmem : threshold ∈ t95.map Prod.fst := mem_sorted.mp (List.mem_of_find?_eq_some hfind)
    obtain ⟨⟨k, critical⟩, hentry, rfl⟩ := List.mem_map.mp hmem
    have hne : n ≠ k := by
      rintro rfl
      exact htable ⟨critical, hentry⟩
    cases hlookup : t95.lookup k with
    | none => exact absurd ⟨critical, hentry⟩ (lookup_t95_eq_none_iff.mp hlookup)
    | some found =>
      refine ⟨found, hlookup, ?_⟩
      rw [← ht.table k found (mem_of_lookup_t95 hlookup)]
      exact ht.decreasing n k hn (by omega)

/-- The answer reaches the curve exactly for the tabulated numbers. -/
theorem le_tCritical95_iff (ht : CriticalCurve t) (hn : 1 ≤ n) :
    ∃ critical : ℚ, tCritical95 n = some critical ∧ (t n ≤ critical ↔ Tabulated n) := by
  by_cases htable : Tabulated n
  · obtain ⟨critical, hanswer, heq⟩ := tCritical95_of_tabulated ht hn htable
    exact ⟨critical, hanswer, iff_of_true heq.ge htable⟩
  · obtain ⟨critical, hanswer, hlt⟩ := tCritical95_of_not_tabulated ht hn htable
    exact ⟨critical, hanswer, iff_of_false (not_le.mpr hlt) htable⟩

section Deviation

variable (arithmetic : Arithmetic) {data : List ℚ}

/-- A sum of squares is not negative. -/
theorem squaredDeviations_nonneg (data : List ℚ) : 0 ≤ squaredDeviations data := by
  apply List.sum_nonneg
  intro y hy
  obtain ⟨x, _, rfl⟩ := List.mem_map.mp hy
  exact sq_nonneg _

/-- There is no deviation exactly if all values are equal. -/
theorem squaredDeviations_eq_zero_iff (hne : data ≠ []) :
    squaredDeviations data = 0 ↔ ∀ x ∈ data, ∀ y ∈ data, x = y := by
  constructor
  · intro hzero
    have hmean : ∀ x ∈ data, x = exactMean data := by
      intro x hx
      have hsquare : (x - exactMean data) ^ 2 = 0 := by
        refine List.all_zero_of_le_zero_le_of_sum_eq_zero ?_ hzero
          (List.mem_map_of_mem (f := fun x => (x - exactMean data) ^ 2) hx)
        intro y hy
        obtain ⟨z, _, rfl⟩ := List.mem_map.mp hy
        exact sq_nonneg _
      exact sub_eq_zero.mp (pow_eq_zero_iff (by decide) |>.mp hsquare)
    intro x hx y hy
    rw [hmean x hx, hmean y hy]
  · intro hequal
    obtain ⟨c, hc⟩ := List.exists_mem_of_ne_nil data hne
    have hlength : (data.length : ℚ) ≠ 0 := by
      simpa using hne
    have hmean : exactMean data = c := by
      have hsum := List.sum_eq_card_nsmul data c fun x hx => hequal x hx c hc
      rw [exactMean, hsum, nsmul_eq_mul, mul_div_cancel_left₀ c hlength]
    apply List.sum_eq_zero
    intro y hy
    obtain ⟨x, hx, rfl⟩ := List.mem_map.mp hy
    rw [hmean, hequal x hx c hc, sub_self]
    rfl

/-- The standard deviation of at least two values is not negative, and zero exactly if all values
are equal. -/
theorem stdev_spec (hcount : 2 ≤ data.length) :
    0 ≤ arithmetic.stdev data ∧
      (arithmetic.stdev data = 0 ↔ ∀ x ∈ data, ∀ y ∈ data, x = y) := by
  have hne : data ≠ [] := by
    rintro rfl
    exact absurd hcount (by decide)
  have hdivisor : (0 : ℚ) < data.length - 1 := by
    have hcast : (2 : ℚ) ≤ data.length := by exact_mod_cast hcount
    linarith
  rw [← squaredDeviations_eq_zero_iff hne, Arithmetic.stdev, variance]
  rcases (squaredDeviations_nonneg data).eq_or_lt with hzero | hpos
  · rw [← hzero, zero_div, arithmetic.sqrt_zero]
    exact ⟨le_rfl, iff_of_true rfl rfl⟩
  · have hsqrt := arithmetic.sqrt_pos _ (div_pos hpos hdivisor)
    exact ⟨hsqrt.le, iff_of_false hsqrt.ne' hpos.ne'⟩

end Deviation

/-- The reported interval covers the interval that a curve of critical values gives. -/
def CoversInterval (t : ℤ → ℝ) (arithmetic : Arithmetic) (samples : List ℚ) : Prop :=
  ∃ d mean deviation low high, Distribution.of arithmetic.numbers samples = .ok d ∧
    d.mean = some mean ∧ d.stdev = some deviation ∧ d.ci95Low = some low ∧
    d.ci95High = some high ∧
    (low : ℝ) ≤ mean - t (samples.length - 1) * deviation / arithmetic.sqrt samples.length ∧
    mean + t (samples.length - 1) * deviation / arithmetic.sqrt samples.length ≤ (high : ℝ)

/-- The parts of a distribution that make its confidence interval. -/
theorem Distribution.of_interval (arithmetic : Arithmetic) {samples : List ℚ} {width : ℚ}
    (hcount : 2 ≤ samples.length)
    (hwidth : margin arithmetic.numbers samples.length (arithmetic.stdev (sorted samples)) =
      some width) :
    ∃ d, Distribution.of arithmetic.numbers samples = .ok d ∧
      d.mean = some (exactMean (sorted samples)) ∧
      d.stdev = some (arithmetic.stdev (sorted samples)) ∧
      d.ci95Low = some (exactMean (sorted samples) - width) ∧
      d.ci95High = some (exactMean (sorted samples) + width) := by
  have hne : samples ≠ [] := by
    rintro rfl
    exact absurd hcount (by decide)
  have hsorted : 2 ≤ (sorted samples).length := by
    rw [length_sorted]
    exact hcount
  refine ⟨_, Distribution.of_eq arithmetic hne, rfl, if_pos hsorted, ?_, ?_⟩
  · simp only [length_sorted, if_pos hcount, Option.bind_some, hwidth, Option.map_some]
  · simp only [length_sorted, if_pos hcount, Option.bind_some, hwidth, Option.map_some]

/-- Of two intervals around the same mean the one with the larger factor covers the other, unless
both have no width. -/
theorem margin_le_margin_iff (critical factor mean : ℝ) {deviation root : ℝ}
    (hdeviation : 0 ≤ deviation) (hroot : 0 < root) :
    (mean - critical * deviation / root ≤ mean - factor * deviation / root ∧
        mean + factor * deviation / root ≤ mean + critical * deviation / root) ↔
      factor ≤ critical ∨ deviation = 0 := by
  rw [sub_le_sub_iff_left, add_le_add_iff_left, and_self, div_le_div_iff_of_pos_right hroot]
  rcases hdeviation.eq_or_lt with hzero | hpos
  · simp [← hzero]
  · rw [mul_le_mul_iff_left₀ hpos]
    exact (or_iff_left hpos.ne').symm

/-- The reported interval of at least two samples is wide enough exactly if the number of degrees of
freedom is tabulated or all samples are equal. -/
theorem coversInterval_iff (ht : CriticalCurve t) (arithmetic : Arithmetic) {samples : List ℚ}
    (hcount : 2 ≤ samples.length) :
    CoversInterval t arithmetic samples ↔
      Tabulated (samples.length - 1) ∨ ∀ x ∈ samples, ∀ y ∈ samples, x = y := by
  have hlength := length_sorted samples
  have hsqrt : 0 < arithmetic.sqrt samples.length :=
    arithmetic.sqrt_pos _ (by exact_mod_cast (by omega : 0 < samples.length))
  have hroot : (0 : ℝ) < arithmetic.sqrt samples.length := by exact_mod_cast hsqrt
  obtain ⟨hdeviation, hzero⟩ := stdev_spec arithmetic (hlength.symm ▸ hcount)
  simp only [mem_sorted] at hzero
  have hsigma : (0 : ℝ) ≤ arithmetic.stdev (sorted samples) := by exact_mod_cast hdeviation
  obtain ⟨critical, hanswer, hiff⟩ :=
    le_tCritical95_iff ht (n := (samples.length : ℤ) - 1) (by omega)
  have hmargin : margin arithmetic.numbers samples.length (arithmetic.stdev (sorted samples)) =
      some (critical * arithmetic.stdev (sorted samples) / arithmetic.sqrt samples.length) := by
    rw [margin, hanswer]
    rfl
  have hcovers := margin_le_margin_iff critical (t (samples.length - 1))
    (exactMean (sorted samples)) hsigma hroot
  have hcast : (arithmetic.stdev (sorted samples) : ℝ) = 0 ↔
      arithmetic.stdev (sorted samples) = 0 :=
    Rat.cast_eq_zero
  obtain ⟨d, hd, hmean, hstdev, hlow, hhigh⟩ :=
    Distribution.of_interval arithmetic hcount hmargin
  rw [← hiff, ← hzero, ← hcast, ← hcovers]
  constructor
  · rintro ⟨d', mean, deviation, low, high, hd', hmean', hstdev', hlow', hhigh', hleft, hright⟩
    obtain rfl := Except.ok.inj (hd.symm.trans hd')
    obtain rfl := Option.some.inj (hmean.symm.trans hmean')
    obtain rfl := Option.some.inj (hstdev.symm.trans hstdev')
    obtain rfl := Option.some.inj (hlow.symm.trans hlow')
    obtain rfl := Option.some.inj (hhigh.symm.trans hhigh')
    push_cast at hleft hright
    exact ⟨hleft, hright⟩
  · rintro ⟨hleft, hright⟩
    refine ⟨d, _, _, _, _, hd, hmean, hstdev, hlow, hhigh, ?_, ?_⟩
    · push_cast
      exact hleft
    · push_cast
      exact hright

/-- For every curve of critical values, the answer for a number of degrees of freedom reaches the
curve exactly if that number is tabulated; and the interval of some samples is as wide as the curve
asks for exactly if their number of degrees of freedom is tabulated or all of them are equal. -/
theorem interval_wide_enough_iff (t : ℤ → ℝ) (ht : CriticalCurve t) (n : ℤ) (hn : 1 ≤ n) :
    (∃ critical : ℚ, tCritical95 n = some critical ∧ (t n ≤ critical ↔ Tabulated n)) ∧
      ∀ (arithmetic : Arithmetic) (samples : List ℚ), (samples.length : ℤ) - 1 = n →
        (CoversInterval t arithmetic samples ↔
          Tabulated n ∨ ∀ x ∈ samples, ∀ y ∈ samples, x = y) := by
  refine ⟨le_tCritical95_iff ht hn, ?_⟩
  rintro arithmetic samples rfl
  exact coversInterval_iff ht arithmetic (by omega)

/-- A curve of critical values: between two entries of the table it rises a little above the next
one, and beyond the table it approaches the limit. -/
def curve (n : ℤ) : ℚ :=
  match (sorted (t95.map Prod.fst)).find? fun threshold => n ≤ threshold with
  | some threshold => (t95.lookup threshold).getD 0 + (threshold - n) / 10000
  | none => 1.960 + 2.4 / n

/-- The curve beyond the table. -/
theorem curve_of_lt (hn : 120 < n) : curve n = 1.960 + 2.4 / n := by
  have hbeyond : ∀ threshold ∈ t95.map Prod.fst, threshold ≤ 120 := by decide
  have hnone : ((sorted (t95.map Prod.fst)).find? fun threshold => n ≤ threshold) = none := by
    rw [List.find?_eq_none]
    intro threshold hmem hle
    have htop := hbeyond threshold (mem_sorted.mp hmem)
    have hle : n ≤ threshold := by simpa using hle
    omega
  rw [curve, hnone]

/-- The curve decreases from each number to the next. -/
theorem curve_succ_lt (k : ℕ) : curve (k + 2) < curve (k + 1) := by
  by_cases hk : k < 120
  · have hwithin : ∀ k : Fin 120, curve (k.val + 2) < curve (k.val + 1) := by decide +kernel
    exact hwithin ⟨k, hk⟩
  · rw [curve_of_lt (by omega), curve_of_lt (by omega)]
    have hpos : (0 : ℚ) < ((k + 1 : ℤ) : ℚ) := by exact_mod_cast (by omega : (0 : ℤ) < k + 1)
    have hlt : ((k + 1 : ℤ) : ℚ) < ((k + 2 : ℤ) : ℚ) := by
      exact_mod_cast (by omega : (k + 1 : ℤ) < k + 2)
    have hfraction := div_lt_div_of_pos_left (by norm_num : (0 : ℚ) < 2.4) hpos hlt
    linarith

/-- The curve is one of critical values for the table. -/
theorem curve_criticalCurve : CriticalCurve fun n => (curve n : ℝ) := by
  have hdecreasing : StrictAnti fun k : ℕ => curve (k + 1) := by
    refine strictAnti_nat_of_succ_lt fun k => ?_
    have hstep := curve_succ_lt k
    have hnext : ((k + 1 : ℕ) : ℤ) + 1 = k + 2 := by omega
    rwa [← hnext] at hstep
  have hbelow : ∀ m n : ℤ, 1 ≤ m → m < n → curve n < curve m := by
    intro m n hm hmn
    have hlt := hdecreasing (show (m - 1).toNat < (n - 1).toNat by omega)
    have hm' : (((m - 1).toNat : ℕ) : ℤ) + 1 = m := by omega
    have hn' : (((n - 1).toNat : ℕ) : ℤ) + 1 = n := by omega
    simpa only [hm', hn'] using hlt
  constructor
  · intro m n hm hmn
    exact_mod_cast hbelow m n hm hmn
  · have htable : ∀ entry ∈ t95, curve entry.1 = entry.2 := by decide +kernel
    intro n critical hmem
    exact_mod_cast htable _ hmem
  · intro n hn
    have habove : 1.960 < curve n := by
      have hlimit : curve (n + 120) < curve n := hbelow n (n + 120) hn (by omega)
      rw [curve_of_lt (by omega)] at hlimit
      have hpos : (0 : ℚ) < ((n + 120 : ℤ) : ℚ) := by exact_mod_cast (by omega : 0 < n + 120)
      have hrest := div_pos (by norm_num : (0 : ℚ) < 2.4) hpos
      linarith
    have hcast : ((1.960 : ℚ) : ℝ) < (curve n : ℝ) := by exact_mod_cast habove
    norm_num at hcast ⊢
    exact hcast

/-- Four samples with a standard deviation and a number of samples that are squares. -/
theorem interval_of_four_samples :
    CriticalCurve (fun n => (curve n : ℝ)) ∧
      CoversInterval (fun n => (curve n : ℝ)) Arithmetic.ofSquares [0, 0, 0, 4] := by
  refine ⟨curve_criticalCurve, ?_⟩
  have hwide := interval_wide_enough_iff _ curve_criticalCurve 3 (by decide)
  exact (hwide.2 Arithmetic.ofSquares [0, 0, 0, 4] rfl).mpr (.inl ⟨3.182, by simp [t95]⟩)

/-- With 22 samples there are 21 degrees of freedom, and the answer is the one for 25. -/
theorem interval_of_22_samples_too_narrow :
    ¬∀ t : ℤ → ℝ, CriticalCurve t → ∀ n : ℤ, 1 ≤ n →
      ∃ critical : ℚ, tCritical95 n = some critical ∧ t n ≤ critical := by
  intro hclaim
  obtain ⟨critical, hanswer, hle⟩ := hclaim _ curve_criticalCurve 21 (by decide)
  have hcritical : tCritical95 21 = some 2.060 := by decide +kernel
  have hlt : (2.060 : ℚ) < curve 21 := by decide +kernel
  obtain rfl := Option.some.inj (hcritical.symm.trans hanswer)
  have hle' : curve 21 ≤ 2.060 := by exact_mod_cast hle
  exact absurd hle' (not_le.mpr hlt)

end PqtlsLab.Analysis
