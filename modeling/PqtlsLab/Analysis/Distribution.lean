import PqtlsLab.Foundation.FloatSum
import PqtlsLab.Foundation.OrderStatistics
import Mathlib.Algebra.BigOperators.Group.List.Lemmas

/-!
# Distributions of measured times

The statistics that `analyze-results.py` computes from the times of one group of records: the mean,
the median, the standard deviation, percentiles and a confidence interval. They are computed with
the floats of Python, which round and which raise exceptions, or with exact rational numbers.
-/

namespace PqtlsLab.Analysis

/-- The numbers that the statistics are computed with. -/
structure Numbers (F : Type) where
  /-- The number that the bits of a binary64 number stand for. -/
  ofBits : UInt64 → Except PythonError F
  /-- `float(i)`. -/
  ofInt : ℤ → Except PythonError F
  /-- The number for a literal, for a length or for the quotient of two lengths. -/
  nearest : ℚ → F
  /-- `sorted`. -/
  sorted : List F → List F
  /-- `math.fsum`. -/
  fsum : List F → Except PythonError F
  /-- `statistics.stdev`. -/
  stdev : List F → Except PythonError F
  add : F → F → F
  sub : F → F → F
  mul : F → F → F
  div : F → F → F
  /-- `math.sqrt`. -/
  sqrt : F → F
  /-- `math.floor`. -/
  floor : F → ℤ
  /-- `math.ceil`. -/
  ceil : F → ℤ

/-- The floats of Python. -/
def floats : Numbers Binary64 where
  ofBits bits := .ok (.ofBits bits)
  ofInt i :=
    match Binary64.nearest i with
    | .finite x => .ok (.finite x)
    | _ => .error .overflowError
  nearest := Binary64.nearest
  sorted := Binary64.sorted
  fsum := Binary64.fsum
  stdev := Binary64.stdev
  add := Binary64.add
  sub := Binary64.sub
  mul := Binary64.mul
  div := Binary64.div
  sqrt := Binary64.sqrt
  floor := Binary64.floor
  ceil := Binary64.ceil

/-- What exact arithmetic takes from outside. -/
structure Arithmetic where
  /-- `math.sqrt`. -/
  sqrt : ℚ → ℚ
  sqrt_zero : sqrt 0 = 0
  sqrt_pos : ∀ x, 0 < x → 0 < sqrt x

/-- The standard deviation of at least two values. -/
def Arithmetic.stdev (arithmetic : Arithmetic) (data : List ℚ) : ℚ :=
  arithmetic.sqrt (variance data)

/-- Exact rational numbers, as those of `fractions`: there are none for infinities and NaN. -/
def Arithmetic.numbers (arithmetic : Arithmetic) : Numbers ℚ where
  ofBits bits :=
    match Binary64.ofBits bits with
    | .finite x => .ok x
    | .infinite _ => .error .overflowError
    | .nan => .error .valueError
  ofInt i := .ok i
  nearest := id
  sorted := PqtlsLab.sorted
  fsum data := .ok data.sum
  stdev data := .ok (arithmetic.stdev data)
  add := (· + ·)
  sub := (· - ·)
  mul := (· * ·)
  div := (· / ·)
  sqrt := arithmetic.sqrt
  floor := Int.floor
  ceil := Int.ceil

namespace Arithmetic

variable (arithmetic : Arithmetic)

@[simp] theorem numbers_nearest (x : ℚ) : arithmetic.numbers.nearest x = x := rfl

@[simp] theorem numbers_sorted (data : List ℚ) :
    arithmetic.numbers.sorted data = PqtlsLab.sorted data := rfl

@[simp] theorem numbers_fsum (data : List ℚ) : arithmetic.numbers.fsum data = .ok data.sum := rfl

@[simp] theorem numbers_stdev (data : List ℚ) :
    arithmetic.numbers.stdev data = .ok (arithmetic.stdev data) := rfl

@[simp] theorem numbers_add (x y : ℚ) : arithmetic.numbers.add x y = x + y := rfl

@[simp] theorem numbers_sub (x y : ℚ) : arithmetic.numbers.sub x y = x - y := rfl

@[simp] theorem numbers_mul (x y : ℚ) : arithmetic.numbers.mul x y = x * y := rfl

@[simp] theorem numbers_div (x y : ℚ) : arithmetic.numbers.div x y = x / y := rfl

@[simp] theorem numbers_sqrt (x : ℚ) : arithmetic.numbers.sqrt x = arithmetic.sqrt x := rfl

@[simp] theorem numbers_floor (x : ℚ) : arithmetic.numbers.floor x = ⌊x⌋ := rfl

@[simp] theorem numbers_ceil (x : ℚ) : arithmetic.numbers.ceil x = ⌈x⌉ := rfl

end Arithmetic

/-- Arithmetic with a square root that is right for the squares of rational numbers. -/
def Arithmetic.ofSquares : Arithmetic where
  sqrt x := if 0 < x then Nat.sqrt x.num.natAbs / Nat.sqrt x.den else 0
  sqrt_zero := by simp
  sqrt_pos x hx := by
    rw [if_pos hx]
    have hnum : 0 < x.num.natAbs := Int.natAbs_pos.mpr (Rat.num_pos.mpr hx).ne'
    have hden := x.den_pos
    have hnumSqrt : (0 : ℚ) < Nat.sqrt x.num.natAbs := by exact_mod_cast Nat.sqrt_pos.mpr hnum
    have hdenSqrt : (0 : ℚ) < Nat.sqrt x.den := by exact_mod_cast Nat.sqrt_pos.mpr hden
    exact div_pos hnumSqrt hdenSqrt

/-- `values[i]`: a negative index counts from the end. -/
def index {α : Type} (values : List α) (i : ℤ) : Except PythonError α :=
  let place := if i < 0 then i + values.length else i
  if place < 0 then .error .indexError
  else
    match values[place.toNat]? with
    | some a => .ok a
    | none => .error .indexError

/-- `_T95`. -/
def t95 : List (ℤ × ℚ) :=
  [(1, 12.706), (2, 4.303), (3, 3.182), (4, 2.776), (5, 2.571), (6, 2.447), (7, 2.365),
    (8, 2.306), (9, 2.262), (10, 2.228), (11, 2.201), (12, 2.179), (13, 2.160), (14, 2.145),
    (15, 2.131), (16, 2.120), (17, 2.110), (18, 2.101), (19, 2.093), (20, 2.086),
    (25, 2.060), (30, 2.042), (40, 2.021), (60, 2.000), (120, 1.980)]

/-- `t_critical_95`, with `none` for NaN. -/
def tCritical95 (degreesOfFreedom : ℤ) : Option ℚ :=
  if degreesOfFreedom < 1 then none
  else
    match t95.lookup degreesOfFreedom with
    | some critical => some critical
    | none =>
      match (sorted (t95.map Prod.fst)).find? fun threshold => degreesOfFreedom ≤ threshold with
      | some threshold => t95.lookup threshold
      | none => some 1.960

section Statistics

variable {F : Type} (numbers : Numbers F)

/-- `int(x)`, which rounds towards zero. -/
def truncate (x : F) : ℤ := if 0 ≤ numbers.floor x then numbers.floor x else numbers.ceil x

/-- `percentile`. -/
def percentile (sortedValues : List F) (fraction : ℚ) : Except PythonError (Option F) :=
  if sortedValues.isEmpty then .ok none
  else if sortedValues.length = 1 then do return some (← index sortedValues 0)
  else
    let position := numbers.mul (numbers.nearest fraction)
      (numbers.nearest (sortedValues.length - 1))
    let lower := numbers.floor position
    let upper := numbers.ceil position
    if lower = upper then do return some (← index sortedValues (truncate numbers position))
    else do
      let weight := numbers.sub position (numbers.nearest lower)
      let below ← index sortedValues lower
      let above ← index sortedValues upper
      return some (numbers.add (numbers.mul below (numbers.sub (numbers.nearest 1) weight))
        (numbers.mul above weight))

/-- `statistics.fmean`. -/
def fmean (data : List F) : Except PythonError F := do
  let total ← numbers.fsum data
  if data.isEmpty then .error .statisticsError
  else return numbers.div total (numbers.nearest data.length)

/-- `statistics.median`. -/
def median (values : List F) : Except PythonError F :=
  let data := numbers.sorted values
  let n := data.length
  if n = 0 then .error .statisticsError
  else if n % 2 = 1 then index data (n / 2 : ℕ)
  else do
    let below ← index data ((n / 2 : ℕ) - 1)
    let above ← index data (n / 2 : ℕ)
    return numbers.div (numbers.add below above) (numbers.nearest 2)

/-- `Distribution`. -/
structure Distribution (F : Type) where
  count : ℕ
  mean : Option F
  median : Option F
  minimum : Option F
  maximum : Option F
  stdev : Option F
  p50 : Option F
  p90 : Option F
  p95 : Option F
  p99 : Option F
  ci95Low : Option F
  ci95High : Option F
  deriving DecidableEq

/-- The half width of the confidence interval of some values with a standard deviation. -/
def margin (count : ℕ) (stdev : F) : Option F :=
  (tCritical95 (count - 1)).map fun critical =>
    numbers.div (numbers.mul (numbers.nearest critical) stdev)
      (numbers.sqrt (numbers.nearest count))

/-- `Distribution.of`, for values that are floats already. -/
def Distribution.of (values : List F) : Except PythonError (Distribution F) := do
  let data := numbers.sorted values
  let count := data.length
  if count = 0 then
    return ⟨0, none, none, none, none, none, none, none, none, none, none, none⟩
  let mean ← fmean numbers data
  let stdev ← if 2 ≤ count then some <$> numbers.stdev data else pure none
  let margin := stdev.bind (margin numbers count)
  return {
    count := count
    mean := some mean
    median := some (← Analysis.median numbers data)
    minimum := some (← index data 0)
    maximum := some (← index data (-1))
    stdev := stdev
    p50 := ← percentile numbers data (1 / 2)
    p90 := ← percentile numbers data (9 / 10)
    p95 := ← percentile numbers data (19 / 20)
    p99 := ← percentile numbers data (99 / 100)
    ci95Low := margin.map (numbers.sub mean)
    ci95High := margin.map (numbers.add mean) }

end Statistics

/-- An index within a list. -/
theorem index_natCast {α : Type} {values : List α} {i : ℕ} (hi : i < values.length) (a : α) :
    index values i = .ok (values.getD i a) := by
  have hplace : ¬(i : ℤ) < 0 := by omega
  simp [index, hplace, hi]

/-- The last entry of a list. -/
theorem index_neg_one {α : Type} {values : List α} (hne : values ≠ []) (a : α) :
    index values (-1) = .ok (values.getD (values.length - 1) a) := by
  have hlength := List.length_pos_iff.mpr hne
  have hplace : (-1 + (values.length : ℤ)) = ((values.length - 1 : ℕ) : ℤ) := by omega
  have hnext : values.length - 1 < values.length := by omega
  simp [index, hplace, hnext]

end PqtlsLab.Analysis
