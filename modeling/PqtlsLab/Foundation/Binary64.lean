import Mathlib.Data.Int.Log
import Mathlib.Data.List.Sort
import Mathlib.Data.Nat.Sqrt
import Mathlib.Data.Rat.Floor
import Mathlib.Tactic.Linarith
import Mathlib.Tactic.NormNum

/-!
# Binary64 numbers

A binary64 number is finite, infinite or not a number. A finite number is represented by the
rational number that it stands for, so the two zeros are the same here. The result of an operation
is the nearest number, and of two that are equally near the one whose last bit is zero.
-/

namespace PqtlsLab

/-- A binary64 number. -/
inductive Binary64 where
  | nan
  | infinite (negative : Bool)
  | finite (value : ℚ)
  deriving DecidableEq

/-- The integer that is nearest to a number, or the even one of two. -/
def roundHalfEven (x : ℚ) : ℤ :=
  if x - ⌊x⌋ < 1 / 2 then ⌊x⌋
  else if 1 / 2 < x - ⌊x⌋ then ⌊x⌋ + 1
  else if ⌊x⌋ % 2 = 0 then ⌊x⌋ else ⌊x⌋ + 1

/-- Rounding to an integer goes up by a half at most. -/
theorem roundHalfEven_le (x : ℚ) : (roundHalfEven x : ℚ) ≤ x + 1 / 2 := by
  have hfloor := Int.floor_le x
  unfold roundHalfEven
  split
  · linarith
  · rename_i hhalf
    have hnext : ((⌊x⌋ + 1 : ℤ) : ℚ) ≤ x + 1 / 2 := by
      push_cast
      linarith
    split
    · exact hnext
    · split
      · linarith
      · exact hnext

/-- Rounding to an integer keeps the sign. -/
theorem roundHalfEven_nonneg {x : ℚ} (hx : 0 ≤ x) : 0 ≤ roundHalfEven x := by
  have hfloor : 0 ≤ ⌊x⌋ := Int.floor_nonneg.mpr hx
  unfold roundHalfEven
  split
  · exact hfloor
  · split
    · omega
    · split <;> omega

namespace Binary64

/-- The number that 64 bits stand for. -/
def ofBits (bits : UInt64) : Binary64 :=
  let fraction := bits &&& 0xFFFFFFFFFFFFF
  let exponent := (bits >>> 52) &&& 0x7FF
  let negative := (bits >>> 63) == 1
  let magnitude : ℚ :=
    if exponent = 0 then fraction.toNat / 2 ^ 1074
    else (0x10000000000000 + fraction.toNat) * 2 ^ exponent.toNat / 2 ^ 1075
  if exponent = 0x7FF then if fraction = 0 then .infinite negative else .nan
  else .finite (if negative then -magnitude else magnitude)

/-- Unless all bits of the exponent are set, the number is finite. -/
theorem ofBits_of_exponent {bits : UInt64} (h : (bits >>> 52) &&& 0x7FF ≠ 0x7FF) :
    ∃ x, ofBits bits = .finite x := by
  simp only [ofBits, if_neg h]
  exact ⟨_, rfl⟩

/-- The number is neither infinite nor NaN. -/
def isFinite : Binary64 → Bool
  | .finite _ => true
  | _ => false

/-- From here on numbers are rounded to infinity. -/
def limit : ℚ := 2 ^ 1024 - 2 ^ 970

/-- One is not too large. -/
theorem one_lt_limit : 1 < limit := by
  unfold limit
  decide +kernel

/-- The distance of the finite numbers around a number. -/
def quantum (x : ℚ) : ℚ := 2 ^ max (Int.log 2 |x| - 52) (-1074)

/-- The nearest binary64 number. -/
def nearest (x : ℚ) : Binary64 :=
  if |x| < limit then .finite (roundHalfEven (x / quantum x) * quantum x) else .infinite (x < 0)

/-- The binary64 number that is nearest to the square root of a number. -/
def nearestSqrt (x : ℚ) : Binary64 :=
  if limit ^ 2 ≤ x then .infinite false
  else
    let unit : ℚ := 2 ^ max (Int.log 4 x - 52) (-1074)
    let square := x / unit ^ 2
    let root := Nat.sqrt ⌊square⌋₊
    let middle : ℚ := (root + 1 / 2) ^ 2
    let rounded := if square < middle ∨ square = middle ∧ root % 2 = 0 then root else root + 1
    .finite (rounded * unit)

/-- The root of a number that is not too large is finite. -/
theorem nearestSqrt_of_lt {x : ℚ} (hx : x < limit ^ 2) : ∃ root, nearestSqrt x = .finite root := by
  rw [nearestSqrt, if_neg (not_le.mpr hx)]
  exact ⟨_, rfl⟩

/-- The root of any other number is infinite. -/
theorem nearestSqrt_of_le {x : ℚ} (hx : limit ^ 2 ≤ x) : nearestSqrt x = .infinite false :=
  if_pos hx

/-- `-x`. -/
def neg : Binary64 → Binary64
  | .nan => .nan
  | .infinite negative => .infinite !negative
  | .finite x => .finite (-x)

/-- `abs(x)`. -/
def abs : Binary64 → Binary64
  | .nan => .nan
  | .infinite _ => .infinite false
  | .finite x => .finite |x|

/-- `x < y`, which is false if one of them is NaN. -/
def lt : Binary64 → Binary64 → Bool
  | .finite x, .finite y => x < y
  | .finite _, .infinite negative => !negative
  | .infinite negative, .finite _ => negative
  | .infinite negative, .infinite negative' => negative && !negative'
  | _, _ => false

/-- `x + y`. -/
def add : Binary64 → Binary64 → Binary64
  | .finite x, .finite y => nearest (x + y)
  | .finite _, .infinite negative => .infinite negative
  | .infinite negative, .finite _ => .infinite negative
  | .infinite negative, .infinite negative' =>
    if negative = negative' then .infinite negative else .nan
  | _, _ => .nan

/-- `x - y`. -/
def sub (x y : Binary64) : Binary64 := x.add y.neg

/-- `x * y`. -/
def mul : Binary64 → Binary64 → Binary64
  | .finite x, .finite y => nearest (x * y)
  | .finite x, .infinite negative => if x = 0 then .nan else .infinite (negative != decide (x < 0))
  | .infinite negative, .finite y => if y = 0 then .nan else .infinite (negative != decide (y < 0))
  | .infinite negative, .infinite negative' => .infinite (negative != negative')
  | _, _ => .nan

/-- `x / y`, for a `y` other than zero. -/
def div : Binary64 → Binary64 → Binary64
  | .finite x, .finite y => nearest (x / y)
  | .finite _, .infinite _ => .finite 0
  | .infinite negative, .finite y => .infinite (negative != decide (y < 0))
  | _, _ => .nan

/-- `math.sqrt(x)`, for an `x` that is not negative. -/
def sqrt : Binary64 → Binary64
  | .finite x => nearestSqrt x
  | .infinite false => .infinite false
  | _ => .nan

/-- `math.floor(x)`, for a finite `x`. -/
def floor : Binary64 → ℤ
  | .finite x => ⌊x⌋
  | _ => 0

/-- `math.ceil(x)`, for a finite `x`. -/
def ceil : Binary64 → ℤ
  | .finite x => ⌈x⌉
  | _ => 0

/-- `sorted`, which compares with `<` only. -/
def sorted (values : List Binary64) : List Binary64 :=
  values.insertionSort fun x y => y.lt x = false

/-- Sorting keeps the values. -/
theorem sorted_perm (values : List Binary64) : (sorted values).Perm values :=
  List.perm_insertionSort _ _

/-- A number that is not too large is rounded to a finite one. -/
theorem nearest_of_lt {x : ℚ} (hx : |x| < limit) : ∃ v, nearest x = .finite v := by
  rw [nearest, if_pos hx]
  exact ⟨_, rfl⟩

/-- Any other number is rounded to an infinity. -/
theorem nearest_of_le {x : ℚ} (hx : limit ≤ |x|) : nearest x = .infinite (x < 0) :=
  if_neg (not_lt.mpr hx)

/-- Half the distance to the next number is small beside a number that is not small itself. -/
theorem quantum_le {x : ℚ} (hx : 0 ≤ x) : quantum x ≤ x / 1000 + 1 / 1000 := by
  unfold quantum
  rcases le_total (Int.log 2 |x| - 52) (-1074) with hsmall | hlarge
  · rw [max_eq_right hsmall]
    calc (2 : ℚ) ^ (-1074 : ℤ) ≤ 2 ^ (-10 : ℤ) := zpow_le_zpow_right₀ (by norm_num) (by norm_num)
      _ ≤ 1 / 1000 := by norm_num
      _ ≤ x / 1000 + 1 / 1000 := by linarith
  · rw [max_eq_left hlarge, zpow_sub₀ (by norm_num), abs_of_nonneg hx]
    rcases hx.eq_or_lt with rfl | hpos
    · norm_num
    · have hlog : (2 : ℚ) ^ Int.log 2 x ≤ x := by
        exact_mod_cast Int.zpow_log_le_self (by norm_num) hpos
      have hdivide : (2 : ℚ) ^ Int.log 2 x / 2 ^ (52 : ℤ) ≤ x / 1000 := by
        gcongr
        norm_num
      linarith

/-- A finite result of rounding is not far above the number. -/
theorem nearest_bounds {x v : ℚ} (hx : 0 ≤ x) (h : nearest x = .finite v) :
    0 ≤ v ∧ v ≤ x * (1001 / 1000) + 1 / 1000 := by
  unfold nearest at h
  split at h
  · have hpos : 0 < quantum x := zpow_pos (by norm_num) _
    have hv := Binary64.finite.inj h
    subst hv
    constructor
    · have hround : (0 : ℚ) ≤ roundHalfEven (x / quantum x) := by
        exact_mod_cast roundHalfEven_nonneg (div_nonneg hx hpos.le)
      exact mul_nonneg hround hpos.le
    · have hround := mul_le_mul_of_nonneg_right (roundHalfEven_le (x / quantum x)) hpos.le
      rw [add_mul, div_mul_cancel₀ x hpos.ne'] at hround
      have hquantum := quantum_le hx
      linarith
  · cases h

end Binary64

end PqtlsLab
