import PqtlsLab.Foundation.Binary64
import PqtlsLab.Foundation.Python

/-!
# Sums and deviations of floats

`math.fsum` keeps partial sums that do not overlap, from the smallest to the largest, so that
nothing of a sum is lost. It raises an exception if the largest of them overflows, although the
whole sum may be small. `statistics.stdev` computes with fractions and rounds its result only, and
it has no fractions for numbers that are not finite.
-/

namespace PqtlsLab

/-- The mean of some rational numbers. -/
def exactMean (data : List ℚ) : ℚ := data.sum / data.length

/-- The sum of the squared distances from the mean. -/
def squaredDeviations (data : List ℚ) : ℚ := (data.map fun x => (x - exactMean data) ^ 2).sum

/-- The sample variance of some rational numbers. -/
def variance (data : List ℚ) : ℚ := squaredDeviations data / (data.length - 1)

namespace Binary64

/-- The sum of two numbers, and what rounding has left out of it. -/
def twoSum (x y : Binary64) : Binary64 × Binary64 :=
  let larger := if x.abs.lt y.abs then y else x
  let smaller := if x.abs.lt y.abs then x else y
  let hi := larger.add smaller
  (hi, smaller.sub (hi.sub larger))

/-- One number added to the partial sums: the new ones but for the largest, and the largest. -/
def addPartial (x : Binary64) : List Binary64 → List Binary64 × Binary64
  | [] => ([], x)
  | y :: ys =>
    let (hi, lo) := twoSum x y
    let (rest, top) := addPartial hi ys
    (if lo = .finite 0 then rest else lo :: rest, top)

/-- The partial sums, which leave out a zero. -/
def withTop (rest : List Binary64) (top : Binary64) : List Binary64 :=
  if top = .finite 0 then rest else rest ++ [top]

/-- The variables of `math.fsum`. -/
structure FloatSum where
  partials : List Binary64
  /-- The sum of the infinite numbers. -/
  infSum : Binary64
  /-- The sum of the numbers that are not finite. -/
  specialSum : Binary64

/-- The body of the loop of `math.fsum`. -/
def FloatSum.add (s : FloatSum) (x : Binary64) : Except PythonError FloatSum :=
  let (rest, top) := addPartial x s.partials
  if top.isFinite then .ok { s with partials := withTop rest top }
  else if x.isFinite then .error .overflowError
  else .ok {
    partials := []
    infSum := if x = .nan then s.infSum else s.infSum.add x
    specialSum := s.specialSum.add x }

/-- The sum of the partial sums, from the largest, as far as it is exact. If what is left out at the
end is half a unit, the next partial sum decides on the side to round to. -/
def collapse (hi : Binary64) : List Binary64 → Binary64
  | [] => hi
  | y :: ys =>
    let sum := hi.add y
    let lo := y.sub (sum.sub hi)
    if lo = .finite 0 then collapse sum ys
    else
      match ys with
      | [] => sum
      | next :: _ =>
        let zero := Binary64.finite 0
        if lo.lt zero && next.lt zero || zero.lt lo && zero.lt next then
          let twice := lo.mul (.finite 2)
          let moved := sum.add twice
          if twice = moved.sub sum then moved else sum
        else sum

/-- `math.fsum`. -/
def fsum (data : List Binary64) : Except PythonError Binary64 := do
  let s ← data.foldlM FloatSum.add ⟨[], .finite 0, .finite 0⟩
  if s.specialSum = .finite 0 then
    match s.partials.reverse with
    | [] => return .finite 0
    | hi :: rest => return collapse hi rest
  else if s.infSum = .nan then .error .valueError
  else return s.specialSum

/-- The rational number that a finite number stands for. -/
def toRat? : Binary64 → Option ℚ
  | .finite x => some x
  | _ => none

/-- `statistics.stdev`: a number that is not finite has no numerator, and a root that does not fit
cannot be converted. -/
def stdev (data : List Binary64) : Except PythonError Binary64 :=
  if data.length < 2 then .error .statisticsError
  else
    match data.mapM toRat? with
    | none => .error .attributeError
    | some values =>
      match nearestSqrt (variance values) with
      | .finite root => .ok (.finite root)
      | _ => .error .overflowError

/-- The partial sums after some finite numbers have been added. -/
def addAll (partials data : List Binary64) : List Binary64 :=
  data.foldl
    (fun partials x => withTop (addPartial x partials).1 (addPartial x partials).2) partials

/-- No running sum overflows while the numbers are added in their order. -/
def RunningSumsFinite (partials data : List Binary64) : Prop :=
  ∀ before x after, data = before ++ x :: after →
    (addPartial x (addAll partials before)).2.isFinite = true

/-- Nothing overflows where nothing is added. -/
theorem runningSumsFinite_nil (partials : List Binary64) : RunningSumsFinite partials [] := by
  intro before x after h
  simp at h

/-- No running sum overflows if the first does not, and none of the others. -/
theorem runningSumsFinite_cons_iff {partials data : List Binary64} {x : Binary64} :
    RunningSumsFinite partials (x :: data) ↔
      (addPartial x partials).2.isFinite = true ∧ RunningSumsFinite (addAll partials [x]) data := by
  constructor
  · intro h
    refine ⟨h [] x data rfl, fun before y after hdata => ?_⟩
    exact h (x :: before) y after (by rw [hdata, List.cons_append])
  · rintro ⟨hfirst, hothers⟩ before y after hdata
    cases before with
    | nil =>
      cases hdata
      exact hfirst
    | cons z before =>
      cases hdata
      exact hothers before y after rfl

/-- The loop of `math.fsum` ends, with the partial sums, exactly if no running sum overflows. -/
theorem foldlM_add {data : List Binary64} (hfinite : ∀ x ∈ data, x.isFinite = true) (s : FloatSum) :
    (RunningSumsFinite s.partials data ∧
        data.foldlM FloatSum.add s = .ok { s with partials := addAll s.partials data }) ∨
      ¬RunningSumsFinite s.partials data ∧ data.foldlM FloatSum.add s = .error .overflowError := by
  induction data generalizing s with
  | nil => exact .inl ⟨runningSumsFinite_nil _, rfl⟩
  | cons x data ih =>
    obtain ⟨hx, hdata⟩ := List.forall_mem_cons.mp hfinite
    rw [runningSumsFinite_cons_iff, List.foldlM_cons]
    cases htop : (addPartial x s.partials).2.isFinite with
    | true =>
      have hadd : s.add x = .ok { s with partials := addAll s.partials [x] } := by
        simp only [FloatSum.add, htop, if_true]
        rfl
      rw [hadd]
      simp only [true_and]
      exact ih hdata { s with partials := addAll s.partials [x] }
    | false =>
      have hadd : s.add x = .error .overflowError := by
        simp [FloatSum.add, htop, hx]
      rw [hadd]
      exact .inr ⟨by simp, rfl⟩

/-- Finite numbers can be added exactly if no running sum overflows. -/
theorem fsum_eq_ok_iff {data : List Binary64} (hfinite : ∀ x ∈ data, x.isFinite = true) :
    (∃ total, fsum data = .ok total) ↔ RunningSumsFinite [] data := by
  unfold fsum
  rcases foldlM_add hfinite ⟨[], .finite 0, .finite 0⟩ with ⟨hrunning, hloop⟩ | ⟨hrunning, hloop⟩
  · refine iff_of_true ?_ hrunning
    rw [hloop]
    cases hsums : (addAll [] data).reverse with
    | nil => exact ⟨_, by simp [bind, Except.bind, hsums]; rfl⟩
    | cons hi rest => exact ⟨_, by simp [bind, Except.bind, hsums]; rfl⟩
  · refine iff_of_false ?_ hrunning
    rw [hloop]
    rintro ⟨total, htotal⟩
    cases htotal

/-- A single number can be added, whatever it is. -/
theorem fsum_singleton (x : Binary64) : ∃ total, fsum [x] = .ok total := by
  cases x with
  | finite x =>
    refine (fsum_eq_ok_iff (by simp [isFinite])).mpr ?_
    rw [runningSumsFinite_cons_iff]
    exact ⟨rfl, runningSumsFinite_nil _⟩
  | nan => exact ⟨.nan, by decide⟩
  | infinite negative => exact ⟨.infinite negative, by cases negative <;> decide⟩

/-- Numbers stand for rational numbers exactly if they are the finite numbers of these. -/
theorem mapM_toRat?_eq_some_iff {data : List Binary64} {values : List ℚ} :
    data.mapM toRat? = some values ↔ data = values.map finite := by
  constructor
  · intro h
    induction data generalizing values with
    | nil =>
      cases h
      rfl
    | cons x data ih =>
      rw [List.mapM_cons] at h
      obtain ⟨q, hq, h⟩ := Option.bind_eq_some_iff.mp h
      obtain ⟨rest, hrest, h⟩ := Option.bind_eq_some_iff.mp h
      cases h
      cases x with
      | finite x =>
        cases hq
        rw [List.map_cons, ih hrest]
      | nan => cases hq
      | infinite negative => cases hq
  · rintro rfl
    induction values with
    | nil => rfl
    | cons x values ih =>
      rw [List.map_cons, List.mapM_cons, ih]
      rfl

/-- Of at least two numbers there is a standard deviation exactly if they are finite and their
variance is not too large. -/
theorem stdev_eq_ok_iff {data : List Binary64} (hcount : 2 ≤ data.length) :
    (∃ deviation, stdev data = .ok deviation) ↔
      ∃ values, data = values.map .finite ∧ variance values < limit ^ 2 := by
  simp only [stdev, if_neg (not_lt.mpr hcount), ← mapM_toRat?_eq_some_iff]
  cases data.mapM toRat? with
  | none => simp
  | some values =>
    simp only [Option.some.injEq, exists_eq_left']
    rcases lt_or_ge (variance values) (limit ^ 2) with hsmall | hlarge
    · obtain ⟨root, hroot⟩ := nearestSqrt_of_lt hsmall
      simp [hroot, hsmall]
    · simp [nearestSqrt_of_le hlarge, not_lt.mpr hlarge]

end Binary64

end PqtlsLab
