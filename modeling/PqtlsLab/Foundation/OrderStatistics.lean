import Mathlib.Algebra.Order.Floor.Ring
import Mathlib.Data.List.Forall2
import Mathlib.Data.List.Sort
import Mathlib.Tactic.Linarith

/-!
# Order statistics

Sorting is monotone: if every entry of a list grows, then so does the entry at every place of the
sorted list. Between two places of an increasing sequence, a value is read off the line between its
neighbours. The values that are read in this way increase with the place and with the sequence.
-/

namespace PqtlsLab

section Sorting

variable {α : Type*} [LinearOrder α]

/-- A list in increasing order. -/
def sorted (l : List α) : List α := l.insertionSort (· ≤ ·)

/-- The sorted list is in increasing order. -/
theorem sorted_pairwise (l : List α) : (sorted l).Pairwise (· ≤ ·) :=
  List.pairwise_insertionSort (· ≤ ·) l

/-- Sorting keeps the number of entries. -/
@[simp] theorem length_sorted (l : List α) : (sorted l).length = l.length :=
  List.length_insertionSort (· ≤ ·) l

/-- Sorting keeps the entries. -/
@[simp] theorem mem_sorted {l : List α} {a : α} : a ∈ sorted l ↔ a ∈ l :=
  List.mem_insertionSort (· ≤ ·)

/-- Lists with the same entries are sorted to the same list. -/
theorem sorted_eq_of_perm {l m : List α} (h : l.Perm m) : sorted l = sorted m := by
  have hperm : (sorted l).Perm (sorted m) :=
    (List.perm_insertionSort (· ≤ ·) l).trans (h.trans (List.perm_insertionSort (· ≤ ·) m).symm)
  exact hperm.eq_of_pairwise (fun _ _ _ _ hab hba => le_antisymm hab hba) (sorted_pairwise l)
    (sorted_pairwise m)

/-- A sorted list stays as it is. -/
theorem sorted_of_pairwise {l : List α} (h : l.Pairwise (· ≤ ·)) : sorted l = l :=
  h.insertionSort_eq

/-- An entry below all others is inserted in front of them. -/
theorem orderedInsert_of_forall_le {a : α} {l : List α} (h : ∀ b ∈ l, a ≤ b) :
    l.orderedInsert (· ≤ ·) a = a :: l := by
  cases l with
  | nil => rfl
  | cons b l => exact List.orderedInsert_cons_of_le _ l (h b (by simp))

/-- Inserting a larger entry into a larger list gives a larger list. -/
theorem forall₂_orderedInsert {a b : α} {l m : List α} (hab : a ≤ b)
    (h : List.Forall₂ (· ≤ ·) l m) (hl : l.Pairwise (· ≤ ·)) (hm : m.Pairwise (· ≤ ·)) :
    List.Forall₂ (· ≤ ·) (l.orderedInsert (· ≤ ·) a) (m.orderedInsert (· ≤ ·) b) := by
  induction h generalizing a b with
  | nil => exact .cons hab .nil
  | @cons c d l m hcd hlm ih =>
    obtain ⟨hc, hl⟩ := List.pairwise_cons.mp hl
    obtain ⟨hd, hm⟩ := List.pairwise_cons.mp hm
    rw [List.orderedInsert_cons, List.orderedInsert_cons]
    by_cases hac : a ≤ c
    · rw [if_pos hac]
      by_cases hbd : b ≤ d
      · rw [if_pos hbd]
        exact .cons hab (.cons hcd hlm)
      · rw [if_neg hbd]
        have hdb : d ≤ b := le_of_not_ge hbd
        have hrest := ih (hcd.trans hdb) hl hm
        rw [orderedInsert_of_forall_le hc] at hrest
        exact .cons (hac.trans hcd) hrest
    · rw [if_neg hac]
      have hca : c ≤ a := le_of_not_ge hac
      by_cases hbd : b ≤ d
      · rw [if_pos hbd]
        have hrest := ih (hab.trans hbd) hl hm
        rw [orderedInsert_of_forall_le hd] at hrest
        exact .cons (hca.trans hab) hrest
      · rw [if_neg hbd]
        exact .cons hcd (ih hab hl hm)

/-- If every entry of a list grows, then so does every entry of the sorted list. -/
theorem forall₂_sorted {l m : List α} (h : List.Forall₂ (· ≤ ·) l m) :
    List.Forall₂ (· ≤ ·) (sorted l) (sorted m) := by
  induction h with
  | nil => exact .nil
  | cons hab _ ih => exact forall₂_orderedInsert hab ih (sorted_pairwise _) (sorted_pairwise _)

end Sorting

section Interpolation

variable {K : Type*} [Field K] [LinearOrder K] [IsStrictOrderedRing K] [FloorSemiring K]

/-- The value of a sequence at a place that may lie between two of its entries. -/
def interpolate (a : ℕ → K) (x : K) : K :=
  a ⌊x⌋₊ * (1 - (x - ⌊x⌋₊)) + a ⌈x⌉₊ * (x - ⌊x⌋₊)

variable {a b : ℕ → K} {m : ℕ} {x y : K}

/-- At the place of an entry the value is the entry. -/
@[simp] theorem interpolate_natCast (a : ℕ → K) (n : ℕ) : interpolate a n = a n := by
  simp [interpolate]

/-- The distance of a place from the entry before it lies between zero and one. -/
theorem weight_bounds (hx : 0 ≤ x) : 0 ≤ x - ⌊x⌋₊ ∧ 0 ≤ 1 - (x - ⌊x⌋₊) := by
  have hfloor := Nat.floor_le hx
  have hnext := (Nat.lt_floor_add_one x).le
  exact ⟨sub_nonneg.mpr hfloor, by linarith⟩

/-- A value lies between the entries before and after its place. -/
theorem interpolate_bounds (ha : MonotoneOn a (Set.Iic m)) (hx : 0 ≤ x) (hm : ⌈x⌉₊ ≤ m) :
    a ⌊x⌋₊ ≤ interpolate a x ∧ interpolate a x ≤ a ⌈x⌉₊ := by
  have hfloor : ⌊x⌋₊ ≤ ⌈x⌉₊ := Nat.floor_le_ceil x
  have hstep : a ⌊x⌋₊ ≤ a ⌈x⌉₊ := ha (hfloor.trans hm) hm hfloor
  obtain ⟨hw, hw'⟩ := weight_bounds hx
  have hlow := mul_le_mul_of_nonneg_right hstep hw
  have hhigh := mul_le_mul_of_nonneg_right hstep hw'
  unfold interpolate
  constructor <;> linarith

/-- The values of an increasing sequence increase with the place. -/
theorem interpolate_mono (ha : MonotoneOn a (Set.Iic m)) (hx : 0 ≤ x) (hxy : x ≤ y)
    (hm : ⌈y⌉₊ ≤ m) : interpolate a x ≤ interpolate a y := by
  have hy : 0 ≤ y := hx.trans hxy
  have hceil : ⌈x⌉₊ ≤ ⌈y⌉₊ := Nat.ceil_mono hxy
  have hfloor : ⌊x⌋₊ ≤ ⌊y⌋₊ := Nat.floor_mono hxy
  have hboundsX := interpolate_bounds ha hx (hceil.trans hm)
  have hboundsY := interpolate_bounds ha hy hm
  rcases hfloor.lt_or_eq with hlt | heq
  · -- An entry lies between the two places.
    have hbetween : ⌈x⌉₊ ≤ ⌊y⌋₊ := (Nat.ceil_le_floor_add_one x).trans hlt
    have hfloorY : ⌊y⌋₊ ≤ m := (Nat.floor_le_ceil y).trans hm
    calc interpolate a x ≤ a ⌈x⌉₊ := hboundsX.2
      _ ≤ a ⌊y⌋₊ := ha (hbetween.trans hfloorY) hfloorY hbetween
      _ ≤ interpolate a y := hboundsY.1
  · -- Both places have the same entry before them, and unless the first of the two is the place
    -- of that entry, also the same entry after them.
    rcases hceil.lt_or_eq with hlt | hsame
    · have hceilX : ⌈x⌉₊ = ⌊x⌋₊ := by
        have h₁ := Nat.floor_le_ceil x
        have h₂ := Nat.ceil_le_floor_add_one y
        omega
      calc interpolate a x ≤ a ⌈x⌉₊ := hboundsX.2
        _ = a ⌊y⌋₊ := by rw [hceilX, heq]
        _ ≤ interpolate a y := hboundsY.1
    · have hstep : a ⌊y⌋₊ ≤ a ⌈y⌉₊ :=
        ha ((Nat.floor_le_ceil y).trans hm) hm (Nat.floor_le_ceil y)
      have hgrow := mul_le_mul_of_nonneg_right hstep (sub_nonneg.mpr hxy)
      unfold interpolate
      rw [heq, hsame]
      linarith

/-- The values of a larger sequence are larger. -/
theorem interpolate_le_interpolate (hab : ∀ i ≤ m, a i ≤ b i) (hx : 0 ≤ x) (hm : ⌈x⌉₊ ≤ m) :
    interpolate a x ≤ interpolate b x := by
  obtain ⟨hw, hw'⟩ := weight_bounds hx
  have hlow := mul_le_mul_of_nonneg_right (hab _ ((Nat.floor_le_ceil x).trans hm)) hw'
  have hhigh := mul_le_mul_of_nonneg_right (hab _ hm) hw
  exact add_le_add hlow hhigh

end Interpolation

end PqtlsLab
