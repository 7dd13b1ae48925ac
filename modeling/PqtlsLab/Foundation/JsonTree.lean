import PqtlsLab.Foundation.Json
import Mathlib.Order.MinMax

/-!
# JSON values as trees

The nodes of a value by their distance from the root, and the greatest number of objects and
arrays that lie within each other. A value nests more than `n` containers exactly when one of its
nodes at distance `n` is a container.
-/

namespace PqtlsLab.Json

/-- The elements of an array, the values of an object. -/
def children : Json → List Json
  | .array xs => xs
  | .object ms => ms.map Prod.snd
  | _ => []

/-- Objects and arrays. -/
def isContainer : Json → Bool
  | .array _ => true
  | .object _ => true
  | _ => false

/-- The nodes that are a given number of edges below the root. -/
def nodesAt : ℕ → Json → List Json
  | 0, j => [j]
  | n + 1, j => j.children.flatMap (nodesAt n)

mutual

/-- The greatest number of nested objects and arrays, the value itself included. -/
def nesting : Json → ℕ
  | .array xs => nestingList xs + 1
  | .object ms => nestingMembers ms + 1
  | _ => 0

/-- The greatest nesting among the elements of an array. -/
def nestingList : List Json → ℕ
  | [] => 0
  | x :: xs => max x.nesting (nestingList xs)

/-- The greatest nesting among the members of an object. -/
def nestingMembers : List (Bytes × Json) → ℕ
  | [] => 0
  | (_, v) :: ms => max v.nesting (nestingMembers ms)

end

/-- The elements of an array nest as deeply as one of them does. -/
theorem lt_nestingList_iff (n : ℕ) (xs : List Json) :
    n < nestingList xs ↔ ∃ x ∈ xs, n < x.nesting := by
  induction xs with
  | nil => simp [nestingList]
  | cons x xs ih => rw [nestingList, lt_max_iff, ih, List.exists_mem_cons_iff]

/-- The members of an object nest as deeply as one of them does. -/
theorem lt_nestingMembers_iff (n : ℕ) (ms : List (Bytes × Json)) :
    n < nestingMembers ms ↔ ∃ x ∈ ms.map Prod.snd, n < x.nesting := by
  induction ms with
  | nil => simp [nestingMembers]
  | cons m ms ih =>
    rw [nestingMembers, lt_max_iff, ih, List.map_cons, List.exists_mem_cons_iff]

/-- A value has a positive nesting exactly when it is a container. -/
theorem nesting_pos_iff (j : Json) : 0 < j.nesting ↔ j.isContainer = true := by
  cases j <;> simp [nesting, isContainer]

/-- A value nests one level more than its children. -/
theorem succ_lt_nesting_iff (n : ℕ) (j : Json) :
    n + 1 < j.nesting ↔ ∃ x ∈ j.children, n < x.nesting := by
  cases j with
  | array xs => rw [nesting, children, Nat.add_lt_add_iff_right, lt_nestingList_iff]
  | object ms => rw [nesting, children, Nat.add_lt_add_iff_right, lt_nestingMembers_iff]
  | _ => simp [nesting, children]

/-- More than `n` containers are nested exactly when there is a container at distance `n`. -/
theorem lt_nesting_iff (n : ℕ) (j : Json) :
    n < j.nesting ↔ ∃ x ∈ nodesAt n j, x.isContainer = true := by
  induction n generalizing j with
  | zero => simp [nodesAt, nesting_pos_iff]
  | succ n ih =>
    rw [succ_lt_nesting_iff]
    simp only [ih, nodesAt, List.mem_flatMap]
    constructor
    · rintro ⟨child, hchild, x, hx, hcontainer⟩
      exact ⟨x, ⟨child, hchild, hx⟩, hcontainer⟩
    · rintro ⟨x, ⟨child, hchild, hx⟩, hcontainer⟩
      exact ⟨child, hchild, x, hx, hcontainer⟩

/-- The nodes one level further down are the children of the nodes. -/
theorem nodesAt_succ (n : ℕ) (j : Json) : nodesAt (n + 1) j = (nodesAt n j).flatMap children := by
  induction n generalizing j with
  | zero => simp [nodesAt]
  | succ n ih =>
    rw [nodesAt, nodesAt, List.flatMap_assoc]
    congr 1
    funext child
    exact ih child

/-- Above every node there are nodes at all smaller distances. -/
theorem nodesAt_ne_nil_of_le {m n : ℕ} (hmn : m ≤ n) {j : Json} (h : nodesAt n j ≠ []) :
    nodesAt m j ≠ [] := by
  induction n, hmn using Nat.le_induction with
  | base => exact h
  | succ n _ ih =>
    apply ih
    intro hnil
    rw [nodesAt_succ, hnil] at h
    exact h rfl

/-- Only a container has children. -/
theorem isContainer_of_children {j : Json} (h : j.children ≠ []) : j.isContainer = true := by
  cases j with
  | array xs => rfl
  | object ms => rfl
  | _ => exact absurd rfl h

/-- There are nodes one level further down exactly when some node has children. -/
theorem nodesAt_succ_ne_nil_iff (n : ℕ) (j : Json) :
    nodesAt (n + 1) j ≠ [] ↔ ∃ x ∈ nodesAt n j, x.children ≠ [] := by
  rw [nodesAt_succ]
  simp

/-- A member of an object is one of its children. -/
theorem mem_children_of_get? {j v : Json} {key : Bytes} (h : j.get? key = some v) :
    v ∈ j.children := by
  cases j with
  | object ms =>
    simp only [get?] at h
    obtain ⟨before, after, rfl, -⟩ := List.lookup_eq_some_iff.mp h
    simp [children]
  | _ => simp [get?] at h

mutual

/-- Every number is finite. -/
def numbersFinite : Json → Bool
  | .float bits => finiteBits bits
  | .array xs => numbersFiniteList xs
  | .object ms => numbersFiniteMembers ms
  | _ => true

/-- Every number in the elements of an array is finite. -/
def numbersFiniteList : List Json → Bool
  | [] => true
  | x :: xs => x.numbersFinite && numbersFiniteList xs

/-- Every number in the members of an object is finite. -/
def numbersFiniteMembers : List (Bytes × Json) → Bool
  | [] => true
  | (_, v) :: ms => v.numbersFinite && numbersFiniteMembers ms

end

/-- The members of an object have finite numbers exactly when each of them has. -/
theorem numbersFiniteMembers_iff (ms : List (Bytes × Json)) :
    numbersFiniteMembers ms = true ↔ ∀ x ∈ ms.map Prod.snd, x.numbersFinite = true := by
  induction ms with
  | nil => simp [numbersFiniteMembers]
  | cons m ms ih =>
    rw [numbersFiniteMembers, Bool.and_eq_true, ih, List.map_cons, List.forall_mem_cons]

/-- The numbers in a member of a value with finite numbers are finite. -/
theorem numbersFinite_of_get? {j v : Json} {key : Bytes} (h : j.numbersFinite = true)
    (hv : j.get? key = some v) : v.numbersFinite = true := by
  have hchild := mem_children_of_get? hv
  cases j with
  | object ms => exact (numbersFiniteMembers_iff ms).mp h v hchild
  | _ => simp [get?] at hv

end PqtlsLab.Json
