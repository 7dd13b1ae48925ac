import PqtlsLab.Protocol.Nesting

/-!
# What `json_depth` returns

The function stops as soon as it knows that the limit is exceeded, at the node that is too deep and
in all loops above it. Within the limit no loop is left early, and then the result is the distance
of the deepest node; beyond it the result only says so. The recursion follows a path from the root
and ends at the first node beyond the limit.
-/

namespace PqtlsLab

open Json (nodesAt)

mutual

/-- `json_depth`, together with the number of calls below this one that were active at once. -/
def jsonDepthTraced : Json → ℕ → ℕ × ℕ
  | .array xs, current =>
    if current > kMaxJsonDepth then (current, 0) else jsonDepthTracedList xs current (current, 0)
  | .object ms, current =>
    if current > kMaxJsonDepth then (current, 0) else jsonDepthTracedMembers ms current (current, 0)
  | _, current => (current, 0)

/-- The loop of `json_depth` over the elements of an array. -/
def jsonDepthTracedList : List Json → ℕ → ℕ × ℕ → ℕ × ℕ
  | [], _, traced => traced
  | child :: rest, current, (deepest, calls) =>
    let traced := jsonDepthTraced child (current + 1)
    let deepest := max deepest traced.1
    let calls := max calls (traced.2 + 1)
    if deepest > kMaxJsonDepth then (deepest, calls)
    else jsonDepthTracedList rest current (deepest, calls)

/-- The loop of `json_depth` over the members of an object. -/
def jsonDepthTracedMembers : List (Bytes × Json) → ℕ → ℕ × ℕ → ℕ × ℕ
  | [], _, traced => traced
  | (_, child) :: rest, current, (deepest, calls) =>
    let traced := jsonDepthTraced child (current + 1)
    let deepest := max deepest traced.1
    let calls := max calls (traced.2 + 1)
    if deepest > kMaxJsonDepth then (deepest, calls)
    else jsonDepthTracedMembers rest current (deepest, calls)

end

/-- The loop over the traced members of an object is the one over their values. -/
theorem jsonDepthTracedMembers_eq (ms : List (Bytes × Json)) (current : ℕ) (traced : ℕ × ℕ) :
    jsonDepthTracedMembers ms current traced =
      jsonDepthTracedList (ms.map Prod.snd) current traced := by
  induction ms generalizing traced with
  | nil => rfl
  | cons m ms ih =>
    simp only [jsonDepthTracedMembers, List.map_cons, jsonDepthTracedList, ih]

/-- Within the limit the traced result comes from the loop over the children. -/
theorem jsonDepthTraced_eq (j : Json) {current : ℕ} (hcurrent : current ≤ kMaxJsonDepth) :
    jsonDepthTraced j current = jsonDepthTracedList j.children current (current, 0) := by
  cases j with
  | array xs => rw [jsonDepthTraced, if_neg (by omega), Json.children]
  | object ms => rw [jsonDepthTraced, if_neg (by omega), jsonDepthTracedMembers_eq, Json.children]
  | _ => rfl

/-- Beyond the limit nothing is called. -/
theorem jsonDepthTraced_of_lt (j : Json) {current : ℕ} (hcurrent : kMaxJsonDepth < current) :
    jsonDepthTraced j current = (current, 0) := by
  cases j <;> simp [jsonDepthTraced, hcurrent]

/-- If the calls for the children return what they should and go less deep than a bound, then the
loop returns what it should and stays within the bound. -/
theorem jsonDepthTracedList_spec {xs : List Json} {current bound deepest calls : ℕ}
    (hchild : ∀ x ∈ xs, (jsonDepthTraced x (current + 1)).1 = jsonDepth x (current + 1) ∧
      (jsonDepthTraced x (current + 1)).2 < bound) (hcalls : calls ≤ bound) :
    (jsonDepthTracedList xs current (deepest, calls)).1 = jsonDepthList xs current deepest ∧
      (jsonDepthTracedList xs current (deepest, calls)).2 ≤ bound := by
  induction xs generalizing deepest calls with
  | nil => exact ⟨rfl, hcalls⟩
  | cons x xs ih =>
    obtain ⟨hvalue, hless⟩ := hchild x List.mem_cons_self
    have hmax : max calls ((jsonDepthTraced x (current + 1)).2 + 1) ≤ bound := by omega
    rw [jsonDepthTracedList, jsonDepthList, hvalue]
    split
    · exact ⟨rfl, hmax⟩
    · exact ih (fun y hy => hchild y (List.mem_cons_of_mem x hy)) hmax

/-- Tracing does not change the result, and the recursion ends at the first distance beyond the
limit. -/
theorem jsonDepthTraced_spec (n current : ℕ) (j : Json) (h : current + n = kMaxJsonDepth + 1) :
    (jsonDepthTraced j current).1 = jsonDepth j current ∧ (jsonDepthTraced j current).2 ≤ n := by
  induction n generalizing current j with
  | zero =>
    rw [jsonDepthTraced_of_lt j (by omega), jsonDepth_of_lt j (by omega)]
    exact ⟨rfl, le_rfl⟩
  | succ n ih =>
    rw [jsonDepthTraced_eq j (by omega), jsonDepth_eq j (by omega)]
    apply jsonDepthTracedList_spec
    · intro x _
      obtain ⟨hvalue, hcalls⟩ := ih (current + 1) x (by omega)
      exact ⟨hvalue, by omega⟩
    · exact Nat.zero_le _

/-- As long as the limit is not exceeded, the loop returns the greatest of the depths. -/
theorem le_jsonDepthList_iff {xs : List Json} {current deepest : ℕ}
    (hwithin : jsonDepthList xs current deepest ≤ kMaxJsonDepth) (k : ℕ) :
    k ≤ jsonDepthList xs current deepest ↔
      k ≤ deepest ∨ ∃ x ∈ xs, k ≤ jsonDepth x (current + 1) := by
  induction xs generalizing deepest with
  | nil => simp [jsonDepthList]
  | cons x xs ih =>
    rw [jsonDepthList] at hwithin ⊢
    split at hwithin
    · omega
    · rename_i hmore
      rw [if_neg hmore, ih hwithin, le_max_iff, List.exists_mem_cons_iff, or_assoc]

/-- A result within the limit comes from a call within the limit. -/
theorem current_le_of_jsonDepth_le {j : Json} {current : ℕ}
    (hwithin : jsonDepth j current ≤ kMaxJsonDepth) : current ≤ kMaxJsonDepth := by
  by_contra hbeyond
  rw [jsonDepth_of_lt j (by omega)] at hwithin
  omega

/-- Within the limit, the depth is that of the value itself or of one of its children. -/
theorem le_jsonDepth_iff {j : Json} {current : ℕ} (hwithin : jsonDepth j current ≤ kMaxJsonDepth)
    (k : ℕ) : k ≤ jsonDepth j current ↔
      k ≤ current ∨ ∃ x ∈ j.children, k ≤ jsonDepth x (current + 1) := by
  have hcurrent := current_le_of_jsonDepth_le hwithin
  rw [jsonDepth_eq j hcurrent] at hwithin ⊢
  exact le_jsonDepthList_iff hwithin k

/-- Within the limit, the children are within the limit. -/
theorem jsonDepth_le_of_mem {j x : Json} {current : ℕ}
    (hwithin : jsonDepth j current ≤ kMaxJsonDepth) (hx : x ∈ j.children) :
    jsonDepth x (current + 1) ≤ kMaxJsonDepth := by
  by_contra hexceeds
  have hexceeded := (lt_jsonDepth_iff j (current_le_of_jsonDepth_le hwithin)).mpr
    ⟨x, hx, Nat.lt_of_not_le hexceeds⟩
  omega

/-- Within the limit, the depth reaches a number exactly if there is a node at that distance. -/
theorem le_jsonDepth_iff_nodesAt (n current : ℕ) (j : Json)
    (hwithin : jsonDepth j current ≤ kMaxJsonDepth) :
    current + n ≤ jsonDepth j current ↔ nodesAt n j ≠ [] := by
  induction n generalizing current j with
  | zero =>
    refine iff_of_true ?_ (List.cons_ne_nil j [])
    exact (le_jsonDepth_iff hwithin current).mpr (.inl le_rfl)
  | succ n ih =>
    have hchild : ∀ x ∈ j.children,
        (current + (n + 1) ≤ jsonDepth x (current + 1) ↔ nodesAt n x ≠ []) := by
      intro x hx
      rw [← ih (current + 1) x (jsonDepth_le_of_mem hwithin hx)]
      have hsum : current + (n + 1) = current + 1 + n := by omega
      rw [hsum]
    rw [le_jsonDepth_iff hwithin, or_iff_right (by omega)]
    simp only [nodesAt, ne_eq, List.flatMap_eq_nil_iff, not_forall]
    constructor
    · rintro ⟨x, hx, hdeep⟩
      exact ⟨x, hx, (hchild x hx).mp hdeep⟩
    · rintro ⟨x, hx, hnodes⟩
      exact ⟨x, hx, (hchild x hx).mpr hnodes⟩

/-- `json_depth` finds the limit exceeded exactly if some node lies deeper than the limit, and
otherwise returns the distance of the deepest node. In either case the recursion stays within one
call more than the limit. -/
theorem json_depth_verdict (v : Json) :
    (kMaxJsonDepth < jsonDepth v 0 ↔ ∃ n x, kMaxJsonDepth < n ∧ x ∈ nodesAt n v) ∧
      (¬ kMaxJsonDepth < jsonDepth v 0 →
        IsGreatest {n | ∃ x, x ∈ nodesAt n v} (jsonDepth v 0)) ∧
      ∃ calls ≤ kMaxJsonDepth + 1, jsonDepthTraced v 0 = (jsonDepth v 0, calls) := by
  refine ⟨?_, ?_, ?_⟩
  · rw [lt_jsonDepth_iff_nodesAt (kMaxJsonDepth + 1) 0 v (Nat.zero_add _)]
    constructor
    · intro hne
      obtain ⟨x, hx⟩ := List.exists_mem_of_ne_nil _ hne
      exact ⟨kMaxJsonDepth + 1, x, Nat.lt_succ_self _, hx⟩
    · rintro ⟨n, x, hn, hx⟩
      exact Json.nodesAt_ne_nil_of_le hn (List.ne_nil_of_mem hx)
  · intro hwithin
    have hreach := fun n => le_jsonDepth_iff_nodesAt n 0 v (Nat.le_of_not_lt hwithin)
    simp only [Nat.zero_add] at hreach
    constructor
    · exact List.exists_mem_of_ne_nil _ ((hreach _).mp le_rfl)
    · rintro n ⟨x, hx⟩
      exact (hreach n).mpr (List.ne_nil_of_mem hx)
  · obtain ⟨hvalue, hcalls⟩ := jsonDepthTraced_spec (kMaxJsonDepth + 1) 0 v (Nat.zero_add _)
    exact ⟨(jsonDepthTraced v 0).2, hcalls, Prod.ext hvalue rfl⟩

end PqtlsLab
