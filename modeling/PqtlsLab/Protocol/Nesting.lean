import PqtlsLab.Foundation.JsonTree
import PqtlsLab.Protocol.Message

/-!
# The limit on nesting

`json_depth` counts the edges below the root down to the deepest node, whatever its kind, and it
stops early. The check of `Message::parse` rejects a document exactly when some node lies more than
16 edges below the root. A scalar or an empty container at that distance makes no difference to it,
so a document with 17 nested containers is rejected or not depending on whether the innermost of
them are empty.
-/

namespace PqtlsLab

open Json (nodesAt)

/-- The nesting check of `Message::parse` rejects the document. -/
def ExceedsDepth (doc : JsonValue) : Prop := jsonDepth doc.val 0 > kMaxJsonDepth

/-- The loop over the elements of an array finds the limit exceeded exactly when it was before or
one of the elements exceeds it. -/
theorem lt_jsonDepthList_iff (xs : List Json) (current deepest : ℕ) :
    kMaxJsonDepth < jsonDepthList xs current deepest ↔
      kMaxJsonDepth < deepest ∨ ∃ x ∈ xs, kMaxJsonDepth < jsonDepth x (current + 1) := by
  induction xs generalizing deepest with
  | nil => simp [jsonDepthList]
  | cons child rest ih =>
    simp only [jsonDepthList, List.exists_mem_cons_iff, ← or_assoc, ← lt_max_iff]
    split
    · rename_i hexceeds
      exact ⟨fun _ => .inl hexceeds, fun _ => hexceeds⟩
    · exact ih _

/-- The loop over the members of an object is the one over their values. -/
theorem jsonDepthMembers_eq (ms : List (Bytes × Json)) (current deepest : ℕ) :
    jsonDepthMembers ms current deepest = jsonDepthList (ms.map Prod.snd) current deepest := by
  induction ms generalizing deepest with
  | nil => rfl
  | cons m ms ih => simp only [jsonDepthMembers, List.map_cons, jsonDepthList, ih]

/-- Within the limit the result comes from the loop over the children. -/
theorem jsonDepth_eq (j : Json) {current : ℕ} (hcurrent : current ≤ kMaxJsonDepth) :
    jsonDepth j current = jsonDepthList j.children current current := by
  cases j with
  | array xs => rw [jsonDepth, if_neg (by omega), Json.children]
  | object ms => rw [jsonDepth, if_neg (by omega), jsonDepthMembers_eq, Json.children]
  | _ => rfl

/-- Within the limit, a value exceeds it exactly when one of its children does. -/
theorem lt_jsonDepth_iff (j : Json) {current : ℕ} (hcurrent : current ≤ kMaxJsonDepth) :
    kMaxJsonDepth < jsonDepth j current ↔
      ∃ x ∈ j.children, kMaxJsonDepth < jsonDepth x (current + 1) := by
  rw [jsonDepth_eq j hcurrent, lt_jsonDepthList_iff]
  exact or_iff_right (by omega)

/-- Beyond the limit nothing is looked at. -/
theorem jsonDepth_of_lt (j : Json) {current : ℕ} (hcurrent : kMaxJsonDepth < current) :
    jsonDepth j current = current := by
  cases j <;> simp [jsonDepth, hcurrent]

/-- The limit is exceeded exactly when there is a node at the first distance beyond it. -/
theorem lt_jsonDepth_iff_nodesAt (n current : ℕ) (j : Json)
    (h : current + n = kMaxJsonDepth + 1) :
    kMaxJsonDepth < jsonDepth j current ↔ nodesAt n j ≠ [] := by
  induction n generalizing current j with
  | zero =>
    rw [jsonDepth_of_lt j (by omega)]
    simp only [nodesAt, ne_eq, List.cons_ne_nil, not_false_eq_true, iff_true]
    omega
  | succ n ih =>
    rw [lt_jsonDepth_iff j (by omega)]
    simp only [nodesAt, ne_eq, List.flatMap_eq_nil_iff, not_forall]
    constructor
    · rintro ⟨x, hx, hdeep⟩
      exact ⟨x, hx, (ih (current + 1) x (by omega)).mp hdeep⟩
    · rintro ⟨x, hx, hnodes⟩
      exact ⟨x, hx, (ih (current + 1) x (by omega)).mpr hnodes⟩

/-- The check rejects a document exactly when a node lies more than 16 edges below its root. -/
theorem exceedsDepth_iff (doc : JsonValue) : ExceedsDepth doc ↔ nodesAt 17 doc.val ≠ [] :=
  lt_jsonDepth_iff_nodesAt 17 0 doc.val rfl

/-- The check agrees with the documented limit of 16 levels on every document but those that nest
17 containers of which all at the last level are empty. -/
theorem exceedsDepth_iff_nesting_iff (doc : JsonValue) :
    (ExceedsDepth doc ↔ doc.val.nesting > 16) ↔
      ¬ (doc.val.nesting = 17 ∧ ∀ x ∈ nodesAt 16 doc.val, x.children = []) := by
  have hcheck : ExceedsDepth doc ↔ ∃ x ∈ nodesAt 16 doc.val, x.children ≠ [] := by
    rw [exceedsDepth_iff, Json.nodesAt_succ_ne_nil_iff]
  have hlimit : doc.val.nesting > 16 ↔ ∃ x ∈ nodesAt 16 doc.val, x.isContainer = true :=
    Json.lt_nesting_iff 16 doc.val
  have himp : ExceedsDepth doc → doc.val.nesting > 16 := by
    rw [hcheck, hlimit]
    rintro ⟨x, hx, hchildren⟩
    exact ⟨x, hx, Json.isContainer_of_children hchildren⟩
  constructor
  · rintro hiff ⟨hnesting, hempty⟩
    obtain ⟨x, hx, hchildren⟩ := hcheck.mp (hiff.mpr (by omega))
    exact hchildren (hempty x hx)
  · intro hnot
    refine ⟨himp, fun hnesting => ?_⟩
    by_contra haccepted
    have hempty : ∀ x ∈ nodesAt 16 doc.val, x.children = [] := by
      intro x hx
      by_contra hchildren
      exact haccepted (hcheck.mpr ⟨x, hx, hchildren⟩)
    have hbound : ¬ 17 < doc.val.nesting := by
      rw [Json.lt_nesting_iff, Json.nodesAt_succ]
      rintro ⟨x, hx, -⟩
      obtain ⟨parent, hparent, hx⟩ := List.mem_flatMap.mp hx
      rw [hempty parent hparent] at hx
      cases hx
    exact hnot ⟨by omega, hempty⟩

/-- Objects within each other around a value. -/
def nested : ℕ → JsonValue → JsonValue
  | 0, j => j
  | n + 1, j => JsonValue.null.set (ascii "a") (nested n j)

/-- No number is the limit: of two documents with 17 nested objects, the one whose innermost object
is empty is accepted and the one that holds a scalar there is rejected. -/
theorem nesting_limit_not_uniform :
    ¬ ∃ L : ℕ, ∀ doc : JsonValue, doc.isObject = true →
      (ExceedsDepth doc ↔ doc.val.nesting > L) := by
  rintro ⟨L, h⟩
  have hempty := h (nested 16 JsonValue.emptyObject) (by decide)
  have hscalar := h (nested 17 JsonValue.null) (by decide)
  have hnesting : (nested 16 JsonValue.emptyObject).val.nesting = 17 ∧
      (nested 17 JsonValue.null).val.nesting = 17 := by decide
  have haccepted : ¬ ExceedsDepth (nested 16 JsonValue.emptyObject) := by
    unfold ExceedsDepth
    decide
  have hrejected : ExceedsDepth (nested 17 JsonValue.null) := by
    unfold ExceedsDepth
    decide
  rw [hnesting.1] at hempty
  rw [hnesting.2] at hscalar
  exact haccepted (hempty.mpr (hscalar.mp hrejected))

end PqtlsLab
