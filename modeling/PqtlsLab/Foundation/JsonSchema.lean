import PqtlsLab.Foundation.Json

/-!
# JSON Schema

The part of JSON Schema that combines schemas: the members of an object, conjunctions and
conditions. A keyword that looks at a value alone is the predicate that it stands for. Keywords
about objects say nothing about other values.
-/

namespace PqtlsLab

/-- A schema. -/
inductive JsonSchema where
  /-- A keyword about a value. -/
  | keyword (holds : Json → Bool)
  /-- `required`. -/
  | required (keys : List Bytes)
  /-- `properties`. -/
  | properties (members : List (Bytes × JsonSchema))
  /-- `"additionalProperties": false` beside `properties` with these keys. -/
  | closed (keys : List Bytes)
  /-- `allOf`, or several keywords of one schema. -/
  | allOf (schemas : List JsonSchema)
  /-- `if` and `then`. -/
  | ifThen (condition consequence : JsonSchema)

namespace JsonSchema

mutual

/-- A value is valid. -/
def accepts : JsonSchema → Json → Bool
  | .keyword holds, j => holds j
  | .required keys, .object ms => keys.all fun key => (ms.lookup key).isSome
  | .required _, _ => true
  | .properties members, .object ms => acceptsMembers members ms
  | .properties _, _ => true
  | .closed keys, .object ms => ms.all fun m => keys.contains m.1
  | .closed _, _ => true
  | .allOf schemas, j => acceptsAll schemas j
  | .ifThen condition consequence, j => !condition.accepts j || consequence.accepts j

/-- The members of an object are valid, as far as they are there. -/
def acceptsMembers : List (Bytes × JsonSchema) → List (Bytes × Json) → Bool
  | [], _ => true
  | (key, schema) :: members, ms =>
    (match ms.lookup key with
      | some v => schema.accepts v
      | none => true) && acceptsMembers members ms

/-- A value is valid for all schemas. -/
def acceptsAll : List JsonSchema → Json → Bool
  | [], _ => true
  | schema :: schemas, j => schema.accepts j && acceptsAll schemas j

end

variable {ms : List (Bytes × Json)} {j : Json}

@[simp] theorem accepts_keyword (holds : Json → Bool) :
    (keyword holds).accepts j = true ↔ holds j = true := by
  rw [accepts]

@[simp] theorem accepts_required (keys : List Bytes) :
    (required keys).accepts (.object ms) = true ↔ ∀ key ∈ keys, ∃ v, ms.lookup key = some v := by
  simp [accepts, Option.isSome_iff_exists]

@[simp] theorem accepts_closed (keys : List Bytes) :
    (closed keys).accepts (.object ms) = true ↔ ∀ m ∈ ms, m.1 ∈ keys := by
  simp [accepts]

@[simp] theorem accepts_ifThen (condition consequence : JsonSchema) :
    (ifThen condition consequence).accepts j = true ↔
      (condition.accepts j = true → consequence.accepts j = true) := by
  rw [accepts]
  cases condition.accepts j <;> simp

/-- The members of an object are valid if each of them is. -/
@[simp] theorem accepts_properties (members : List (Bytes × JsonSchema)) :
    (properties members).accepts (.object ms) = true ↔
      ∀ p ∈ members, ∀ v, ms.lookup p.1 = some v → p.2.accepts v = true := by
  rw [accepts]
  induction members with
  | nil => simp [acceptsMembers]
  | cons p members ih =>
    obtain ⟨key, schema⟩ := p
    rw [acceptsMembers, Bool.and_eq_true, ih, List.forall_mem_cons]
    refine and_congr_left fun _ => ?_
    cases ms.lookup key <;> simp

/-- A value is valid for all schemas if it is valid for each of them. -/
@[simp] theorem accepts_allOf (schemas : List JsonSchema) :
    (allOf schemas).accepts j = true ↔ ∀ schema ∈ schemas, schema.accepts j = true := by
  rw [accepts]
  induction schemas with
  | nil => simp [acceptsAll]
  | cons schema schemas ih => rw [acceptsAll, Bool.and_eq_true, ih, List.forall_mem_cons]

end JsonSchema

end PqtlsLab
