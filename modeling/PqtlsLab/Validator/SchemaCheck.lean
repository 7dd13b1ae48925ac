import PqtlsLab.Validator.ResultValidator

/-!
# The structural check against the schema

`metrics.schema.json` says what a record must look like, and `builtin_structural_check` stands in
for a schema validator where none is installed. For the required fields the two are compared here.
A truth value is no number for the schema, but it is one for the check of the two times, whose
expected type is a pair. The final `$` of a pattern matches before a newline in Python but not in
the dialect that JSON Schema names.
-/

namespace PqtlsLab.Validator

/-- The dialect of a regular expression. -/
inductive Dialect where
  /-- The one that JSON Schema asks for: `$` matches at the end of the text. -/
  | ecma
  /-- That of Python's `re`: `$` also matches before a newline that ends the text. -/
  | python
  deriving DecidableEq

/-- The keyword `type` of the schema. -/
inductive SchemaType where
  | integer
  | number
  | string
  | boolean
  deriving DecidableEq

/-- A finite binary64 number without a fractional part. -/
def integralBits (bits : UInt64) : Bool :=
  let magnitude := (Json.magnitudeBits bits).toNat
  let exponent := magnitude / 4503599627370496
  magnitude == 0 ||
    (1023 ≤ exponent && exponent < 2047 && magnitude % (1 <<< (52 - (exponent - 1023))) == 0)

/-- The values of a type. A truth value is not a number, and a number without a fractional part is
an integer. -/
def SchemaType.admits : SchemaType → Json → Bool
  | .integer, .int _ => true
  | .integer, .float bits => integralBits bits
  | .number, .int _ | .number, .float _ => true
  | .string, .string _ => true
  | .boolean, .bool _ => true
  | _, _ => false

/-- The further keywords of the required fields. -/
inductive Constraint where
  | none
  /-- `"const": 1`. -/
  | constOne
  /-- The `pattern` of `connection_id`. -/
  | uuidPattern
  /-- `enum` with some texts. -/
  | oneOf (values : List Bytes)
  /-- `"minimum": 0`. -/
  | minimumZero

/-- The pattern of `connection_id` in a dialect. -/
def matchesPattern (dialect : Dialect) (text : Bytes) : Bool :=
  match dialect with
  | .ecma => afterClasses uuidV4Classes text == some []
  | .python => matchesUuidV4 text

/-- A value keeps to a constraint. A pattern concerns texts and a minimum concerns numbers. -/
def Constraint.holds (dialect : Dialect) : Constraint → Json → Bool
  | .none, _ => true
  | .constOne, .int i => i == 1
  | .constOne, .float bits => bits == 0x3FF0000000000000
  | .constOne, _ => false
  | .uuidPattern, .string text => matchesPattern dialect text
  | .uuidPattern, _ => true
  | .oneOf values, .string text => values.contains text
  | .oneOf _, _ => false
  | .minimumZero, value => !value.isNegativeNumber

/-- What the schema says about one field. -/
structure FieldSchema where
  type : SchemaType
  constraint : Constraint

/-- A value is valid for a field. -/
def FieldSchema.accepts (dialect : Dialect) (schema : FieldSchema) (value : Json) : Bool :=
  schema.type.admits value && schema.constraint.holds dialect value

/-- The fields under `required` with their entries under `properties`. -/
def requiredSchemas : List (Bytes × FieldSchema) :=
  [(ascii "schema_version", ⟨.integer, .constOne⟩),
    (ascii "connection_id", ⟨.string, .uuidPattern⟩),
    (ascii "role", ⟨.string, .oneOf [ascii "client", ascii "server"]⟩),
    (ascii "requested_profile", ⟨.string, .none⟩),
    (ascii "tls_version", ⟨.string, .none⟩),
    (ascii "negotiated_group", ⟨.string, .none⟩),
    (ascii "cipher_suite", ⟨.string, .none⟩),
    (ascii "handshake_ms", ⟨.number, .minimumZero⟩),
    (ascii "connection_ms", ⟨.number, .minimumZero⟩),
    (ascii "success", ⟨.boolean, .none⟩),
    (ascii "timestamp", ⟨.string, .none⟩)]

/-- A record has a field, and its value is valid. -/
def FieldValid (dialect : Dialect) (record : Dict) (field : Bytes × FieldSchema) : Prop :=
  ∃ value, record.lookup field.1 = some value ∧ field.2.accepts dialect value = true

/-- A record has all required fields, and their values are valid. -/
def RequiredFieldsValid (dialect : Dialect) (record : Dict) : Prop :=
  ∀ field ∈ requiredSchemas, FieldValid dialect record field

/-- The type in the schema of a field with a type in `REQUIRED_FIELDS`. -/
def FieldType.schemaType : FieldType → SchemaType
  | .int => .integer
  | .str => .string
  | .number => .number
  | .bool => .boolean

/-- A value that passes the check of its type has the type in the schema, unless it is a truth value
where a number is expected. -/
theorem admits_of_isInstance {expected : FieldType} {value : Json}
    (hinstance : expected.isInstance value = true)
    (hbool : expected ≠ .bool → FieldType.bool.isInstance value = false) :
    expected.schemaType.admits value = true := by
  cases expected with
  | int =>
    have hbool := hbool (by decide)
    cases value <;> simp_all [FieldType.isInstance, FieldType.schemaType, SchemaType.admits]
  | str => cases value <;> simp_all [FieldType.isInstance, FieldType.schemaType, SchemaType.admits]
  | number =>
    have hbool := hbool (by decide)
    cases value <;> simp_all [FieldType.isInstance, FieldType.schemaType, SchemaType.admits]
  | bool => cases value <;> simp_all [FieldType.isInstance, FieldType.schemaType, SchemaType.admits]

/-- The classes of the pattern do not contain the newline, so a newline is left over. -/
theorem newline_mem_iff {classes : List (UInt8 → Bool)} {text rest : Bytes}
    (h : afterClasses classes text = some rest) (hclasses : ∀ p ∈ classes, p 0x0A = false) :
    0x0A ∈ text ↔ 0x0A ∈ rest := by
  induction classes generalizing text with
  | nil =>
    rw [afterClasses, Option.some.injEq] at h
    rw [h]
  | cons p classes ih =>
    cases text with
    | nil => cases h
    | cons b text =>
      rw [afterClasses] at h
      split at h
      · rename_i hp
        have hb : (0x0A : UInt8) ≠ b := by
          rintro rfl
          rw [hclasses p List.mem_cons_self] at hp
          cases hp
        have hrest := ih h fun q hq => hclasses q (List.mem_cons_of_mem _ hq)
        rw [List.mem_cons, or_iff_right hb, hrest]
      · cases h

/-- A text that matches the pattern in Python matches it in the other dialect exactly if it has no
newline. -/
theorem matchesPattern_iff {dialect : Dialect} {text : Bytes} (h : matchesUuidV4 text = true) :
    matchesPattern dialect text = true ↔ (dialect = .ecma → 0x0A ∉ text) := by
  have hclasses : ∀ p ∈ uuidV4Classes, p 0x0A = false := by
    have hall : (uuidV4Classes.all fun p => p 0x0A == false) = true := by decide
    intro p hp
    exact beq_iff_eq.mp (List.all_eq_true.mp hall p hp)
  cases dialect with
  | python => simp [matchesPattern, h]
  | ecma =>
    simp only [matchesPattern, beq_iff_eq, forall_const]
    unfold matchesUuidV4 at h
    split at h
    · rename_i heq
      simp [heq, newline_mem_iff heq hclasses]
    · rename_i b heq
      obtain rfl := beq_iff_eq.mp h
      simp [heq, newline_mem_iff heq hclasses]
    · cases h

variable {python : Python} {record : Dict} {dialect : Dialect}

/-- The value of a key that is present. -/
theorem get_of_lookup {key : Bytes} {value : Json} (h : record.lookup key = some value) :
    record.get key = value := by
  rw [Dict.get, h, Option.getD_some]

/-- A field that passes its check is valid if its value is no truth value in place of a number and
keeps to the constraint. -/
theorem fieldValid_of_check {name : Bytes} {expected : FieldType} {constraint : Constraint}
    (hfield : fieldProblem record name expected = [])
    (hnumber : expected = .number → FieldType.bool.isInstance (record.get name) = false)
    (hconstraint : constraint.holds dialect (record.get name) = true) :
    FieldValid dialect record (name, ⟨expected.schemaType, constraint⟩) := by
  obtain ⟨value, hlookup, hinstance, hint⟩ := fieldProblem_eq_nil_iff.mp hfield
  rw [get_of_lookup hlookup] at hnumber hconstraint
  refine ⟨value, hlookup, ?_⟩
  rw [FieldSchema.accepts, Bool.and_eq_true]
  refine ⟨admits_of_isInstance hinstance ?_, hconstraint⟩
  intro hne
  cases expected with
  | int => exact hint rfl
  | str => cases value <;> simp_all [FieldType.isInstance]
  | number => exact hnumber rfl
  | bool => exact absurd rfl hne

/-- The version that passes the checks is the number one. -/
theorem constOne_of_check
    (hfield : fieldProblem record (ascii "schema_version") .int = [])
    (hone : (record.get (ascii "schema_version")).equalsOne = true) :
    Constraint.constOne.holds dialect (record.get (ascii "schema_version")) = true := by
  obtain ⟨value, hlookup, hinstance, hint⟩ := fieldProblem_eq_nil_iff.mp hfield
  rw [get_of_lookup hlookup] at hone ⊢
  have hint := hint rfl
  cases value <;> simp_all [FieldType.isInstance, Json.equalsOne, Constraint.holds]

/-- The role that passes the checks is one of the two. -/
theorem oneOf_of_check
    (hrole : (record.get (ascii "role")).isElementOf
      [some (ascii "client"), some (ascii "server")] = .ok true) :
    (Constraint.oneOf [ascii "client", ascii "server"]).holds dialect
      (record.get (ascii "role")) = true := by
  unfold Json.isElementOf at hrole
  split at hrole
  · cases hvalue : record.get (ascii "role") <;>
      simp_all [Json.isOneOf, Constraint.holds]
  · cases hrole

/-- The identifier that passes the checks matches the pattern in Python. -/
theorem uuid_of_check (hfield : fieldProblem record (ascii "connection_id") .str = [])
    (hproblem : connectionIdProblem (record.get (ascii "connection_id")) = []) :
    ∃ id, record.get (ascii "connection_id") = .string id ∧ matchesUuidV4 id = true := by
  obtain ⟨value, hlookup, hinstance, _⟩ := fieldProblem_eq_nil_iff.mp hfield
  rw [get_of_lookup hlookup] at hproblem ⊢
  cases value with
  | string id => exact ⟨id, rfl, by simpa [connectionIdProblem] using hproblem⟩
  | null => cases hinstance
  | bool b => cases hinstance
  | int i => cases hinstance
  | float bits => cases hinstance
  | array xs => cases hinstance
  | object ms => cases hinstance

/-- A number that is valid in the schema is not a truth value. -/
theorem not_bool_of_fieldValid {name : Bytes} {constraint : Constraint}
    (h : FieldValid dialect record (name, ⟨.number, constraint⟩)) :
    FieldType.bool.isInstance (record.get name) = false := by
  obtain ⟨value, hlookup, haccepts⟩ := h
  rw [get_of_lookup hlookup]
  cases value <;> simp_all [FieldSchema.accepts, SchemaType.admits, FieldType.isInstance]

/-- A record that passes the structural check has valid required fields exactly if neither time is a
truth value and, in the dialect that JSON Schema names, the identifier has no newline. -/
theorem structural_check_sound_iff (python : Python) (dialect : Dialect) (record : Dict)
    (h : builtinStructuralCheck python record = .ok []) :
    RequiredFieldsValid dialect record ↔
      FieldType.bool.isInstance (record.get (ascii "handshake_ms")) = false ∧
        FieldType.bool.isInstance (record.get (ascii "connection_ms")) = false ∧
        (dialect = .ecma →
          ∀ id, record.get (ascii "connection_id") = .string id → 0x0A ∉ id) := by
  obtain ⟨hfields, hone, hproblem, hrole, _, hhandshake, hconnection⟩ :=
    builtinStructuralCheck_eq_nil_iff.mp h
  simp only [requiredFields, List.forall_mem_cons, List.not_mem_nil, false_implies, implies_true,
    and_true] at hfields
  obtain ⟨hversion, hid, hroleType, hprofile, htls, hgroup, hsuite, hhandshakeType,
    hconnectionType, hsuccess, htimestamp⟩ := hfields
  obtain ⟨id, hget, hmatches⟩ := uuid_of_check hid hproblem
  constructor
  · intro hvalid
    have hhandshakeValid :=
      hvalid (ascii "handshake_ms", ⟨.number, .minimumZero⟩) (by simp [requiredSchemas])
    have hconnectionValid :=
      hvalid (ascii "connection_ms", ⟨.number, .minimumZero⟩) (by simp [requiredSchemas])
    refine ⟨not_bool_of_fieldValid hhandshakeValid, not_bool_of_fieldValid hconnectionValid, ?_⟩
    intro hecma id' hget'
    obtain ⟨value, hlookup, haccepts⟩ :=
      hvalid (ascii "connection_id", ⟨.string, .uuidPattern⟩) (by simp [requiredSchemas])
    rw [hget, Json.string.injEq] at hget'
    rw [← get_of_lookup hlookup, hget, FieldSchema.accepts, Bool.and_eq_true] at haccepts
    rw [← hget']
    exact (matchesPattern_iff hmatches).mp haccepts.2 hecma
  · rintro ⟨hhandshakeBool, hconnectionBool, hnewline⟩
    have hpattern : Constraint.uuidPattern.holds dialect (record.get (ascii "connection_id")) =
        true := by
      rw [hget]
      exact (matchesPattern_iff hmatches).mpr fun hecma => hnewline hecma id hget
    have hminimum {name : Bytes} (hnegative : (record.get name).isNegativeNumber = false) :
        Constraint.minimumZero.holds dialect (record.get name) = true := by
      rw [Constraint.holds, hnegative]
      rfl
    simp only [RequiredFieldsValid, requiredSchemas, List.forall_mem_cons, List.not_mem_nil,
      false_implies, implies_true, and_true]
    refine ⟨?_, ?_, ?_, ?_, ?_, ?_, ?_, ?_, ?_, ?_, ?_⟩
    · exact fieldValid_of_check hversion (by simp) (constOne_of_check hversion hone)
    · exact fieldValid_of_check hid (by simp) hpattern
    · exact fieldValid_of_check hroleType (by simp) (oneOf_of_check hrole)
    · exact fieldValid_of_check hprofile (by simp) rfl
    · exact fieldValid_of_check htls (by simp) rfl
    · exact fieldValid_of_check hgroup (by simp) rfl
    · exact fieldValid_of_check hsuite (by simp) rfl
    · exact fieldValid_of_check hhandshakeType (fun _ => hhandshakeBool) (hminimum hhandshake)
    · exact fieldValid_of_check hconnectionType (fun _ => hconnectionBool) (hminimum hconnection)
    · exact fieldValid_of_check hsuccess (by simp) rfl
    · exact fieldValid_of_check htimestamp (by simp) rfl

/-- A record of a failed connection with a time in `handshake_ms`. -/
def recordWith (handshake : Json) : Dict :=
  [(ascii "schema_version", .int 1),
    (ascii "connection_id", .string (ascii "00000000-0000-4000-8000-000000000000")),
    (ascii "role", .string (ascii "client")), (ascii "requested_profile", .string (ascii "lab")),
    (ascii "tls_version", .string []), (ascii "negotiated_group", .string []),
    (ascii "cipher_suite", .string []), (ascii "handshake_ms", handshake),
    (ascii "connection_ms", .int 5), (ascii "success", .bool false),
    (ascii "timestamp", .string (ascii "2026-01-01T00:00:00.000Z"))]

/-- A record with numbers is valid in both dialects. -/
theorem record_with_number_valid :
    builtinStructuralCheck Python.ofAscii (recordWith (.int 3)) = .ok [] ∧
      RequiredFieldsValid .ecma (recordWith (.int 3)) := by
  have hcheck : builtinStructuralCheck Python.ofAscii (recordWith (.int 3)) = .ok [] := rfl
  refine ⟨hcheck, (structural_check_sound_iff Python.ofAscii .ecma _ hcheck).mpr ⟨rfl, rfl, ?_⟩⟩
  intro _ id hid
  cases hid
  decide

/-- A truth value in place of a time passes the check, and the schema rejects it. -/
theorem record_with_truth_value_accepted :
    builtinStructuralCheck Python.ofAscii (recordWith (.bool true)) = .ok [] ∧
      ∀ dialect, ¬RequiredFieldsValid dialect (recordWith (.bool true)) := by
  refine ⟨rfl, ?_⟩
  intro dialect hvalid
  obtain ⟨value, hlookup, haccepts⟩ :=
    hvalid (ascii "handshake_ms", ⟨.number, .minimumZero⟩) (by simp [requiredSchemas])
  cases hlookup
  cases haccepts

end PqtlsLab.Validator
