import PqtlsLab.Foundation.Python
import PqtlsLab.Policy.ProfileRegistry

/-!
# The result validator

`result_validator.py` reads records back and reports problems: `builtin_structural_check` looks
at the presence and the types of the required fields, `semantic_check` at what a record claims.
The texts of the problems are those of the source. A check throws only where the source looks up
a value without a hash in a set.
-/

namespace PqtlsLab.Validator

/-- The types in `REQUIRED_FIELDS`. -/
inductive FieldType where
  | int
  | str
  /-- The pair `(int, float)`. -/
  | number
  | bool
  deriving DecidableEq

namespace FieldType

/-- `isinstance(value, expected)`. A `bool` is an `int`. -/
def isInstance : FieldType → Json → Bool
  | .int, .int _ | .int, .bool _ => true
  | .str, .string _ => true
  | .number, .int _ | .number, .float _ | .number, .bool _ => true
  | .bool, .bool _ => true
  | _, _ => false

/-- The name of the type, or the names of both types. -/
def name : FieldType → Bytes
  | .int => ascii "int"
  | .str => ascii "str"
  | .number => ascii "int/float"
  | .bool => ascii "bool"

end FieldType

/-- `HYBRID_GROUPS`. -/
def hybridGroups : List Bytes :=
  [ascii "x25519mlkem768", ascii "secp256r1mlkem768", ascii "secp384r1mlkem1024"]

/-- `PURE_PQ_GROUPS`. -/
def purePqGroups : List Bytes := [ascii "mlkem512", ascii "mlkem768", ascii "mlkem1024"]

/-- `PQ_GROUPS`. -/
def pqGroups : List Bytes := hybridGroups ++ purePqGroups

/-- `ERROR_CATEGORIES`. -/
def errorCategories : List (Option Bytes) :=
  [none, some (ascii "none"), some (ascii "configuration"), some (ascii "capability"),
    some (ascii "certificate"), some (ascii "tls-policy"), some (ascii "handshake"),
    some (ascii "network"), some (ascii "protocol"), some (ascii "timeout"),
    some (ascii "internal")]

/-- `REQUIRED_FIELDS`. -/
def requiredFields : List (Bytes × FieldType) :=
  [(ascii "schema_version", .int), (ascii "connection_id", .str), (ascii "role", .str),
    (ascii "requested_profile", .str), (ascii "tls_version", .str),
    (ascii "negotiated_group", .str), (ascii "cipher_suite", .str),
    (ascii "handshake_ms", .number), (ascii "connection_ms", .number),
    (ascii "success", .bool), (ascii "timestamp", .str)]

/-- `[0-9a-f]`. -/
def isHexDigit (b : UInt8) : Bool := 0x30 ≤ b && b ≤ 0x39 || 0x61 ≤ b && b ≤ 0x66

/-- `[89ab]`. -/
def isVariantDigit (b : UInt8) : Bool := b == 0x38 || b == 0x39 || b == 0x61 || b == 0x62

/-- The characters of `UUID_V4`, one class for each. -/
def uuidV4Classes : List (UInt8 → Bool) :=
  let hyphen : UInt8 → Bool := (· == 0x2D)
  List.replicate 8 isHexDigit ++ hyphen :: List.replicate 4 isHexDigit ++
    hyphen :: (· == 0x34) :: List.replicate 3 isHexDigit ++
    hyphen :: isVariantDigit :: List.replicate 3 isHexDigit ++
    hyphen :: List.replicate 12 isHexDigit

/-- The text after characters of some classes. -/
def afterClasses : List (UInt8 → Bool) → Bytes → Option Bytes
  | [], text => some text
  | _ :: _, [] => none
  | p :: classes, b :: text => if p b then afterClasses classes text else none

/-- `UUID_V4.match(text)`. The final `$` also matches before a newline that ends the text. -/
def matchesUuidV4 (text : Bytes) : Bool :=
  match afterClasses uuidV4Classes text with
  | some [] => true
  | some [b] => b == 0x0A
  | _ => false

/-- A problem that is reported under a condition. -/
def problemIf (condition : Bool) (problem : Bytes) : List Bytes :=
  if condition then [problem] else []

/-- No problem is reported exactly when the condition does not hold. -/
@[simp] theorem problemIf_eq_nil_iff (condition : Bool) (problem : Bytes) :
    problemIf condition problem = [] ↔ condition = false := by
  cases condition <;> simp [problemIf]

/-- The problem of a required field: it is missing or of another type. -/
def fieldProblem (record : Dict) (name : Bytes) (expected : FieldType) : List Bytes :=
  match record.lookup name with
  | none => [ascii "missing required field '" ++ name ++ ascii "'"]
  | some value =>
    if expected = .int && FieldType.bool.isInstance value then
      [ascii "'" ++ name ++ ascii "' must be an integer, got a boolean"]
    else if expected = .bool && !FieldType.bool.isInstance value then
      [ascii "'" ++ name ++ ascii "' must be a boolean, got " ++ value.typeName]
    else if expected ≠ .bool && !expected.isInstance value then
      [ascii "'" ++ name ++ ascii "' must be " ++ expected.name ++ ascii ", got " ++
        value.typeName]
    else []

/-- The problem of a `connection_id` that is a text. -/
def connectionIdProblem : Json → List Bytes
  | .string id =>
    problemIf (!matchesUuidV4 id) (ascii "'connection_id' is not an RFC 4122 version 4 UUID")
  | _ => []

/-- The problem of a number that must not be negative. -/
def negativeProblem (python : Python) (record : Dict) (name : Bytes) : List Bytes :=
  problemIf (record.get name).isNegativeNumber
    (ascii "'" ++ name ++ ascii "' is negative (" ++ python.str (record.get name) ++ ascii ")")

/-- `builtin_structural_check`. -/
def builtinStructuralCheck (python : Python) (record : Dict) : Except TypeError (List Bytes) := do
  let roleKnown ← (record.get (ascii "role")).isElementOf
    [some (ascii "client"), some (ascii "server")]
  let categoryKnown ← (record.get (ascii "error_category")).isElementOf errorCategories
  return requiredFields.flatMap (fun field => fieldProblem record field.1 field.2) ++
    problemIf (!(record.get (ascii "schema_version")).equalsOne)
      (ascii "unsupported schema_version " ++ python.repr (record.get (ascii "schema_version")) ++
        ascii "; this validator understands version 1") ++
    connectionIdProblem (record.get (ascii "connection_id")) ++
    problemIf (!roleKnown)
      (ascii "'role' must be 'client' or 'server', got " ++
        python.repr (record.get (ascii "role"))) ++
    problemIf (!categoryKnown)
      (ascii "unknown error_category " ++ python.repr (record.get (ascii "error_category"))) ++
    negativeProblem python record (ascii "handshake_ms") ++
    negativeProblem python record (ascii "connection_ms")

/-- `str(record.get(key, "")).lower()`. -/
def loweredText (python : Python) (record : Dict) (key : Bytes) : Bytes :=
  python.lower (python.str ((record.lookup key).getD (.string [])))

/-- The markers of a post-quantum signature. -/
def signatureMarkers : List Bytes :=
  [ascii "mldsa", ascii "ml-dsa", ascii "dilithium", ascii "falcon", ascii "sphincs"]

/-- `any(marker in auth for marker in ...)`. -/
def hasSignatureMarker (auth : Bytes) : Bool := signatureMarkers.any fun m => Python.isIn m auth

/-- The problems of a record that claims success. -/
def successProblems (python : Python) (record : Dict) : List Bytes :=
  let version := record.get (ascii "tls_version")
  let category := record.get (ascii "error_category")
  problemIf (!version.truthy) (ascii "a successful connection has no tls_version") ++
    problemIf (loweredText python record (ascii "negotiated_group")).isEmpty
      (ascii "a successful connection has no negotiated_group") ++
    problemIf (!category.isOneOf [none, some (ascii "none")])
      (ascii "a successful connection carries error_category " ++ python.repr category) ++
    problemIf (version.truthy && !version.isOneOf [some (ascii "TLSv1.3"), some (ascii "TLS1.3")])
      (ascii "negotiated " ++ python.repr version ++
        ascii "; this project permits TLS 1.3 only")

/-- The problems of the claims about a group that is named. -/
def groupProblems (python : Python) (record : Dict) (success claimsPq claimsHybrid : Bool) :
    List Bytes :=
  let group := loweredText python record (ascii "negotiated_group")
  let actuallyPq := pqGroups.contains group
  let actuallyHybrid := hybridGroups.contains group
  let named := python.repr (record.get (ascii "negotiated_group"))
  problemIf (claimsPq && !actuallyPq)
      (ascii "record claims pq_key_establishment=true but negotiated group " ++ named ++
        ascii " is classical") ++
    problemIf (actuallyPq && success && !claimsPq)
      (ascii "negotiated group " ++ named ++
        ascii " is post-quantum but pq_key_establishment is not true") ++
    problemIf (claimsHybrid && !actuallyHybrid)
      (ascii "record claims hybrid_key_establishment=true but negotiated group " ++ named ++
        ascii " is not a hybrid construction")

/-- `semantic_check`. -/
def semanticCheck (python : Python) (record : Dict) : List Bytes :=
  let group := loweredText python record (ascii "negotiated_group")
  let success := (record.get (ascii "success")).isTrue
  let claimsPq := (record.get (ascii "pq_key_establishment")).isTrue
  let claimsHybrid := (record.get (ascii "hybrid_key_establishment")).isTrue
  let claimsPqAuth := (record.get (ascii "pq_authentication")).isTrue
  let auth := loweredText python record (ascii "authentication")
  let profile := python.str ((record.lookup (ascii "requested_profile")).getD (.string []))
  (if success then successProblems python record else []) ++
    (if group.isEmpty then [] else groupProblems python record success claimsPq claimsHybrid) ++
    problemIf (claimsHybrid && !claimsPq)
      (ascii "hybrid_key_establishment=true requires pq_key_establishment=true") ++
    problemIf (claimsPqAuth && !auth.isEmpty && !hasSignatureMarker auth)
      (ascii "record claims pq_authentication=true but the authentication algorithm is " ++
        python.repr (record.get (ascii "authentication")) ++
        ascii ", which is not post-quantum") ++
    problemIf (success && announcesPostQuantum profile && !group.isEmpty &&
        !pqGroups.contains group)
      (ascii "profile " ++ python.reprStr profile ++
        ascii " requires post-quantum key establishment but the connection negotiated " ++
        python.repr (record.get (ascii "negotiated_group")) ++
        ascii ". This is a downgrade and the connection should have been rejected.")

variable {python : Python} {record : Dict}

/-- What a required field needs: it is present and of the right type, and a number is not a
truth value where an integer is asked for. -/
theorem fieldProblem_eq_nil_iff {name : Bytes} {expected : FieldType} :
    fieldProblem record name expected = [] ↔
      ∃ value, record.lookup name = some value ∧ expected.isInstance value = true ∧
        (expected = .int → FieldType.bool.isInstance value = false) := by
  unfold fieldProblem
  cases record.lookup name with
  | none => simp
  | some value =>
    cases expected with
    | int => cases value <;> simp [FieldType.isInstance]
    | str => simp
    | number => simp
    | bool => simp

/-- What `builtin_structural_check` lets through. -/
theorem builtinStructuralCheck_eq_nil_iff :
    builtinStructuralCheck python record = .ok [] ↔
      (∀ field ∈ requiredFields, fieldProblem record field.1 field.2 = []) ∧
        (record.get (ascii "schema_version")).equalsOne = true ∧
        connectionIdProblem (record.get (ascii "connection_id")) = [] ∧
        (record.get (ascii "role")).isElementOf
          [some (ascii "client"), some (ascii "server")] = .ok true ∧
        (record.get (ascii "error_category")).isElementOf errorCategories = .ok true ∧
        (record.get (ascii "handshake_ms")).isNegativeNumber = false ∧
        (record.get (ascii "connection_ms")).isNegativeNumber = false := by
  unfold builtinStructuralCheck
  cases (record.get (ascii "role")).isElementOf [some (ascii "client"), some (ascii "server")] with
  | error e => simp [bind, Except.bind]
  | ok roleKnown =>
    cases (record.get (ascii "error_category")).isElementOf errorCategories with
    | error e => simp [bind, Except.bind]
    | ok categoryKnown =>
      simp only [bind, Except.bind, pure, Except.pure, Except.ok.injEq, List.append_eq_nil_iff,
        List.flatMap_eq_nil_iff, problemIf_eq_nil_iff, negativeProblem, Bool.not_eq_false',
        and_assoc]

/-- What a record of success needs. -/
theorem successProblems_eq_nil_iff :
    successProblems python record = [] ↔
      (record.get (ascii "tls_version")).truthy = true ∧
        loweredText python record (ascii "negotiated_group") ≠ [] ∧
        (record.get (ascii "error_category")).isOneOf [none, some (ascii "none")] = true ∧
        ((record.get (ascii "tls_version")).truthy = true →
          (record.get (ascii "tls_version")).isOneOf
            [some (ascii "TLSv1.3"), some (ascii "TLS1.3")] = true) := by
  simp only [successProblems, List.append_eq_nil_iff, problemIf_eq_nil_iff, and_assoc]
  simp [List.isEmpty_eq_false_iff]

/-- What the claims about a named group need. -/
theorem groupProblems_eq_nil_iff {success claimsPq claimsHybrid : Bool} :
    groupProblems python record success claimsPq claimsHybrid = [] ↔
      (claimsPq = true → loweredText python record (ascii "negotiated_group") ∈ pqGroups) ∧
        (loweredText python record (ascii "negotiated_group") ∈ pqGroups → success = true →
          claimsPq = true) ∧
        (claimsHybrid = true →
          loweredText python record (ascii "negotiated_group") ∈ hybridGroups) := by
  simp only [groupProblems, List.append_eq_nil_iff, problemIf_eq_nil_iff, and_assoc]
  simp

/-- What `semantic_check` lets through. -/
theorem semanticCheck_eq_nil_iff :
    semanticCheck python record = [] ↔
      ((record.get (ascii "success")).isTrue = true → successProblems python record = []) ∧
        (loweredText python record (ascii "negotiated_group") ≠ [] →
          groupProblems python record (record.get (ascii "success")).isTrue
            (record.get (ascii "pq_key_establishment")).isTrue
            (record.get (ascii "hybrid_key_establishment")).isTrue = []) ∧
        ((record.get (ascii "hybrid_key_establishment")).isTrue = true →
          (record.get (ascii "pq_key_establishment")).isTrue = true) ∧
        ((record.get (ascii "pq_authentication")).isTrue = true →
          loweredText python record (ascii "authentication") ≠ [] →
          hasSignatureMarker (loweredText python record (ascii "authentication")) = true) ∧
        ((record.get (ascii "success")).isTrue = true →
          announcesPostQuantum
            (python.str ((record.lookup (ascii "requested_profile")).getD (.string []))) = true →
          loweredText python record (ascii "negotiated_group") ≠ [] →
          loweredText python record (ascii "negotiated_group") ∈ pqGroups) := by
  simp only [semanticCheck, List.append_eq_nil_iff, problemIf_eq_nil_iff, and_assoc]
  simp [List.isEmpty_iff]

end PqtlsLab.Validator
