import PqtlsLab.Foundation.JsonSchema
import PqtlsLab.Validator.RecordsPass
import PqtlsLab.Validator.SchemaCheck

/-!
# The schema of records

`metrics.schema.json` as a whole: the required and the permitted fields, what it says about each
of them, and three conditions that connect them. Which records conform is a matter of a few of
their fields; the records that client and server make of their connections all do.
-/

namespace PqtlsLab

namespace Validator

/-- `"type"` with one type. -/
def ofType (type : SchemaType) : JsonSchema := .keyword type.admits

/-- `"type"` with one type and `"null"`. -/
def ofTypeOrNull (type : SchemaType) : JsonSchema :=
  .keyword fun
    | .null => true
    | j => type.admits j

/-- `"minimum": 0`. -/
def minimumZero : JsonSchema := .keyword fun j => !j.isNegativeNumber

/-- `"minLength": 1`. -/
def notEmpty : JsonSchema :=
  .keyword fun
    | .string s => !s.isEmpty
    | _ => true

/-- `"const": true`. -/
def constTrue : JsonSchema := .keyword Json.isTrue

/-- `"enum"` with texts and `null`. -/
def enumOf (values : List (Option Bytes)) : JsonSchema := .keyword (Json.isOneOf values)

/-- `"type": "integer"` and `"minimum": 0`. -/
def counter : JsonSchema := .allOf [ofType .integer, minimumZero]

/-- The entries under `properties`. -/
def metricsProperties (dialect : Dialect) : List (Bytes × JsonSchema) :=
  [(ascii "schema_version",
      .allOf [ofType .integer, .keyword (Constraint.constOne.holds dialect)]),
    (ascii "experiment_id", ofType .string),
    (ascii "connection_id",
      .allOf [ofType .string, .keyword (Constraint.uuidPattern.holds dialect)]),
    (ascii "role",
      .allOf [ofType .string, enumOf [some (ascii "client"), some (ascii "server")]]),
    (ascii "requested_profile", ofType .string),
    (ascii "negotiated_profile", ofType .string),
    (ascii "tls_version", ofType .string),
    (ascii "negotiated_group", ofType .string),
    (ascii "cipher_suite", ofType .string),
    (ascii "authentication", ofType .string),
    (ascii "handshake_ms", .allOf [ofType .number, minimumZero]),
    (ascii "connection_ms", .allOf [ofType .number, minimumZero]),
    (ascii "application_bytes_sent", counter),
    (ascii "application_bytes_received", counter),
    (ascii "transport_bytes_sent", .allOf [ofTypeOrNull .integer, minimumZero]),
    (ascii "transport_bytes_received", .allOf [ofTypeOrNull .integer, minimumZero]),
    (ascii "session_reused", ofType .boolean),
    (ascii "success", ofType .boolean),
    (ascii "error_category", .allOf [ofTypeOrNull .string, enumOf errorCategories]),
    (ascii "error_message", ofTypeOrNull .string),
    (ascii "peer_address", ofType .string),
    (ascii "protocol_message_count", counter),
    (ascii "process_cpu_user_ms", .allOf [ofTypeOrNull .number, minimumZero]),
    (ascii "process_cpu_system_ms", .allOf [ofTypeOrNull .number, minimumZero]),
    (ascii "peak_memory_kib", .allOf [ofTypeOrNull .integer, minimumZero]),
    (ascii "timestamp", ofType .string),
    (ascii "pq_key_establishment", ofType .boolean),
    (ascii "hybrid_key_establishment", ofType .boolean),
    (ascii "pq_authentication", ofType .boolean)]

/-- A condition of the schema: what holds of other fields of a record in which one is `true`. -/
def whenTrue (key : Bytes) (consequences : List (Bytes × JsonSchema)) : JsonSchema :=
  .ifThen (.allOf [.properties [(key, constTrue)], .required [key]]) (.properties consequences)

/-- `metrics.schema.json`. -/
def metricsSchema (dialect : Dialect) : JsonSchema :=
  .allOf [.keyword Json.isDict, .required (requiredSchemas.map Prod.fst),
    .closed ((metricsProperties dialect).map Prod.fst), .properties (metricsProperties dialect),
    whenTrue (ascii "success")
      [(ascii "tls_version", notEmpty), (ascii "negotiated_group", notEmpty)],
    whenTrue (ascii "success") [(ascii "error_category", enumOf [none, some (ascii "none")])],
    whenTrue (ascii "hybrid_key_establishment") [(ascii "pq_key_establishment", constTrue)]]

/-- A time that may be missing, as the schema wants it: it is not negative, if it is a number. -/
def NotNegative (time : Option UInt64) : Prop :=
  ∀ bits, time = some bits → Json.finiteBits bits = true → Json.negativeBits bits = false

/-- What the schema wants of a record, in terms of its fields. -/
structure Conforms (dialect : Dialect) (m : ConnectionMetrics) : Prop where
  schemaVersion : m.schemaVersion = kMetricsSchemaVersion
  connectionId : matchesPattern dialect m.connectionId = true
  handshakeMs : IsDuration m.handshakeMs
  connectionMs : IsDuration m.connectionMs
  processCpuUserMs : NotNegative m.processCpuUserMs
  processCpuSystemMs : NotNegative m.processCpuSystemMs
  success : m.success = true →
    m.tlsVersion ≠ [] ∧ m.negotiatedGroup ≠ [] ∧ m.errorCategory = .none
  hybrid : m.hybridKeyEstablishment = true → m.pqKeyEstablishment = true

section Fallback

variable {python : Python} {record : Dict} {dialect : Dialect}

/-- What a conforming record has under a required key. -/
theorem exists_valid (h : (metricsSchema dialect).accepts (.object record) = true) {key : Bytes}
    {schema : JsonSchema} (hp : (key, schema) ∈ metricsProperties dialect)
    (hkey : key ∈ requiredSchemas.map Prod.fst) :
    ∃ v, record.lookup key = some v ∧ schema.accepts v = true := by
  simp only [metricsSchema, JsonSchema.accepts_allOf, List.forall_mem_cons] at h
  obtain ⟨-, hrequired, -, hproperties, -⟩ := h
  obtain ⟨v, hv⟩ := (JsonSchema.accepts_required _).mp hrequired key hkey
  exact ⟨v, hv, (JsonSchema.accepts_properties _).mp hproperties _ hp v hv⟩

/-- A text is what the check of texts expects. -/
theorem isInstance_of_string {v : Json} (h : (ofType .string).accepts v = true) :
    FieldType.str.isInstance v = true := by
  cases v <;> simp_all [ofType, SchemaType.admits, FieldType.isInstance]

/-- A number that is not negative is what the checks of the times expect. -/
theorem isInstance_of_time {v : Json}
    (h : (JsonSchema.allOf [ofType .number, minimumZero]).accepts v = true) :
    FieldType.number.isInstance v = true ∧ v.isNegativeNumber = false := by
  cases v <;> simp_all [ofType, minimumZero, SchemaType.admits, FieldType.isInstance]

/-- A truth value is what the check of truth values expects. -/
theorem isInstance_of_boolean {v : Json} (h : (ofType .boolean).accepts v = true) :
    FieldType.bool.isInstance v = true := by
  cases v <;> simp_all [ofType, SchemaType.admits, FieldType.isInstance]

/-- What matches the pattern in either dialect matches it in Python. -/
theorem matchesUuidV4_of_pattern {text : Bytes}
    (h : Constraint.uuidPattern.holds dialect (.string text) = true) :
    matchesUuidV4 text = true := by
  cases dialect with
  | python => exact h
  | ecma =>
    have hexact : afterClasses uuidV4Classes text = some [] := by
      simpa [Constraint.holds, matchesPattern] using h
    rw [matchesUuidV4, hexact]

/-- What the structural check wants of the category of an error is what the schema wants of it. -/
theorem errorCategory_of_valid (h : (metricsSchema dialect).accepts (.object record) = true) :
    (record.get (ascii "error_category")).isElementOf errorCategories = .ok true := by
  simp only [metricsSchema, JsonSchema.accepts_allOf, List.forall_mem_cons] at h
  obtain ⟨-, -, -, hproperties, -⟩ := h
  have hcategory := (JsonSchema.accepts_properties _).mp hproperties _
    (List.mem_of_getElem? (rfl : (metricsProperties dialect)[18]? = some _))
  rw [Dict.get]
  cases hv : record.lookup (ascii "error_category") with
  | none => decide
  | some v =>
    have hvalid := hcategory v hv
    rw [JsonSchema.accepts_allOf, List.forall_mem_cons, List.forall_mem_singleton] at hvalid
    obtain ⟨htype, hone⟩ := hvalid
    have hone : v.isOneOf errorCategories = true := hone
    rw [Option.getD_some, Json.isElementOf, hone]
    cases v <;> simp_all [ofTypeOrNull, SchemaType.admits, Json.hashable]

/-- A field that has to be no integer is in order if it has a value of its type. -/
theorem fieldProblem_of_ne_int {record : Dict} {key : Bytes} {kind : FieldType} {v : Json}
    (hkind : kind ≠ .int) (hv : record.lookup key = some v) (h : kind.isInstance v = true) :
    fieldProblem record key kind = [] :=
  fieldProblem_eq_nil_iff.mpr ⟨v, hv, h, fun heq => absurd heq hkind⟩

/-- The structural check finds nothing wrong with a record that is valid for the schema exactly if
the version of the schema is not written as a number with a fraction or an exponent. -/
theorem structural_check_of_schema_iff (python : Python) (dialect : Dialect) (record : Dict)
    (h : (metricsSchema dialect).accepts (.object record) = true) :
    builtinStructuralCheck python record = .ok [] ↔
      record.get (ascii "schema_version") = .int 1 := by
  have hentry (n : ℕ) {p : Bytes × JsonSchema} (hp : (metricsProperties dialect)[n]? = some p) :
      p ∈ metricsProperties dialect := List.mem_of_getElem? hp
  have htext (n : ℕ) {key : Bytes}
      (hp : (metricsProperties dialect)[n]? = some (key, ofType .string))
      (hkey : key ∈ requiredSchemas.map Prod.fst) : fieldProblem record key .str = [] := by
    obtain ⟨v, hv, haccepts⟩ := exists_valid h (hentry n hp) hkey
    exact fieldProblem_of_ne_int (by decide) hv (isInstance_of_string haccepts)
  obtain ⟨version, hversion, hversionValid⟩ := exists_valid h (hentry 0 rfl) (by decide)
  obtain ⟨id, hid, hidValid⟩ := exists_valid h (hentry 2 rfl) (by decide)
  obtain ⟨role, hrole, hroleValid⟩ := exists_valid h (hentry 3 rfl) (by decide)
  obtain ⟨handshake, hhandshake, hhandshakeValid⟩ := exists_valid h (hentry 10 rfl) (by decide)
  obtain ⟨connection, hconnection, hconnectionValid⟩ := exists_valid h (hentry 11 rfl) (by decide)
  obtain ⟨success, hsuccess, hsuccessValid⟩ := exists_valid h (hentry 17 rfl) (by decide)
  rw [JsonSchema.accepts_allOf, List.forall_mem_cons, List.forall_mem_singleton] at hidValid
  rw [JsonSchema.accepts_allOf, List.forall_mem_cons, List.forall_mem_singleton] at hroleValid
  rw [builtinStructuralCheck_eq_nil_iff, get_of_lookup hversion, get_of_lookup hid,
    get_of_lookup hrole, get_of_lookup hhandshake, get_of_lookup hconnection]
  constructor
  · rintro ⟨hfields, hone, -⟩
    obtain ⟨v, hv, hinstance, hint⟩ :=
      fieldProblem_eq_nil_iff.mp (hfields (ascii "schema_version", .int) (by simp [requiredFields]))
    obtain rfl := Option.some.inj (hversion.symm.trans hv)
    have hbool := hint rfl
    cases version <;> simp_all [FieldType.isInstance, Json.equalsOne]
  · rintro rfl
    refine ⟨?_, rfl, ?_, ?_, errorCategory_of_valid h, (isInstance_of_time hhandshakeValid).2,
      (isInstance_of_time hconnectionValid).2⟩
    · have hidField : fieldProblem record (ascii "connection_id") .str = [] :=
        fieldProblem_of_ne_int (by decide) hid (isInstance_of_string hidValid.1)
      have hroleField : fieldProblem record (ascii "role") .str = [] :=
        fieldProblem_of_ne_int (by decide) hrole (isInstance_of_string hroleValid.1)
      have hversionField : fieldProblem record (ascii "schema_version") .int = [] :=
        fieldProblem_eq_nil_iff.mpr ⟨_, hversion, rfl, fun _ => rfl⟩
      have hhandshakeField : fieldProblem record (ascii "handshake_ms") .number = [] :=
        fieldProblem_of_ne_int (by decide) hhandshake (isInstance_of_time hhandshakeValid).1
      have hconnectionField : fieldProblem record (ascii "connection_ms") .number = [] :=
        fieldProblem_of_ne_int (by decide) hconnection (isInstance_of_time hconnectionValid).1
      have hsuccessField : fieldProblem record (ascii "success") .bool = [] :=
        fieldProblem_of_ne_int (by decide) hsuccess (isInstance_of_boolean hsuccessValid)
      simp only [requiredFields, List.forall_mem_cons, List.not_mem_nil, false_imp_iff,
        implies_true, and_true]
      exact ⟨hversionField, hidField, hroleField, htext 4 rfl (by decide), htext 6 rfl (by decide),
        htext 7 rfl (by decide), htext 8 rfl (by decide), hhandshakeField, hconnectionField,
        hsuccessField, htext 25 rfl (by decide)⟩
    · cases id with
      | string text => simpa [connectionIdProblem] using matchesUuidV4_of_pattern hidValid.2
      | _ => rfl
    · have hone : role.isOneOf [some (ascii "client"), some (ascii "server")] = true := hroleValid.2
      rw [Json.isElementOf, hone]
      cases role <;> simp_all [ofType, SchemaType.admits, Json.hashable]

/-- A record that is valid for the schema and has an integer for the version passes the structural
check. -/
theorem structural_check_of_schema_integer :
    (metricsSchema .ecma).accepts (.object (recordWith (.int 3))) = true ∧
      builtinStructuralCheck Python.ofAscii (recordWith (.int 3)) = .ok [] := by
  have hvalid : (metricsSchema .ecma).accepts (.object (recordWith (.int 3))) = true := by decide
  exact ⟨hvalid, (structural_check_of_schema_iff Python.ofAscii .ecma _ hvalid).mpr rfl⟩

end Fallback

section Records

variable {dialect : Dialect} {m : ConnectionMetrics}

/-- The keys of a record are those of its fields. -/
theorem keys_loadedRecord {member : Bytes × Json} (h : member ∈ m.loadedRecord) :
    member.1 ∈ m.fields.map Prod.fst := by
  have hfold (fields : List (Bytes × JsonValue)) (doc : JsonValue) {key : Bytes}
      (hkey : key ∈ (fields.foldl (fun doc field => doc.set field.1 field.2) doc).members.map
        Prod.fst) :
      key ∈ doc.members.map Prod.fst ∨ key ∈ fields.map Prod.fst := by
    induction fields generalizing doc with
    | nil => exact .inl hkey
    | cons field fields ih =>
      rcases ih (doc.set field.1 field.2) hkey with hkey | hkey
      · rw [JsonValue.members_set] at hkey
        rcases Json.mem_keys_setMember hkey with rfl | hkey
        · exact .inr (by simp)
        · exact .inl hkey
      · exact .inr (by simp [hkey])
  have hloaded (ms : List (Bytes × Json)) :
      (Json.loadedMembers ms).map Prod.fst = ms.map Prod.fst := by
    induction ms with
    | nil => rfl
    | cons m ms ih =>
      obtain ⟨key, v⟩ := m
      rw [Json.loadedMembers, List.map_cons, List.map_cons, ih]
  have hkey := List.mem_map_of_mem (f := Prod.fst) h
  rw [ConnectionMetrics.loadedRecord, hloaded] at hkey
  rcases hfold m.fields JsonValue.null hkey with hnull | hkey
  · simp [JsonValue.null, JsonValue.members] at hnull
  · exact hkey

/-- A field of a record is found under its key. -/
theorem lookup_field {field : Bytes × JsonValue} (h : field ∈ m.fields) :
    m.loadedRecord.lookup field.1 = some field.2.val.loaded := by
  have hnodup : (m.fields.map Prod.fst).Nodup := by
    rw [ConnectionMetrics.keys_fields]
    decide +kernel
  rw [ConnectionMetrics.loadedRecord, Json.lookup_loadedMembers]
  exact congrArg (Option.map Json.loaded) (JsonValue.lookup_foldl_set hnodup h JsonValue.null)

/-- Some fields of a record are valid if the value of each is, as it is read. -/
theorem accepts_fields {members : List (Bytes × JsonSchema)} {fields : List (Bytes × JsonValue)}
    (hkeys : members.map Prod.fst = fields.map Prod.fst) (hfields : fields ⊆ m.fields) :
    (∀ p ∈ members, ∀ v, m.loadedRecord.lookup p.1 = some v → p.2.accepts v = true) ↔
      List.Forall₂ (fun p field => p.2.accepts field.2.val.loaded = true) members fields := by
  induction members generalizing fields with
  | nil =>
    obtain rfl := List.map_eq_nil_iff.mp hkeys.symm
    simp
  | cons p members ih =>
    cases fields with
    | nil => cases hkeys
    | cons field fields =>
      obtain ⟨hkey, hkeys⟩ := List.cons.inj hkeys
      obtain ⟨hfield, hfields⟩ := List.cons_subset.mp hfields
      rw [List.forall_mem_cons, List.forall₂_cons, ih hkeys hfields, hkey, lookup_field hfield]
      simp

/-- The schema of texts is about the type. -/
@[simp] theorem accepts_string (s : Bytes) :
    (ofType .string).accepts (JsonValue.string s).val.loaded = true := rfl

@[simp] theorem accepts_bool (b : Bool) :
    (ofType .boolean).accepts (JsonValue.bool b).val.loaded = true := rfl

@[simp] theorem accepts_optional_string (s : Option Bytes) :
    (ofTypeOrNull .string).accepts (JsonValue.ofOption .string s).val.loaded = true := by
  cases s <;> rfl

@[simp] theorem accepts_role (role : Role) :
    (JsonSchema.allOf
      [ofType .string, enumOf [some (ascii "client"), some (ascii "server")]]).accepts
      (JsonValue.string role.toText).val.loaded = true := by
  cases role <;> rfl

@[simp] theorem accepts_errorCategory (category : ErrorCategory) :
    (JsonSchema.allOf [ofTypeOrNull .string, enumOf errorCategories]).accepts
      (if category = .none then JsonValue.null
        else .string category.toText).val.loaded = true := by
  cases category <;> rfl

/-- An unsigned number is a counter. -/
@[simp] theorem accepts_counter (n : UInt64) :
    counter.accepts (JsonValue.uint n).val.loaded = true := by
  simp [counter, ofType, minimumZero, JsonValue.uint, Json.loaded, SchemaType.admits,
    Json.isNegativeNumber]

@[simp] theorem accepts_optional_counter (n : Option UInt64) :
    (JsonSchema.allOf [ofTypeOrNull .integer, minimumZero]).accepts
      (JsonValue.ofOption .uint n).val.loaded = true := by
  cases n with
  | none => rfl
  | some n =>
    simp [ofTypeOrNull, minimumZero, JsonValue.ofOption, JsonValue.uint, Json.loaded,
      SchemaType.admits, Json.isNegativeNumber]

/-- The version of the schema is a constant. -/
@[simp] theorem accepts_schemaVersion (i : Int32) :
    (JsonSchema.allOf [ofType .integer, .keyword (Constraint.constOne.holds dialect)]).accepts
      (JsonValue.int i).val.loaded = true ↔ i = kMetricsSchemaVersion := by
  have hone : i.toInt = 1 ↔ i = kMetricsSchemaVersion := by
    rw [← Int32.toInt_inj]
    rfl
  simp [ofType, JsonValue.int, Json.loaded, SchemaType.admits, Constraint.holds, hone]

/-- The identifier is a text with a pattern. -/
@[simp] theorem accepts_connectionId (id : Bytes) :
    (JsonSchema.allOf [ofType .string, .keyword (Constraint.uuidPattern.holds dialect)]).accepts
      (JsonValue.string id).val.loaded = true ↔ matchesPattern dialect id = true := by
  simp [ofType, JsonValue.string, Json.loaded, SchemaType.admits, Constraint.holds]

/-- A time is a number that is not negative. -/
@[simp] theorem accepts_time (bits : UInt64) :
    (JsonSchema.allOf [ofType .number, minimumZero]).accepts (JsonValue.float bits).val.loaded =
      true ↔ IsDuration bits := by
  unfold IsDuration
  by_cases hfinite : Json.finiteBits bits = true
  · simp [ofType, minimumZero, JsonValue.float, Json.loaded, hfinite, SchemaType.admits,
      Json.isNegativeNumber]
  · simp [ofType, minimumZero, JsonValue.float, Json.loaded, hfinite, SchemaType.admits]

/-- A time that may be missing is a number that is not negative, or it is missing. -/
@[simp] theorem accepts_optional_time (time : Option UInt64) :
    (JsonSchema.allOf [ofTypeOrNull .number, minimumZero]).accepts
      (JsonValue.ofOption .float time).val.loaded = true ↔ NotNegative time := by
  unfold NotNegative
  cases time with
  | none => simp [JsonValue.ofOption, JsonValue.null, Json.loaded, ofTypeOrNull, minimumZero,
      Json.isNegativeNumber]
  | some bits =>
    by_cases hfinite : Json.finiteBits bits = true
    · simp [ofTypeOrNull, minimumZero, JsonValue.ofOption, JsonValue.float, Json.loaded, hfinite,
        SchemaType.admits, Json.isNegativeNumber]
    · simp [ofTypeOrNull, minimumZero, JsonValue.ofOption, JsonValue.float, Json.loaded, hfinite,
        Json.isNegativeNumber]

/-- What the schema says about the fields of a record, one by one. -/
theorem accepts_metricsProperties :
    (JsonSchema.properties (metricsProperties dialect)).accepts (.object m.loadedRecord) = true ↔
      m.schemaVersion = kMetricsSchemaVersion ∧
        matchesPattern dialect m.connectionId = true ∧ IsDuration m.handshakeMs ∧
        IsDuration m.connectionMs ∧ NotNegative m.processCpuUserMs ∧
        NotNegative m.processCpuSystemMs := by
  rw [JsonSchema.accepts_properties, @accepts_fields m _ m.fields rfl (List.Subset.refl _)]
  simp only [metricsProperties, ConnectionMetrics.fields, List.forall₂_cons,
    List.forall₂_nil_left_iff, accepts_string, accepts_bool, accepts_optional_string,
    accepts_role, accepts_errorCategory, accepts_counter, accepts_optional_counter,
    accepts_schemaVersion, accepts_connectionId, accepts_time, accepts_optional_time, true_and,
    and_true]

/-- A truth value of a record is `true` for the schema if it is. -/
theorem accepts_whenTrue {key : Bytes} {b : Bool} (h : m.fields.lookup key = some (.bool b))
    (consequences : List (Bytes × JsonSchema)) :
    (whenTrue key consequences).accepts (.object m.loadedRecord) = true ↔
      (b = true →
        (JsonSchema.properties consequences).accepts (.object m.loadedRecord) = true) := by
  have hlookup := ConnectionMetrics.lookup_loadedRecord h
  have hcondition : (JsonSchema.allOf [.properties [(key, constTrue)], .required [key]]).accepts
      (.object m.loadedRecord) = true ↔ b = true := by
    simp [hlookup, constTrue, JsonValue.bool, Json.loaded, Json.isTrue]
  rw [whenTrue, JsonSchema.accepts_ifThen, hcondition]

/-- A text of a record is not empty for the schema if it is not. -/
theorem accepts_notEmpty {key text : Bytes} (h : m.fields.lookup key = some (.string text))
    {v : Json} (hv : m.loadedRecord.lookup key = some v) :
    notEmpty.accepts v = true ↔ text ≠ [] := by
  rw [ConnectionMetrics.lookup_loadedRecord h] at hv
  cases hv
  simp [notEmpty, JsonValue.string, Json.loaded]

/-- A success names what has been negotiated. -/
theorem accepts_success :
    (whenTrue (ascii "success")
      [(ascii "tls_version", notEmpty), (ascii "negotiated_group", notEmpty)]).accepts
        (.object m.loadedRecord) = true ↔
      (m.success = true → m.tlsVersion ≠ [] ∧ m.negotiatedGroup ≠ []) := by
  have htls := @ConnectionMetrics.lookup_loadedRecord m (ascii "tls_version") _ rfl
  have hgroup := @ConnectionMetrics.lookup_loadedRecord m (ascii "negotiated_group") _ rfl
  rw [@accepts_whenTrue m (ascii "success") m.success rfl, JsonSchema.accepts_properties]
  simp only [List.forall_mem_cons, List.not_mem_nil, false_imp_iff, implies_true, and_true, htls,
    hgroup, Option.some.injEq, forall_eq', @accepts_notEmpty m (ascii "tls_version") _ rfl _ htls,
    @accepts_notEmpty m (ascii "negotiated_group") _ rfl _ hgroup]

/-- A success has no category of error. -/
theorem accepts_success_category :
    (whenTrue (ascii "success")
      [(ascii "error_category", enumOf [none, some (ascii "none")])]).accepts
        (.object m.loadedRecord) = true ↔ (m.success = true → m.errorCategory = .none) := by
  have hcategory := @ConnectionMetrics.lookup_loadedRecord m (ascii "error_category") _ rfl
  rw [@accepts_whenTrue m (ascii "success") m.success rfl, JsonSchema.accepts_properties]
  simp only [List.forall_mem_cons, List.not_mem_nil, false_imp_iff, implies_true, and_true,
    hcategory, Option.some.injEq, forall_eq']
  refine forall_congr' fun _ => ?_
  cases m.errorCategory <;> decide

/-- What is hybrid is post-quantum. -/
theorem accepts_hybrid :
    (whenTrue (ascii "hybrid_key_establishment")
      [(ascii "pq_key_establishment", constTrue)]).accepts
        (.object m.loadedRecord) = true ↔
      (m.hybridKeyEstablishment = true → m.pqKeyEstablishment = true) := by
  have hpq := @ConnectionMetrics.lookup_loadedRecord m (ascii "pq_key_establishment") _ rfl
  rw [@accepts_whenTrue m (ascii "hybrid_key_establishment") m.hybridKeyEstablishment rfl,
    JsonSchema.accepts_properties]
  simp only [List.forall_mem_cons, List.not_mem_nil, false_imp_iff, implies_true, and_true, hpq,
    Option.some.injEq, forall_eq']
  rfl

/-- A record has the required fields. -/
theorem accepts_requiredFields :
    (JsonSchema.required (requiredSchemas.map Prod.fst)).accepts (.object m.loadedRecord) =
      true := by
  rw [JsonSchema.accepts_required]
  intro key hkey
  have hall : ∀ key ∈ requiredSchemas.map Prod.fst,
      key ∈ ({} : ConnectionMetrics).fields.map Prod.fst := by decide +kernel
  have hmem := hall key hkey
  rw [← m.keys_fields] at hmem
  obtain ⟨field, hfield, rfl⟩ := List.mem_map.mp hmem
  exact ⟨_, lookup_field hfield⟩

/-- A record has no other fields. -/
theorem accepts_noOtherFields :
    (JsonSchema.closed ((metricsProperties dialect).map Prod.fst)).accepts
      (.object m.loadedRecord) = true := by
  rw [JsonSchema.accepts_closed]
  exact fun member hmember => keys_loadedRecord hmember

/-- Which records conform to the schema. -/
theorem metricsSchema_accepts_iff :
    (metricsSchema dialect).accepts (.object m.loadedRecord) = true ↔ Conforms dialect m := by
  rw [metricsSchema, JsonSchema.accepts_allOf]
  simp only [List.forall_mem_cons, List.not_mem_nil, false_imp_iff, implies_true, and_true,
    accepts_requiredFields, accepts_noOtherFields, accepts_metricsProperties, accepts_success,
    accepts_success_category, accepts_hybrid, true_and]
  constructor
  · rintro ⟨-, ⟨hversion, hid, hhandshake, hconnection, huser, hsystem⟩, hnamed, hcategory, hhybrid⟩
    exact ⟨hversion, hid, hhandshake, hconnection, huser, hsystem,
      fun hok => ⟨(hnamed hok).1, (hnamed hok).2, hcategory hok⟩, hhybrid⟩
  · intro h
    exact ⟨rfl, ⟨h.schemaVersion, h.connectionId, h.handshakeMs, h.connectionMs,
      h.processCpuUserMs, h.processCpuSystemMs⟩,
      fun hok => ⟨(h.success hok).1, (h.success hok).2.1⟩, fun hok => (h.success hok).2.2, h.hybrid⟩

/-- A generated identifier matches the pattern in both dialects. -/
theorem matchesPattern_generateUuidV4 (dialect : Dialect) (bytes : Entropy) :
    matchesPattern dialect (generateUuidV4 bytes) = true := by
  refine (matchesPattern_iff (matches_generateUuidV4 bytes)).mpr fun _ hnewline => ?_
  exact absurd (plain_generateUuidV4 bytes 0x0A hnewline).2 (by decide)

/-- An acceptable record conforms, if its identifier has been generated and the system has reported
times that are not negative. -/
theorem conforms_of_acceptable (h : Acceptable m)
    (hid : ∃ bytes, m.connectionId = generateUuidV4 bytes)
    (huser : NotNegative m.processCpuUserMs) (hsystem : NotNegative m.processCpuSystemMs) :
    Conforms dialect m where
  schemaVersion := h.schemaVersion
  connectionId := by
    obtain ⟨bytes, hbytes⟩ := hid
    rw [hbytes]
    exact matchesPattern_generateUuidV4 dialect bytes
  handshakeMs := h.handshakeMs
  connectionMs := h.connectionMs
  processCpuUserMs := huser
  processCpuSystemMs := hsystem
  success hok := by
    obtain ⟨hcategory, htls, hgroup⟩ := h.success hok
    exact ⟨by rw [htls]; decide, hgroup, hcategory⟩
  hybrid hhybrid := by
    rw [h.hybrid] at hhybrid
    rw [h.pq, isPostQuantumGroup, hhybrid, Bool.true_or]

end Records

end Validator

open Validator

/-- The times that the system reports are not negative. -/
structure ResourceUsage.Reported (usage : ResourceUsage) : Prop where
  cpuUserMs : NotNegative usage.cpuUserMs
  cpuSystemMs : NotNegative usage.cpuSystemMs

/-- A time that is missing is not negative. -/
theorem notNegative_none : NotNegative none := nofun

/-- The record of a client has a generated identifier and the reported times, if any. -/
theorem ClientAttempt.generated (a : ClientAttempt) (husage : a.usage.Reported) :
    (∃ bytes, a.clientResult.metrics.connectionId = generateUuidV4 bytes) ∧
      NotNegative a.clientResult.metrics.processCpuUserMs ∧
      NotNegative a.clientResult.metrics.processCpuSystemMs := by
  have hne (bytes : Entropy) : (generateUuidV4 bytes).isEmpty = false := by
    rw [List.isEmpty_eq_false_iff, ← List.length_pos_iff, length_generateUuidV4]
    decide
  cases hresult : a.connectAndExchange.result with
  | error e =>
    simp only [clientResult, outcomeOrError, hresult]
    exact ⟨⟨_, rfl⟩, notNegative_none, notNegative_none⟩
  | ok r =>
    obtain ⟨x, hx⟩ := exchange_of_result hresult
    obtain ⟨peer, decoder, -, -, -, -, hexchange⟩ := policy_of_exchange hx
    rw [hresult, exchangeResult] at hexchange
    split at hexchange
    · cases hexchange
    · cases hexchange
      simp only [clientResult, outcomeOrError, hresult]
      refine ⟨⟨a.label.entropy, ?_⟩, husage.cpuUserMs, husage.cpuSystemMs⟩
      simp [completeRecord, negotiatedRecord, hne]

/-- The record of a server has a generated identifier and the reported times. -/
theorem ServerAttempt.generated (a : ServerAttempt) (husage : a.usage.Reported) :
    (∃ bytes, a.handleConnection.record.connectionId = generateUuidV4 bytes) ∧
      NotNegative a.handleConnection.record.processCpuUserMs ∧
      NotNegative a.handleConnection.record.processCpuSystemMs := by
  obtain ⟨record, hrecord, hid⟩ : ∃ record, a.handleConnection.record = a.conclude record ∧
      record.connectionId = generateUuidV4 a.label.entropy := by
    unfold handleConnection
    split
    · exact ⟨_, rfl, rfl⟩
    · split
      · exact ⟨_, rfl, rfl⟩
      · split
        · exact ⟨_, rfl, rfl⟩
        · refine ⟨_, rfl, ?_⟩
          unfold loopRecord
          split <;> rfl
  rw [hrecord]
  exact ⟨⟨_, hid⟩, husage.cpuUserMs, husage.cpuSystemMs⟩

/-- Whatever becomes of a connection, the record that client or server make of it is valid for the
whole of `metrics.schema.json`, whichever dialect of regular expressions its validator has. -/
theorem records_conform_to_schema (dialect : Dialect) :
    (∀ a : ClientAttempt, (∀ o, a.Completes o → o.Reported) → IsDuration a.handshakeMs →
      IsDuration a.connectionMs → a.usage.Reported →
      (metricsSchema dialect).accepts a.clientResult.metrics.toJson.val.loaded = true) ∧
    (∀ a : ServerAttempt, (∀ o, a.Completes o → o.Reported) → IsDuration a.handshakeMs →
      IsDuration a.connectionMs → a.usage.Reported →
      (metricsSchema dialect).accepts a.handleConnection.record.toJson.val.loaded = true) := by
  constructor
  · intro a hreported hhandshake hconnection husage
    obtain ⟨hid, huser, hsystem⟩ := a.generated husage
    rw [ConnectionMetrics.loaded_toJson, metricsSchema_accepts_iff]
    exact conforms_of_acceptable (a.acceptable hreported hhandshake hconnection) hid huser hsystem
  · intro a hreported hhandshake hconnection husage
    obtain ⟨hid, huser, hsystem⟩ := a.generated husage
    rw [ConnectionMetrics.loaded_toJson, metricsSchema_accepts_iff]
    exact conforms_of_acceptable (a.acceptable hreported hhandshake hconnection) hid huser hsystem

/-- The records of an unexceptional connection conform. -/
theorem records_conform_to_schema_builtin :
    let client := ClientAttempt.sample Message.minimalLibrary SslView.sample []
    let server := ServerAttempt.sample Message.minimalLibrary []
    (metricsSchema .ecma).accepts client.clientResult.metrics.toJson.val.loaded = true ∧
      (metricsSchema .ecma).accepts server.handleConnection.record.toJson.val.loaded = true := by
  intro client server
  obtain ⟨hclient, hserver⟩ := records_conform_to_schema .ecma
  have hreported : (inspect SslView.sample).Reported := ⟨rfl, by decide, by decide⟩
  have husage : (⟨none, none, none⟩ : ResourceUsage).Reported := ⟨nofun, nofun⟩
  constructor
  · apply hclient client _ isDuration_zero isDuration_zero husage
    rintro o ⟨-, -, rfl⟩
    exact hreported
  · apply hserver server _ isDuration_zero isDuration_zero husage
    rintro o ⟨-, -, rfl⟩
    exact hreported

end PqtlsLab
