import PqtlsLab.Connection.Metrics
import Mathlib.Data.List.Nodup

/-!
# When a record can be written

The writer of the JSON library throws on text that is not UTF-8. The keys of a record
are constants, so whether it can be written depends on the texts among its values.
-/

namespace PqtlsLab

/-- Assignment to a new key adds the texts of that member. -/
theorem Json.textValidMembers_setMember {ms : List (Bytes × Json)} {key : Bytes} (v : Json)
    (hnew : key ∉ ms.map Prod.fst) :
    Json.textValidMembers (Json.setMember key v ms) =
      (Utf8.valid key && v.textValid && Json.textValidMembers ms) := by
  induction ms with
  | nil => rfl
  | cons m ms ih =>
    obtain ⟨k, w⟩ := m
    simp only [List.map_cons, List.mem_cons, not_or] at hnew
    unfold Json.setMember
    split
    · rfl
    · rw [if_neg hnew.1, Json.textValidMembers, ih hnew.2, Json.textValidMembers]
      ac_rfl

namespace JsonValue

/-- The members of an object; other values count as empty. -/
def members (j : JsonValue) : List (Bytes × Json) :=
  match j.val with
  | .object ms => ms
  | _ => []

/-- The members after an assignment. -/
theorem members_set (j : JsonValue) (key : Bytes) (value : JsonValue) :
    (j.set key value).members = Json.setMember key value.val j.members := by
  obtain ⟨tree, htree⟩ := j
  cases tree <;> rfl

/-- Assignment makes an object. -/
theorem set_eq_object (j : JsonValue) (key : Bytes) (value : JsonValue) :
    (j.set key value).val = .object (j.set key value).members := by
  obtain ⟨tree, htree⟩ := j
  cases tree <;> rfl

/-- Assignments make an object. -/
theorem foldl_set_eq_object {fields : List (Bytes × JsonValue)} (hne : fields ≠ [])
    (doc : JsonValue) :
    (fields.foldl (fun doc field => doc.set field.1 field.2) doc).val =
      .object (fields.foldl (fun doc field => doc.set field.1 field.2) doc).members := by
  induction fields generalizing doc with
  | nil => exact absurd rfl hne
  | cons field fields ih =>
    rw [List.foldl_cons]
    cases hfields : fields with
    | nil => exact doc.set_eq_object field.1 field.2
    | cons _ _ => exact hfields ▸ ih (by simp [hfields]) (doc.set field.1 field.2)

/-- The texts of an object after assignments to new and different keys. -/
theorem textValidMembers_foldl_set (fields : List (Bytes × JsonValue)) (doc : JsonValue)
    (hnodup : (fields.map Prod.fst).Nodup)
    (hnew : ∀ key ∈ fields.map Prod.fst, key ∉ doc.members.map Prod.fst) :
    Json.textValidMembers (fields.foldl (fun doc field => doc.set field.1 field.2) doc).members =
      (Json.textValidMembers doc.members &&
        fields.all fun field => Utf8.valid field.1 && field.2.val.textValid) := by
  induction fields generalizing doc with
  | nil => simp
  | cons field fields ih =>
    simp only [List.map_cons, List.nodup_cons, List.mem_cons, forall_eq_or_imp] at hnodup hnew
    obtain ⟨hfresh, hnodup⟩ := hnodup
    obtain ⟨hfirst, hrest⟩ := hnew
    rw [List.foldl_cons, ih (doc.set field.1 field.2) hnodup, members_set,
      Json.textValidMembers_setMember _ hfirst, List.all_cons]
    · ac_rfl
    · intro key hkey hmem
      rw [members_set] at hmem
      rcases Json.mem_keys_setMember hmem with rfl | hmem
      · exact hfresh hkey
      · exact hrest key hkey hmem

@[simp] theorem textValid_int (i : Int32) : (int i).val.textValid = true := rfl

@[simp] theorem textValid_uint (n : UInt64) : (uint n).val.textValid = true := rfl

@[simp] theorem textValid_float (bits : UInt64) : (float bits).val.textValid = true := rfl

@[simp] theorem textValid_bool (b : Bool) : (bool b).val.textValid = true := rfl

@[simp] theorem textValid_string (s : Bytes) : (string s).val.textValid = Utf8.valid s := rfl

@[simp] theorem textValid_ofOption_uint (n : Option UInt64) :
    (ofOption uint n).val.textValid = true := by
  cases n <;> rfl

@[simp] theorem textValid_ofOption_float (bits : Option UInt64) :
    (ofOption float bits).val.textValid = true := by
  cases bits <;> rfl

@[simp] theorem textValid_ofOption_string (s : Option Bytes) :
    (ofOption string s).val.textValid = true ↔
      ∀ text, s = some text → Utf8.valid text = true := by
  cases s <;> simp [ofOption, null, Json.textValid]

end JsonValue

namespace ConnectionMetrics

/-- The texts of a record are UTF-8. -/
structure TextValid (m : ConnectionMetrics) : Prop where
  experimentId : Utf8.valid m.experimentId = true
  connectionId : Utf8.valid m.connectionId = true
  requestedProfile : Utf8.valid m.requestedProfile = true
  negotiatedProfile : Utf8.valid m.negotiatedProfile = true
  tlsVersion : Utf8.valid m.tlsVersion = true
  negotiatedGroup : Utf8.valid m.negotiatedGroup = true
  cipherSuite : Utf8.valid m.cipherSuite = true
  authentication : Utf8.valid m.authentication = true
  errorMessage : ∀ message, m.errorMessage = some message → Utf8.valid message = true
  peerAddress : Utf8.valid m.peerAddress = true
  timestamp : Utf8.valid m.timestamp = true

/-- The keys of a record are constants. -/
theorem keys_fields (m : ConnectionMetrics) :
    m.fields.map Prod.fst = ({} : ConnectionMetrics).fields.map Prod.fst := rfl

/-- The texts of a record as it is written are those of its fields. -/
theorem textValid_toJson (m : ConnectionMetrics) :
    m.toJson.val.textValid = m.fields.all fun field => field.2.val.textValid := by
  have hobject : m.toJson.val = .object m.toJson.members :=
    JsonValue.foldl_set_eq_object (List.cons_ne_nil _ _) JsonValue.null
  have hnodup : (m.fields.map Prod.fst).Nodup := by
    rw [keys_fields]
    decide +kernel
  have hkeys : ∀ key ∈ m.fields.map Prod.fst, Utf8.valid key = true := by
    rw [keys_fields]
    decide +kernel
  have hfold := JsonValue.textValidMembers_foldl_set m.fields JsonValue.null hnodup
    (by simp [JsonValue.members, JsonValue.null])
  rw [hobject, Json.textValid]
  refine hfold.trans ?_
  simp only [JsonValue.members, JsonValue.null, Json.textValidMembers, Bool.true_and]
  rw [Bool.eq_iff_iff, List.all_eq_true, List.all_eq_true]
  refine forall₂_congr fun field hfield => ?_
  rw [hkeys _ (List.mem_map_of_mem hfield), Bool.true_and]

/-- A record can be written exactly when its texts are UTF-8. -/
theorem textValid_toJson_iff (m : ConnectionMetrics) :
    m.toJson.val.textValid = true ↔ m.TextValid := by
  have hrole : Utf8.valid m.role.toText = true := by
    cases m.role <;> decide
  have hcategory : (if m.errorCategory = .none then JsonValue.null
      else .string m.errorCategory.toText).val.textValid = true := by
    cases m.errorCategory <;> decide
  rw [textValid_toJson, List.all_eq_true]
  simp only [fields, List.mem_cons, List.not_mem_nil, or_false, forall_eq_or_imp, forall_eq,
    JsonValue.textValid_int, JsonValue.textValid_uint, JsonValue.textValid_float,
    JsonValue.textValid_bool, JsonValue.textValid_string, JsonValue.textValid_ofOption_uint,
    JsonValue.textValid_ofOption_float, JsonValue.textValid_ofOption_string, hrole, hcategory,
    true_and, and_true]
  constructor
  · rintro ⟨h₁, h₂, h₃, h₄, h₅, h₆, h₇, h₈, h₉, h₁₀, h₁₁⟩
    exact ⟨h₁, h₂, h₃, h₄, h₅, h₆, h₇, h₈, h₉, h₁₀, h₁₁⟩
  · rintro ⟨h₁, h₂, h₃, h₄, h₅, h₆, h₇, h₈, h₉, h₁₀, h₁₁⟩
    exact ⟨h₁, h₂, h₃, h₄, h₅, h₆, h₇, h₈, h₉, h₁₀, h₁₁⟩

/-- The line of a record is its compact text, if its texts are UTF-8. -/
theorem toJsonlLine_eq_ok_iff (lib : JsonLibrary) (m : ConnectionMetrics) (text : Bytes) :
    m.toJsonlLine lib = .ok text ↔ m.TextValid ∧ text = m.toJson.val.render lib.floatText := by
  rw [← m.textValid_toJson_iff]
  unfold toJsonlLine JsonLibrary.dump
  by_cases hvalid : m.toJson.val.textValid = true
  · simp [hvalid, @eq_comm _ text]
  · simp [hvalid]

end ConnectionMetrics

namespace MetricsWriter

/-- The writer returns unless it is enabled and the record has text that is not UTF-8. -/
theorem write_eq_ok_iff (lib : JsonLibrary) (w : MetricsWriter) (m : ConnectionMetrics) :
    (w.write lib m).2 = .ok () ↔ (w.enabled = true → m.TextValid) := by
  rw [← m.textValid_toJson_iff]
  unfold write ConnectionMetrics.toJsonlLine JsonLibrary.dump
  by_cases henabled : w.enabled = true
  · by_cases hvalid : m.toJson.val.textValid = true
    · simp [henabled, hvalid]
    · simp [henabled, hvalid]
  · simp [henabled]

/-- Records whose texts are UTF-8 are appended by an enabled writer, each as one line. -/
theorem foldl_write (lib : JsonLibrary) {records : List ConnectionMetrics}
    (h : ∀ m ∈ records, m.TextValid) (w : MetricsWriter) (henabled : w.enabled = true) :
    records.foldl (fun w m => (w.write lib m).1) w =
      { w with
        records := w.records ++ records
        lines := w.lines ++ records.map fun m => m.toJson.val.render lib.floatText } := by
  induction records generalizing w with
  | nil => simp
  | cons m records ih =>
    have hline := (m.toJsonlLine_eq_ok_iff lib _).mpr ⟨h m (by simp), rfl⟩
    have hwrite : (w.write lib m).1 =
        { w with
          records := w.records ++ [m]
          lines := w.lines ++ [m.toJson.val.render lib.floatText] } := by
      simp [write, henabled, hline]
    rw [List.foldl_cons, hwrite, ih (fun m' hm' => h m' (by simp [hm'])) _ (by exact henabled)]
    simp

/-- An enabled writer that returns has appended the record. -/
theorem records_of_write {lib : JsonLibrary} {w : MetricsWriter} {m : ConnectionMetrics}
    (henabled : w.enabled = true) (h : (w.write lib m).2 = .ok ()) :
    (w.write lib m).1.records = w.records ++ [m] := by
  unfold write at h ⊢
  simp only [henabled, Bool.not_true, Bool.false_eq_true, if_false] at h ⊢
  cases hline : m.toJsonlLine lib with
  | ok line => rfl
  | error e => simp [hline] at h

/-- A writer that returns has appended the record if it is enabled, and nothing else. -/
theorem eq_of_write_ok {lib : JsonLibrary} {w w' : MetricsWriter} {m : ConnectionMetrics}
    (h : w.write lib m = (w', .ok ())) :
    w'.enabled = w.enabled ∧
      w'.records = w.records ++ (if w.enabled = true then [m] else []) := by
  by_cases henabled : w.enabled = true
  · have hrecords := records_of_write henabled (by rw [h] : (w.write lib m).2 = .ok ())
    rw [h] at hrecords
    refine ⟨?_, by rw [hrecords, if_pos henabled]⟩
    unfold write at h
    split at h
    · cases h
      rfl
    · split at h
      · cases h
        rfl
      · cases h
  · rw [write, if_pos (by simpa using henabled)] at h
    cases h
    simp [henabled]

/-- A writer that throws has appended nothing. -/
theorem eq_of_write_error {lib : JsonLibrary} {w w' : MetricsWriter} {m : ConnectionMetrics}
    {e : Thrown} (h : w.write lib m = (w', .error e)) : w' = w := by
  unfold write at h
  split at h
  · cases h
  · split at h
    · cases h
    · cases h
      rfl

end MetricsWriter

end PqtlsLab
