import PqtlsLab.Connection.RecordText
import PqtlsLab.Policy.GroupPolicy
import PqtlsLab.Validator.ResultValidator

/-!
# A record as the validator reads it

The validator sees a record through its JSON text. It finds every field that `to_json` has
assigned, classifies the group by tables of its own after lower-casing the name, and matches the
identifier of the connection against a regular expression. For ASCII names the classification is
that of the binaries, and every identifier that they generate matches.
-/

namespace PqtlsLab

/-- What has been assigned to a key is found under it. -/
theorem Json.lookup_setMember_self (ms : List (Bytes × Json)) (key : Bytes) (v : Json) :
    (Json.setMember key v ms).lookup key = some v := by
  induction ms with
  | nil => exact List.lookup_cons_self
  | cons m ms ih =>
    obtain ⟨k, w⟩ := m
    unfold Json.setMember
    split
    · exact List.lookup_cons_self
    · split
      · exact List.lookup_cons_self
      · rename_i hne
        have hbeq : (key == k) = false := by simpa using hne
        rw [List.lookup_cons, hbeq]
        exact ih

/-- Assignment to a key changes nothing under other keys. -/
theorem Json.lookup_setMember_of_ne (ms : List (Bytes × Json)) {key k : Bytes} (v : Json)
    (h : k ≠ key) : (Json.setMember key v ms).lookup k = ms.lookup k := by
  have hbeq : (k == key) = false := by simpa using h
  induction ms with
  | nil => rw [Json.setMember, List.lookup_cons, hbeq]
  | cons m ms ih =>
    obtain ⟨k', w⟩ := m
    unfold Json.setMember
    split
    · rw [List.lookup_cons, hbeq]
    · split
      · rename_i hkey
        subst hkey
        rw [List.lookup_cons, List.lookup_cons, hbeq]
      · rw [List.lookup_cons, List.lookup_cons, ih]

/-- Assignments to other keys change nothing. -/
theorem JsonValue.lookup_foldl_set_of_not_mem {fields : List (Bytes × JsonValue)} {key : Bytes}
    (h : key ∉ fields.map Prod.fst) (doc : JsonValue) :
    (fields.foldl (fun doc field => doc.set field.1 field.2) doc).members.lookup key =
      doc.members.lookup key := by
  induction fields generalizing doc with
  | nil => rfl
  | cons field fields ih =>
    simp only [List.map_cons, List.mem_cons, not_or] at h
    rw [List.foldl_cons, ih h.2, members_set, Json.lookup_setMember_of_ne _ _ h.1]

/-- What has been assigned to different keys is found. -/
theorem JsonValue.lookup_foldl_set {fields : List (Bytes × JsonValue)}
    (hnodup : (fields.map Prod.fst).Nodup) {key : Bytes} {v : JsonValue}
    (h : (key, v) ∈ fields) (doc : JsonValue) :
    (fields.foldl (fun doc field => doc.set field.1 field.2) doc).members.lookup key =
      some v.val := by
  induction fields generalizing doc with
  | nil => cases h
  | cons field fields ih =>
    simp only [List.map_cons, List.nodup_cons] at hnodup
    rw [List.foldl_cons]
    rcases List.mem_cons.mp h with rfl | h
    · rw [lookup_foldl_set_of_not_mem hnodup.1, members_set, Json.lookup_setMember_self]
    · exact ih hnodup.2 h _

namespace ConnectionMetrics

/-- The `dict` that `json.loads` makes of a record. -/
def loadedRecord (m : ConnectionMetrics) : Dict := Json.loadedMembers m.toJson.members

/-- A record is read as a `dict`. -/
theorem loaded_toJson (m : ConnectionMetrics) : m.toJson.val.loaded = .object m.loadedRecord := by
  have hobject : m.toJson.val = .object m.toJson.members :=
    JsonValue.foldl_set_eq_object (List.cons_ne_nil _ _) JsonValue.null
  rw [hobject, Json.loaded, loadedRecord]

/-- The fields of a record are found under their keys. -/
theorem lookup_loadedRecord {m : ConnectionMetrics} {key : Bytes} {v : JsonValue}
    (h : m.fields.lookup key = some v) : m.loadedRecord.lookup key = some v.val.loaded := by
  have hnodup : (m.fields.map Prod.fst).Nodup := by
    rw [keys_fields]
    decide +kernel
  have hmem : (key, v) ∈ m.fields := by
    obtain ⟨l₁, l₂, hfields, -⟩ := List.lookup_eq_some_iff.mp h
    rw [hfields]
    exact List.mem_append_right _ List.mem_cons_self
  rw [loadedRecord, Json.lookup_loadedMembers]
  exact congrArg (Option.map Json.loaded)
    (JsonValue.lookup_foldl_set hnodup hmem JsonValue.null)

/-- The fields of a record are what `dict.get` returns. -/
theorem get_loadedRecord {m : ConnectionMetrics} {key : Bytes} {v : JsonValue}
    (h : m.fields.lookup key = some v) : m.loadedRecord.get key = v.val.loaded := by
  rw [Dict.get, lookup_loadedRecord h, Option.getD_some]

end ConnectionMetrics

/-- The text consists of ASCII characters. -/
def IsAscii (s : Bytes) : Prop := ∀ b ∈ s, b < 0x80

instance (s : Bytes) : Decidable (IsAscii s) := List.decidableBAll (fun b => b < 0x80) s

namespace Validator

variable {python : Python}

/-- Both programs fold ASCII names in the same way. -/
theorem lower_eq_map {g : Bytes} (hg : IsAscii g) : python.lower g = g.map asciiLower :=
  python.lower_ascii g hg

/-- A table of folded names contains the folded name exactly when the table of names has it up
to case. -/
theorem mem_table_iff (table : List Bytes) (g : Bytes) :
    g.map asciiLower ∈ table.map (fun known => known.map asciiLower) ↔
      (table.any fun known => iequals known g) = true := by
  simp only [List.mem_map, List.any_eq_true, iequals_iff]

/-- The classification of hybrid groups agrees with that of the binaries. -/
theorem mem_hybridGroups_iff {g : Bytes} (hg : IsAscii g) :
    python.lower g ∈ hybridGroups ↔ isHybridGroup g = true := by
  have htable : hybridGroups = kHybridGroups.map fun known => known.map asciiLower := by decide
  rw [lower_eq_map hg, htable, mem_table_iff, isHybridGroup]

/-- The classification of post-quantum groups agrees with that of the binaries. -/
theorem mem_pqGroups_iff {g : Bytes} (hg : IsAscii g) :
    python.lower g ∈ pqGroups ↔ isPostQuantumGroup g = true := by
  have htable : purePqGroups = kPureMlKemGroups.map fun known => known.map asciiLower := by decide
  rw [pqGroups, List.mem_append, mem_hybridGroups_iff hg, isPostQuantumGroup, Bool.or_eq_true,
    lower_eq_map hg, htable, mem_table_iff]

/-- Texts that match in parts match as a whole. -/
theorem afterClasses_append {classes classes' : List (UInt8 → Bool)} {s t : Bytes}
    (h : afterClasses classes s = some []) :
    afterClasses (classes ++ classes') (s ++ t) = afterClasses classes' t := by
  induction classes generalizing s with
  | nil =>
    cases h
    rfl
  | cons p classes ih =>
    cases s with
    | nil => cases h
    | cons b s =>
      simp only [afterClasses] at h
      split at h
      · rename_i hb
        simp only [List.cons_append, afterClasses, hb, if_true]
        exact ih h
      · cases h

/-- Texts that match part by part match as a whole. -/
theorem afterClasses_flatMap {ι : Type} {classes : ι → List (UInt8 → Bool)} {text : ι → Bytes}
    (h : ∀ i, afterClasses (classes i) (text i) = some []) (is : List ι) :
    afterClasses (is.flatMap classes) (is.flatMap text) = some [] := by
  induction is with
  | nil => rfl
  | cons i is ih => rw [List.flatMap_cons, List.flatMap_cons, afterClasses_append (h i), ih]

/-- The classes of `UUID_V4` for one byte: a hyphen where a group starts, and two digits, the
first of which is the version or the variant in two places. -/
def uuidPartClasses (i : Fin 16) : List (UInt8 → Bool) :=
  (if i.val = 4 ∨ i.val = 6 ∨ i.val = 8 ∨ i.val = 10 then [(· == 0x2D)] else []) ++
    [if i.val = 6 then (· == 0x34) else if i.val = 8 then isVariantDigit else isHexDigit,
      isHexDigit]

/-- The classes of `UUID_V4` are those of sixteen bytes. -/
theorem uuidV4Classes_eq : uuidV4Classes = (List.finRange 16).flatMap uuidPartClasses := rfl

/-- The digits of a byte match the classes of its place. -/
theorem uuidPart_matches (bytes : Entropy) (i : Fin 16) :
    afterClasses (uuidPartClasses i) (uuidPart bytes i) = some [] := by
  have hlow : ∀ b : UInt8, isHexDigit (Json.hexDigit (b &&& 0x0F).toNat) = true :=
    forall_byte (by decide +kernel)
  have hversion : ∀ b : UInt8, (Json.hexDigit
      (((b &&& 0x0F ||| 0x40) >>> 4) &&& 0x0F).toNat == 0x34) = true :=
    forall_byte (by decide +kernel)
  have hvariant : ∀ b : UInt8, isVariantDigit (Json.hexDigit
      (((b &&& 0x3F ||| 0x80) >>> 4) &&& 0x0F).toNat) = true :=
    forall_byte (by decide +kernel)
  have hyphen : afterClasses
      (if i.val = 4 ∨ i.val = 6 ∨ i.val = 8 ∨ i.val = 10 then [(· == 0x2D)] else [])
      (if i.val = 4 ∨ i.val = 6 ∨ i.val = 8 ∨ i.val = 10 then [0x2D] else []) = some [] := by
    split <;> rfl
  unfold uuidPartClasses uuidPart
  rw [afterClasses_append hyphen]
  by_cases h6 : i.val = 6
  · simp only [afterClasses, uuidByte, h6, if_true, hversion, hlow]
  · by_cases h8 : i.val = 8
    · simp only [afterClasses, uuidByte, if_neg h6, if_pos h8, hvariant, hlow, if_true]
    · simp only [afterClasses, uuidByte, h6, h8, if_false, hlow, if_true]

/-- Every generated identifier matches. -/
theorem matches_generateUuidV4 (bytes : Entropy) :
    matchesUuidV4 (generateUuidV4 bytes) = true := by
  unfold matchesUuidV4 generateUuidV4
  rw [uuidV4Classes_eq, afterClasses_flatMap (uuidPart_matches bytes)]

end Validator

end PqtlsLab
