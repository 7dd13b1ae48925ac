import PqtlsLab.Error
import PqtlsLab.Foundation.Json

/-!
# The JSON library as the sources use it

The JSON library is not part of the repository. Its reader is a parameter: it
returns a value that satisfies the library's representation invariant or throws,
and the kind of exception matters because one kind is translated by the callers
and the others are not. Its writer is the compact one, which throws on text that
is not UTF-8. Assumptions about the reader are named where they are used.
-/

namespace PqtlsLab

/-- The exceptions of the JSON library, with their `what()` texts. -/
inductive JsonException where
  | parseError (what : Bytes)
  | outOfRange (what : Bytes)
  | typeError (what : Bytes)

/-- A JSON exception that nothing on the way catches is a `std::exception`. -/
def JsonException.toThrown : JsonException → Thrown
  | .parseError what => .exception what
  | .outOfRange what => .exception what
  | .typeError what => .exception what

/-- A value of the library type: a JSON tree with its representation invariant. -/
@[ext]
structure JsonValue where
  val : Json
  wellFormed : val.WellFormed

namespace Json

/-- The members of a well-formed object are well-formed. -/
theorem WellFormedMembers.lookup {ms : List (Bytes × Json)} {key : Bytes} {v : Json}
    (h : WellFormedMembers ms) (hv : ms.lookup key = some v) : v.WellFormed := by
  induction ms with
  | nil => simp at hv
  | cons m ms ih =>
    obtain ⟨k, w⟩ := m
    simp only [WellFormedMembers] at h
    rw [List.lookup_cons] at hv
    split at hv
    · cases hv
      exact h.1
    · exact ih h.2 hv

/-- A member of a well-formed value is well-formed. -/
theorem WellFormed.get? {j v : Json} {key : Bytes} (h : j.WellFormed)
    (hv : j.get? key = some v) : v.WellFormed := by
  cases j with
  | object ms =>
    simp only [WellFormed] at h
    exact h.2.lookup hv
  | _ => simp [Json.get?] at hv

/-- Assignment keeps the members well-formed. -/
theorem WellFormedMembers.setMember {ms : List (Bytes × Json)} {key : Bytes} {v : Json}
    (h : WellFormedMembers ms) (hv : v.WellFormed) :
    WellFormedMembers (Json.setMember key v ms) := by
  induction ms with
  | nil => exact ⟨hv, h⟩
  | cons m ms ih =>
    obtain ⟨k, w⟩ := m
    unfold Json.setMember
    split
    · exact ⟨hv, h⟩
    · split
      · exact ⟨hv, h.2⟩
      · exact ⟨h.1, ih h.2⟩

/-- The keys after an assignment are the earlier ones and the one assigned to. -/
theorem mem_keys_setMember {ms : List (Bytes × Json)} {key k : Bytes} {v : Json}
    (h : k ∈ (Json.setMember key v ms).map Prod.fst) : k = key ∨ k ∈ ms.map Prod.fst := by
  induction ms with
  | nil => simpa [Json.setMember] using h
  | cons m ms ih =>
    obtain ⟨k', w⟩ := m
    unfold Json.setMember at h
    split at h
    · simpa using h
    · split at h
      · simp only [List.map_cons, List.mem_cons] at h ⊢
        tauto
      · simp only [List.map_cons, List.mem_cons] at h ⊢
        rcases h with h | h
        · exact .inr (.inl h)
        · exact (ih h).imp_right .inr

/-- Assignment keeps the keys in order. -/
theorem pairwise_setMember {ms : List (Bytes × Json)} {key : Bytes} {v : Json}
    (h : (ms.map Prod.fst).Pairwise (· < ·)) :
    ((Json.setMember key v ms).map Prod.fst).Pairwise (· < ·) := by
  induction ms with
  | nil => simp [Json.setMember]
  | cons m ms ih =>
    obtain ⟨k, w⟩ := m
    simp only [List.map_cons, List.pairwise_cons] at h
    obtain ⟨hhead, htail⟩ := h
    unfold Json.setMember
    split
    · rename_i hlt
      simp only [List.map_cons, List.pairwise_cons, List.mem_cons]
      refine ⟨?_, hhead, htail⟩
      rintro a (rfl | ha)
      · exact hlt
      · exact List.lt_trans hlt (hhead a ha)
    · split
      · rename_i heq
        subst heq
        exact List.pairwise_cons.mpr ⟨hhead, htail⟩
      · rename_i hnlt hne
        simp only [List.map_cons, List.pairwise_cons]
        refine ⟨?_, ih htail⟩
        intro a ha
        rcases mem_keys_setMember ha with rfl | ha
        · by_contra hnot
          exact hne (List.le_antisymm (List.not_lt.mp hnot) (List.not_lt.mp hnlt))
        · exact hhead a ha

end Json

namespace JsonValue

/-- A default-constructed value. -/
def null : JsonValue := ⟨.null, trivial⟩

/-- An integer of a C++ type that fits into 32 bits. -/
def int (i : Int32) : JsonValue :=
  ⟨.int i.toInt, by
    have hlow := i.le_toInt
    have hhigh := i.toInt_lt
    constructor <;> omega⟩

/-- An unsigned integer of 64 bits. -/
def uint (n : UInt64) : JsonValue :=
  ⟨.int n.toNat, by
    have hhigh := n.toNat_lt
    constructor <;> omega⟩

/-- A `double`. -/
def float (bits : UInt64) : JsonValue := ⟨.float bits, trivial⟩

/-- A string. -/
def string (s : Bytes) : JsonValue := ⟨.string s, trivial⟩

/-- A Boolean. -/
def bool (b : Bool) : JsonValue := ⟨.bool b, trivial⟩

/-- `json::object()`. -/
def emptyObject : JsonValue := ⟨.object [], by simp [Json.WellFormed, Json.WellFormedMembers]⟩

/-- An optional value, with `null` for its absence. -/
def ofOption {α : Type} (f : α → JsonValue) : Option α → JsonValue
  | some a => f a
  | none => null

/-- Member access; `none` where the key is missing. -/
def get? (j : JsonValue) (key : Bytes) : Option JsonValue :=
  match h : j.val.get? key with
  | none => none
  | some v => some ⟨v, j.wellFormed.get? h⟩

/-- `j[key] = value` on a null value, which becomes an object, or on an object. -/
def set (j : JsonValue) (key : Bytes) (value : JsonValue) : JsonValue :=
  match h : j.val with
  | .object ms =>
    ⟨.object (Json.setMember key value.val ms), by
      have hj := j.wellFormed
      rw [h, Json.WellFormed] at hj
      exact ⟨Json.pairwise_setMember hj.1, hj.2.setMember value.wellFormed⟩⟩
  | _ => ⟨.object [(key, value.val)], by simp [Json.WellFormed, Json.WellFormedMembers,
      value.wellFormed]⟩

/-- `is_object()`. -/
def isObject (j : JsonValue) : Bool :=
  match j.val with
  | .object _ => true
  | _ => false

/-- The text of a string value. -/
def string? (j : JsonValue) : Option Bytes :=
  match j.val with
  | .string s => some s
  | _ => none

/-- The number of an integer value, signed or unsigned. -/
def int? (j : JsonValue) : Option ℤ :=
  match j.val with
  | .int i => some i
  | _ => none

/-- `!is_null() && !empty()` for the values a message can carry as payload. -/
def hasMembers (j : JsonValue) : Bool :=
  match j.val with
  | .null => false
  | .object [] => false
  | .array [] => false
  | _ => true

/-- Member access is that of the tree. -/
theorem get?_eq_some_iff (j v : JsonValue) (key : Bytes) :
    j.get? key = some v ↔ j.val.get? key = some v.val := by
  unfold get?
  split
  · rename_i h
    simp [h]
  · rename_i w h
    simp only [Option.some.injEq, h, JsonValue.ext_iff]

/-- A key is missing exactly when it is missing from the tree. -/
theorem get?_eq_none_iff (j : JsonValue) (key : Bytes) :
    j.get? key = none ↔ j.val.get? key = none := by
  unfold get?
  split
  · rename_i h
    simp [h]
  · rename_i w h
    simp [h]

end JsonValue

/-- What the model knows of the JSON library: its reader, the decimal form its writer
gives to finite numbers, and the text of the exception its writer throws. -/
structure JsonLibrary where
  /-- `json::parse`. -/
  parse : Bytes → Except JsonException JsonValue
  /-- The decimal form of a finite binary64 number. -/
  floatText : UInt64 → Bytes
  /-- The text of the `type_error` that `dump()` throws on a value. -/
  typeErrorText : Json → Bytes

/-- `dump()`. -/
def JsonLibrary.dump (lib : JsonLibrary) (j : Json) : Except JsonException Bytes :=
  if j.textValid then .ok (j.render lib.floatText)
  else .error (.typeError (lib.typeErrorText j))

/-- A library whose reader knows a few texts and takes all others for malformed. Numbers
that are not integers are written as zero. -/
def JsonLibrary.ofTable (known : List (Bytes × Except JsonException JsonValue)) : JsonLibrary where
  parse text := (known.lookup text).getD (.error (.parseError
    (ascii "[json.exception.parse_error.101] parse error at line 1, column 1: syntax error " ++
      ascii "while parsing value - invalid literal")))
  floatText _ := ascii "0.0"
  typeErrorText _ := ascii "[json.exception.type_error.316] invalid UTF-8 byte"

end PqtlsLab
