import PqtlsLab.Foundation.Json
import Mathlib.Data.List.Infix

/-!
# JSON values in Python

`json.loads` turns a JSON document into Python objects, one kind of object for each kind of
value, so a Python object is represented by the value that it was read from. A text stands for
its UTF-8 bytes. What Python does with texts by way of Unicode tables, and how it writes a
binary64 number, are parameters.
-/

namespace PqtlsLab

/-- The text functions of Python that depend on the Unicode tables or on the decimal form of a
binary64 number. -/
structure Python where
  /-- `str.lower`. -/
  lower : Bytes → Bytes
  /-- `repr` of a `str`. -/
  reprStr : Bytes → Bytes
  /-- `repr` of a `float`. -/
  reprFloat : UInt64 → Bytes
  /-- On ASCII text, lower-casing concerns the letters `A` to `Z`. -/
  lower_ascii : ∀ s : Bytes, (∀ b ∈ s, b < 0x80) →
    lower s = s.map fun b => if 0x41 ≤ b ∧ b ≤ 0x5A then b + 32 else b
  /-- Lower-casing leaves something of every character. -/
  lower_ne_nil : ∀ s : Bytes, s ≠ [] → lower s ≠ []
  /-- A number begins with its sign, with a digit, or as `inf` or `nan`. -/
  reprFloat_head : ∀ bits, ∃ b rest, reprFloat bits = b :: rest ∧
    (b = 0x2D ∨ 0x30 ≤ b ∧ b ≤ 0x39 ∨ b = 0x69 ∨ b = 0x6E)

/-- A Python that knows the ASCII letters only. -/
def Python.ofAscii : Python where
  lower s := s.map fun b => if 0x41 ≤ b ∧ b ≤ 0x5A then b + 32 else b
  reprStr s := 0x27 :: s ++ [0x27]
  reprFloat _ := ascii "0.0"
  lower_ascii _ _ := rfl
  lower_ne_nil _ h := by simpa using h
  reprFloat_head _ := ⟨0x30, ascii ".0", by decide, by decide⟩

/-- The `TypeError` of an operation that needs a hash, with the name of the type that has none. -/
structure TypeError where
  typeName : Bytes
  deriving DecidableEq

/-- The built-in exceptions of operations on a value. -/
inductive BuiltinError where
  /-- A value of this type has no such attribute. -/
  | attributeError (typeName name : Bytes)
  /-- The `dict` has no such key. -/
  | keyError (key : Bytes)
  /-- The operation does not exist for a value of this type. -/
  | typeError (typeName : Bytes)
  deriving DecidableEq

/-- The exceptions of arithmetic, of indexing and of the effects of a program. -/
inductive PythonError where
  | attributeError
  | indexError
  | overflowError
  | statisticsError
  | valueError
  /-- An exception of another class, with its name. -/
  | raised (className : Bytes)
  deriving DecidableEq

/-- A `dict` that `json.loads` has returned. -/
abbrev Dict := List (Bytes × Json)

/-- `dict.get(key)`, with `None` for a key that is missing. -/
def Dict.get (d : Dict) (key : Bytes) : Json := (d.lookup key).getD .null

namespace Json

/-- The bits of a binary64 number without the sign. -/
def magnitudeBits (bits : UInt64) : UInt64 := bits &&& 0x7FFFFFFFFFFFFFFF

/-- `value < 0` for a binary64 number: the sign bit is set, and the number is neither a zero nor
a NaN. -/
def negativeBits (bits : UInt64) : Bool :=
  bits != magnitudeBits bits && magnitudeBits bits != 0 &&
    magnitudeBits bits ≤ 0x7FF0000000000000

/-- `bool(value)`. -/
def truthy : Json → Bool
  | .null => false
  | .bool b => b
  | .int i => i != 0
  | .float bits => magnitudeBits bits != 0
  | .string s => !s.isEmpty
  | .array xs => !xs.isEmpty
  | .object ms => !ms.isEmpty

/-- `type(value).__name__`. -/
def typeName : Json → Bytes
  | .null => ascii "NoneType"
  | .bool _ => ascii "bool"
  | .int _ => ascii "int"
  | .float _ => ascii "float"
  | .string _ => ascii "str"
  | .array _ => ascii "list"
  | .object _ => ascii "dict"

/-- `isinstance(value, dict)`. -/
def isDict : Json → Bool
  | .object _ => true
  | _ => false

/-- `value == 1`: also `1.0` and `True` are equal to one. -/
def equalsOne : Json → Bool
  | .bool b => b
  | .int i => i == 1
  | .float bits => bits == 0x3FF0000000000000
  | _ => false

/-- `value is True`. -/
def isTrue : Json → Bool
  | .bool b => b
  | _ => false

/-- `isinstance(value, (int, float)) and value < 0`. A `bool` is an `int` and never negative. -/
def isNegativeNumber : Json → Bool
  | .int i => i < 0
  | .float bits => negativeBits bits
  | _ => false

/-- `value[key]` for a text. -/
def subscript (key : Bytes) : Json → Except BuiltinError Json
  | .object ms =>
    match ms.lookup key with
    | some value => .ok value
    | none => .error (.keyError key)
  | j => .error (.typeError j.typeName)

/-- `value.get(key, default)`. -/
def getAttr (key : Bytes) (default : Json) : Json → Except BuiltinError Json
  | .object ms => .ok ((ms.lookup key).getD default)
  | j => .error (.attributeError j.typeName (ascii "get"))

/-- `value or default`. -/
def orElse (value default : Json) : Json := if value.truthy then value else default

/-- `value in values` for a tuple of texts and possibly `None`. -/
def isOneOf (values : List (Option Bytes)) : Json → Bool
  | .null => values.contains none
  | .string s => values.contains (some s)
  | _ => false

/-- The value has a hash. -/
def hashable : Json → Bool
  | .array _ => false
  | .object _ => false
  | _ => true

/-- `value in values` for a set of texts and possibly `None`. -/
def isElementOf (values : List (Option Bytes)) (j : Json) : Except TypeError Bool :=
  if j.hashable then .ok (j.isOneOf values) else .error ⟨j.typeName⟩

mutual

/-- What `json.loads` reads from the text that the writer makes of a value: a number that is not
finite has been written as `null`. -/
def loaded : Json → Json
  | .float bits => if finiteBits bits then .float bits else .null
  | .array xs => .array (loadedList xs)
  | .object ms => .object (loadedMembers ms)
  | j => j

/-- The elements of an array, as they are read. -/
def loadedList : List Json → List Json
  | [] => []
  | x :: xs => x.loaded :: loadedList xs

/-- The members of an object, as they are read. -/
def loadedMembers : List (Bytes × Json) → List (Bytes × Json)
  | [] => []
  | (k, v) :: ms => (k, v.loaded) :: loadedMembers ms

end

/-- The members that are read are the members that were written, as they are read. -/
theorem lookup_loadedMembers (ms : List (Bytes × Json)) (key : Bytes) :
    (loadedMembers ms).lookup key = (ms.lookup key).map loaded := by
  induction ms with
  | nil => rfl
  | cons m ms ih =>
    obtain ⟨k, v⟩ := m
    rw [loadedMembers, List.lookup_cons, List.lookup_cons]
    split
    · rfl
    · exact ih

end Json

namespace Python

/-- `marker in text`. -/
def isIn (marker text : Bytes) : Bool := text.tails.any fun suffix => marker.isPrefixOf suffix

/-- A text contains a marker if it has a part that is equal to it. -/
theorem isIn_iff (marker text : Bytes) : isIn marker text = true ↔ marker <:+: text := by
  simp only [isIn, List.any_eq_true, List.mem_tails, List.isPrefixOf_iff_prefix,
    List.infix_iff_prefix_suffix]
  exact exists_congr fun _ => And.comm

variable (python : Python)

mutual

/-- `repr(value)`. -/
def repr : Json → Bytes
  | .null => ascii "None"
  | .bool b => if b then ascii "True" else ascii "False"
  | .int i => decimalInt i
  | .float bits => python.reprFloat bits
  | .string s => python.reprStr s
  | .array xs => ascii "[" ++ List.intercalate (ascii ", ") (reprList xs) ++ ascii "]"
  | .object ms => ascii "\x7b" ++ List.intercalate (ascii ", ") (reprMembers ms) ++ ascii "\x7d"

/-- `repr` of the elements of a `list`. -/
def reprList : List Json → List Bytes
  | [] => []
  | x :: xs => repr x :: reprList xs

/-- `repr` of the members of a `dict`. -/
def reprMembers : List (Bytes × Json) → List Bytes
  | [] => []
  | (k, v) :: ms => (python.reprStr k ++ ascii ": " ++ repr v) :: reprMembers ms

end

/-- `str(value)`. -/
def str : Json → Bytes
  | .string s => s
  | j => python.repr j

/-- A number is not written as an empty text. -/
theorem reprFloat_ne_nil (bits : UInt64) : python.reprFloat bits ≠ [] := by
  obtain ⟨b, rest, heq, -⟩ := python.reprFloat_head bits
  rw [heq]
  exact List.cons_ne_nil b rest

/-- Only the empty text is written as an empty text. -/
theorem str_eq_nil_iff (j : Json) : python.str j = [] ↔ j = .string [] := by
  have hne {s t : Bytes} (hs : s ≠ []) : s ++ t ≠ [] := fun h => hs (List.append_eq_nil_iff.mp h).1
  cases j with
  | null => exact iff_of_false (show ascii "None" ≠ [] by decide) (by simp)
  | bool b =>
    refine iff_of_false ?_ (by simp)
    cases b
    · exact show ascii "False" ≠ [] by decide
    · exact show ascii "True" ≠ [] by decide
  | int i =>
    refine iff_of_false ?_ (by simp)
    rw [str, repr, decimalInt]
    · split
      · exact List.cons_ne_nil _ _
      · exact decimal_ne_nil _
    · simp
  | float bits => exact iff_of_false (python.reprFloat_ne_nil bits) (by simp)
  | string s => simp [str]
  | array xs =>
    exact iff_of_false (hne (hne (show ascii "[" ≠ [] by decide))) (by simp)
  | object ms =>
    exact iff_of_false (hne (hne (show ascii "\x7b" ≠ [] by decide))) (by simp)

/-- The lower-case form of a text is empty only if the text is. -/
theorem lower_eq_nil_iff (s : Bytes) : python.lower s = [] ↔ s = [] := by
  constructor
  · intro hlower
    by_contra hne
    exact python.lower_ne_nil s hne hlower
  · rintro rfl
    exact python.lower_ascii [] (by simp)

end Python

end PqtlsLab
