import PqtlsLab.Foundation.Bytes

/-!
# YAML nodes as a reader sees them

A document is a tree of nulls, scalars, sequences and maps. The entries of a map are kept in their
order, keys are nodes of any kind, and a key may occur more than once; indexing by a text finds the
first entry whose key is a scalar with this text. A missing entry is no error, and neither is
indexing a null or a sequence, but a scalar has no entries to ask for. A node converts to a value
if it has the right kind and its text is acceptable; a null converts to the text `null`. Which texts
are numbers and truth values is a matter of the library.
-/

namespace PqtlsLab

/-- A node of a document. -/
inductive Yaml where
  | null
  | scalar (text : Bytes)
  | sequence (items : List Yaml)
  | map (entries : List (Yaml × Yaml))

/-- What the reader leaves open: the texts of truth values and numbers, and the texts of its two
exceptions. -/
structure YamlLibrary where
  /-- `as<bool>()` of a scalar. -/
  bool : Bytes → Option Bool
  /-- `as<int>()` of a scalar. -/
  int : Bytes → Option Int32
  /-- `as<uint32_t>()` of a scalar. -/
  uint32 : Bytes → Option UInt32
  /-- `what()` of the exception for a node that does not convert. -/
  badConversion : Yaml → Bytes
  /-- `what()` of the exception for a scalar that is indexed. -/
  badSubscript : Bytes → Bytes → Bytes

/-- The number that a text of decimal digits stands for. -/
def decimalValue? (text : Bytes) : Option ℕ :=
  if text ≠ [] ∧ text.all (fun b => decide (0x30 ≤ b ∧ b ≤ 0x39)) then
    some (text.foldl (fun n b => 10 * n + (b.toNat - 0x30)) 0)
  else none

/-- A reader of plain truth values and of numbers in decimal digits. -/
def YamlLibrary.plain : YamlLibrary where
  bool text :=
    if text = ascii "true" then some true else if text = ascii "false" then some false else none
  int text :=
    (decimalValue? text).bind fun n => if n < 2147483648 then some (Int32.ofNat n) else none
  uint32 text :=
    (decimalValue? text).bind fun n => if n < 4294967296 then some (UInt32.ofNat n) else none
  badConversion _ := ascii "bad conversion"
  badSubscript _ _ := ascii "operator[] call on a scalar"

/-- The exception of the reader, by its `what()`. -/
structure YamlException where
  what : Bytes

namespace Yaml

/-- The node is a scalar with a given text. -/
def isText (text : Bytes) : Yaml → Bool
  | .scalar t => t == text
  | _ => false

/-- The entries of a map. -/
def entries : Yaml → List (Yaml × Yaml)
  | .map entries => entries
  | _ => []

/-- The keys of a map. -/
def keys (node : Yaml) : List Yaml := node.entries.map Prod.fst

/-- The number of the first entry with a key. -/
def position? (node : Yaml) (key : Bytes) : Option ℕ :=
  node.entries.findIdx? fun entry => entry.1.isText key

/-- The value of the first entry with a key. -/
def get? (node : Yaml) (key : Bytes) : Option Yaml :=
  (node.entries.find? fun entry => entry.1.isText key).map Prod.snd

/-- The values of all entries with a key. -/
def getAll (node : Yaml) (key : Bytes) : List Yaml :=
  (node.entries.filter fun entry => entry.1.isText key).map Prod.snd

/-- The values of the entries with a key, other than the first. -/
def repeats (node : Yaml) (key : Bytes) : List Yaml := (node.getAll key).tail

/-- The node is a scalar. -/
def isScalar : Yaml → Bool
  | .scalar _ => true
  | _ => false

/-- The node is a sequence. -/
def isSequence : Yaml → Bool
  | .sequence _ => true
  | _ => false

/-- The node is a map. -/
def isMap : Yaml → Bool
  | .map _ => true
  | _ => false

/-- The text of a node that has one. -/
def text? : Yaml → Option Bytes
  | .scalar text => some text
  | .null => some (ascii "null")
  | _ => none

/-- The text of a scalar. -/
def scalar? : Yaml → Option Bytes
  | .scalar text => some text
  | _ => none

/-- The texts of a list. -/
def texts? : Yaml → Option (List Bytes)
  | .sequence items => items.mapM text?
  | _ => none

variable (lib : YamlLibrary)

/-- The truth value of a scalar. -/
def bool? (node : Yaml) : Option Bool := node.scalar?.bind lib.bool

/-- `node[key]`. -/
def index (node : Yaml) (key : Bytes) : Except YamlException (Option Yaml) :=
  match node with
  | .scalar text => .error ⟨lib.badSubscript text key⟩
  | node => .ok (node.get? key)

/-- A conversion, or the exception of a failed one. -/
def convert {α : Type} (node : Yaml) (value : Option α) : Except YamlException α :=
  match value with
  | some a => .ok a
  | none => .error ⟨lib.badConversion node⟩

/-- `as<std::string>()`. -/
def asString (node : Yaml) : Except YamlException Bytes := convert lib node node.text?

/-- `as<bool>()`. -/
def asBool (node : Yaml) : Except YamlException Bool :=
  convert lib node (node.bool? lib)

/-- `as<int>()`. -/
def asInt (node : Yaml) : Except YamlException Int32 :=
  convert lib node (node.scalar?.bind lib.int)

/-- `as<uint32_t>()`. -/
def asUInt32 (node : Yaml) : Except YamlException UInt32 :=
  convert lib node (node.scalar?.bind lib.uint32)

variable {lib}

/-- Only the scalar with a text is that text. -/
@[simp] theorem isText_iff {text : Bytes} {node : Yaml} :
    node.isText text = true ↔ node = .scalar text := by
  cases node <;> simp [isText]

/-- Indexing succeeds on everything but scalars, and finds the first entry. -/
theorem index_eq_ok_iff {node : Yaml} {key : Bytes} {value : Option Yaml} :
    node.index lib key = .ok value ↔ node.isScalar = false ∧ node.get? key = value := by
  cases node <;> simp [index, isScalar]

/-- A conversion succeeds exactly with its value. -/
theorem convert_eq_ok_iff {α : Type} {node : Yaml} {value : Option α} {a : α} :
    convert lib node value = .ok a ↔ value = some a := by
  cases value <;> simp [convert]

/-- The first value of a key, and then the others. -/
theorem getAll_eq (node : Yaml) (key : Bytes) :
    node.getAll key = (node.get? key).toList ++ node.repeats key := by
  have hfirst : node.get? key = (node.getAll key).head? := by
    rw [get?, getAll, List.head?_map, List.head?_filter]
  rw [hfirst, repeats]
  cases node.getAll key <;> rfl

/-- The entry with the number of a key has this key. -/
theorem key_of_position? {node : Yaml} {key : Bytes} {i : ℕ} (h : node.position? key = some i) :
    node.keys[i]? = some (.scalar key) := by
  obtain ⟨hlt, htext, -⟩ := List.findIdx?_eq_some_iff_getElem.mp h
  rw [keys, List.getElem?_map, List.getElem?_eq_getElem hlt, Option.map_some,
    isText_iff.mp htext]

/-- A key without a number has no value, and the value of a key with a number is that of this
entry. -/
theorem get?_eq_bind_position? (node : Yaml) (key : Bytes) :
    node.get? key = (node.position? key).bind fun i => node.entries[i]?.map Prod.snd := by
  rw [get?, List.find?_eq_bind_findIdx?_getElem?, Option.map_bind]
  rfl

/-- A key has a number exactly when it has a value. -/
theorem position?_eq_none_iff {node : Yaml} {key : Bytes} :
    node.position? key = none ↔ node.get? key = none := by
  rw [position?, get?, List.findIdx?_eq_none_iff, Option.map_eq_none_iff, List.find?_eq_none]
  simp only [Bool.not_eq_true]

end Yaml

end PqtlsLab
