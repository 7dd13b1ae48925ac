import PqtlsLab.Foundation.Utf8
import Mathlib.Algebra.Group.Int.Defs

/-!
# JSON values and their text

The values a JSON library hands to its callers, and the compact text its writer
produces. Objects are ordered maps: members are kept in increasing order of their
keys, and a key occurs once. Integers are the 64-bit signed and unsigned ones, and
a binary64 number is carried by its bits. The writer refuses text that is not
UTF-8 and writes a number that is not finite as `null`.
-/

namespace PqtlsLab

/-- A JSON value as the library stores it. -/
inductive Json where
  | null
  | bool (b : Bool)
  | int (i : ℤ)
  | float (bits : UInt64)
  | string (s : Bytes)
  | array (xs : List Json)
  | object (ms : List (Bytes × Json))

namespace Json

mutual

/-- The representation invariant of the library: integers fit into 64 bits, and
the members of every object are in strictly increasing order of their keys. -/
def WellFormed : Json → Prop
  | .int i => -2 ^ 63 ≤ i ∧ i < 2 ^ 64
  | .array xs => WellFormedList xs
  | .object ms => (ms.map Prod.fst).Pairwise (· < ·) ∧ WellFormedMembers ms
  | _ => True

/-- The representation invariant of every element of an array. -/
def WellFormedList : List Json → Prop
  | [] => True
  | x :: xs => x.WellFormed ∧ WellFormedList xs

/-- The representation invariant of every member of an object. -/
def WellFormedMembers : List (Bytes × Json) → Prop
  | [] => True
  | (_, v) :: ms => v.WellFormed ∧ WellFormedMembers ms

end

mutual

/-- Every string and every key is valid UTF-8. -/
def textValid : Json → Bool
  | .string s => Utf8.valid s
  | .array xs => textValidList xs
  | .object ms => textValidMembers ms
  | _ => true

/-- Every string and key in the elements of an array is valid UTF-8. -/
def textValidList : List Json → Bool
  | [] => true
  | x :: xs => x.textValid && textValidList xs

/-- Every key of an object and every text in its members is valid UTF-8. -/
def textValidMembers : List (Bytes × Json) → Bool
  | [] => true
  | (k, v) :: ms => Utf8.valid k && v.textValid && textValidMembers ms

end

/-- A lower-case hexadecimal digit. -/
def hexDigit (n : ℕ) : UInt8 := UInt8.ofNat (if n < 10 then 0x30 + n else 0x57 + n)

/-- How the writer renders one byte of a string. -/
def escape (b : UInt8) : Bytes :=
  if b = 0x22 then [0x5C, 0x22]
  else if b = 0x5C then [0x5C, 0x5C]
  else if b = 0x08 then [0x5C, 0x62]
  else if b = 0x0C then [0x5C, 0x66]
  else if b = 0x0A then [0x5C, 0x6E]
  else if b = 0x0D then [0x5C, 0x72]
  else if b = 0x09 then [0x5C, 0x74]
  else if b < 0x20 then
    [0x5C, 0x75, 0x30, 0x30, hexDigit (b.toNat / 16), hexDigit (b.toNat % 16)]
  else [b]

/-- A string literal: the escaped bytes between quotation marks. -/
def quote (s : Bytes) : Bytes := 0x22 :: s.flatMap escape ++ [0x22]

/-- Text that the writer copies byte by byte: printable ASCII without quotation marks
and backslashes. -/
def Plain (s : Bytes) : Prop := ∀ b ∈ s, b < 0x80 ∧ escape b = [b]

instance (s : Bytes) : Decidable (Plain s) :=
  List.decidableBAll (fun b => b < 0x80 ∧ escape b = [b]) s

/-- Plain texts can be concatenated. -/
theorem Plain.append {s t : Bytes} (hs : Plain s) (ht : Plain t) : Plain (s ++ t) := by
  intro b hb
  rcases List.mem_append.mp hb with hb | hb
  · exact hs b hb
  · exact ht b hb

/-- Plain text is valid UTF-8. -/
theorem Plain.valid {s : Bytes} (hs : Plain s) : Utf8.valid s = true :=
  Utf8.valid_of_ascii fun b hb => (hs b hb).1

/-- Escaping leaves plain text as it is. -/
theorem Plain.flatMap_escape {s : Bytes} (hs : Plain s) : s.flatMap escape = s := by
  induction s with
  | nil => rfl
  | cons b s ih =>
    have hb := (hs b (by simp)).2
    have hrest := ih fun c hc => hs c (by simp [hc])
    simp [hb, hrest]

/-- The number of bytes of a string literal. -/
theorem length_quote (s : Bytes) : (quote s).length = (s.flatMap escape).length + 2 := by
  simp [quote]

/-- Plain text grows by its two quotation marks only. -/
theorem Plain.length_quote {s : Bytes} (hs : Plain s) : (quote s).length = s.length + 2 := by
  rw [Json.length_quote, hs.flatMap_escape]

/-- A binary64 number is finite unless all bits of its exponent are set. -/
def finiteBits (bits : UInt64) : Bool := (bits >>> 52) &&& 0x7FF != 0x7FF

mutual

/-- The compact text of a value. The decimal form of a finite binary64 number is
chosen by `floatText`. -/
def render (floatText : UInt64 → Bytes) : Json → Bytes
  | .null => ascii "null"
  | .bool b => if b then ascii "true" else ascii "false"
  | .int i => decimalInt i
  | .float bits => if finiteBits bits then floatText bits else ascii "null"
  | .string s => quote s
  | .array xs => 0x5B :: List.intercalate [0x2C] (renderList floatText xs) ++ [0x5D]
  | .object ms => 0x7B :: List.intercalate [0x2C] (renderMembers floatText ms) ++ [0x7D]

/-- The compact texts of the elements of an array. -/
def renderList (floatText : UInt64 → Bytes) : List Json → List Bytes
  | [] => []
  | x :: xs => render floatText x :: renderList floatText xs

/-- The compact texts of the members of an object. -/
def renderMembers (floatText : UInt64 → Bytes) : List (Bytes × Json) → List Bytes
  | [] => []
  | (k, v) :: ms => (quote k ++ 0x3A :: render floatText v) :: renderMembers floatText ms

end

/-- The member of an object with the given key. -/
def get? (j : Json) (key : Bytes) : Option Json :=
  match j with
  | .object ms => ms.lookup key
  | _ => none

/-- Assignment to a key in an ordered list of members: the member is replaced, or
inserted where the order wants it. -/
def setMember (key : Bytes) (value : Json) : List (Bytes × Json) → List (Bytes × Json)
  | [] => [(key, value)]
  | (k, v) :: ms =>
    if key < k then (key, value) :: (k, v) :: ms
    else if key = k then (key, value) :: ms
    else (k, v) :: setMember key value ms

end Json

end PqtlsLab
