import PqtlsLab.Foundation.Json

/-!
# Reading JSON text

A reader of JSON goes through the bytes of a text once. Its state is the stack of arrays and
objects that have been opened and not closed, and what it is in the middle of. Readers differ in
the numbers they accept, in the additional constants they know, and in the place they give to a
member of an object; these are parameters.
-/

namespace PqtlsLab

/-- What readers of JSON differ in. -/
structure JsonReader where
  /-- The value of the literal of a number, unless it is malformed or refused. -/
  number : Bytes → Option Json
  /-- Whether `NaN`, `Infinity` and `-Infinity` are numbers. -/
  constants : Bool
  /-- A member is put among the earlier members of its object. -/
  insert : Bytes → Json → List (Bytes × Json) → List (Bytes × Json)

/-- An array or an object that has been opened and not closed. -/
inductive JsonReader.Frame where
  /-- The elements before the one that is being read. -/
  | array (elements : List Json)
  /-- The members before the one that is being read, and its key, if that has been read. -/
  | object (members : List (Bytes × Json)) (key : Bytes)

/-- A string literal that has been opened and not closed. -/
structure JsonReader.Literal where
  /-- The literal is the key of a member. -/
  isKey : Bool
  /-- The text so far. -/
  text : Bytes
  /-- A high surrogate that may belong to the next escape. -/
  pending : Option ℕ

/-- What the reader is in the middle of. -/
inductive JsonReader.Mode where
  /-- A value has to follow. -/
  | value
  /-- The first element of an array has to follow, or its end. -/
  | firstElement
  /-- The key of a member has to follow; the first one may be missing. -/
  | key (first : Bool)
  /-- A colon has to follow. -/
  | colon
  /-- A value is complete. -/
  | after (v : Json)
  /-- In a string literal. -/
  | text (literal : Literal)
  /-- After a backslash. -/
  | escape (literal : Literal)
  /-- In the digits of a `\u` escape, so many of which are missing. -/
  | hex (literal : Literal) (missing code : ℕ)
  /-- In a constant, of which some letters are missing. -/
  | constant (missing : Bytes) (v : Json)
  /-- In a number. -/
  | number (literal : Bytes)

/-- The state of a reader. -/
structure JsonReader.State where
  stack : List JsonReader.Frame
  mode : JsonReader.Mode

namespace JsonReader

/-- The white space between tokens. -/
def isSpace (b : UInt8) : Bool := b == 0x20 || b == 0x09 || b == 0x0A || b == 0x0D

/-- A decimal digit. -/
def isDigit (b : UInt8) : Bool := 0x30 ≤ b && b ≤ 0x39

/-- A byte that can begin the literal of a number. -/
def startsNumber (b : UInt8) : Bool := b == 0x2D || isDigit b

/-- A byte that can occur in the literal of a number. -/
def isNumberByte (b : UInt8) : Bool :=
  isDigit b || b == 0x2D || b == 0x2B || b == 0x2E || b == 0x65 || b == 0x45

/-- The value of a hexadecimal digit. -/
def hexValue (b : UInt8) : Option ℕ :=
  if isDigit b then some (b.toNat - 0x30)
  else if 0x61 ≤ b && b ≤ 0x66 then some (b.toNat - 0x57)
  else if 0x41 ≤ b && b ≤ 0x46 then some (b.toNat - 0x37)
  else none

/-- The escapes of one letter. -/
def escaped : UInt8 → Option UInt8
  | 0x22 => some 0x22
  | 0x5C => some 0x5C
  | 0x2F => some 0x2F
  | 0x62 => some 0x08
  | 0x66 => some 0x0C
  | 0x6E => some 0x0A
  | 0x72 => some 0x0D
  | 0x74 => some 0x09
  | _ => none

/-- The bytes of a code point. A surrogate, which has no UTF-8 form, gets the three bytes that
its number would have. -/
def encodeCode (code : ℕ) : Bytes :=
  if code < 0x80 then [UInt8.ofNat code]
  else if code < 0x800 then [UInt8.ofNat (0xC0 + code / 64), UInt8.ofNat (0x80 + code % 64)]
  else if code < 0x10000 then
    [UInt8.ofNat (0xE0 + code / 4096), UInt8.ofNat (0x80 + code / 64 % 64),
      UInt8.ofNat (0x80 + code % 64)]
  else
    [UInt8.ofNat (0xF0 + code / 262144), UInt8.ofNat (0x80 + code / 4096 % 64),
      UInt8.ofNat (0x80 + code / 64 % 64), UInt8.ofNat (0x80 + code % 64)]

namespace Literal

/-- The text with a surrogate that has remained alone. -/
def flushed (l : Literal) : Bytes :=
  match l.pending with
  | some high => l.text ++ encodeCode high
  | none => l.text

/-- A character is added. -/
def add (l : Literal) (bytes : Bytes) : Literal := ⟨l.isKey, l.flushed ++ bytes, none⟩

/-- The code of a `\u` escape is added: a low surrogate completes a pair, a high one may begin
another. -/
def addCode (l : Literal) (code : ℕ) : Literal :=
  match l.pending with
  | some high =>
    if 0xDC00 ≤ code ∧ code < 0xE000 then
      ⟨l.isKey, l.text ++ encodeCode (0x10000 + (high - 0xD800) * 1024 + (code - 0xDC00)), none⟩
    else if 0xD800 ≤ code ∧ code < 0xDC00 then ⟨l.isKey, l.flushed, some code⟩
    else l.add (encodeCode code)
  | none =>
    if 0xD800 ≤ code ∧ code < 0xDC00 then ⟨l.isKey, l.text, some code⟩
    else l.add (encodeCode code)

end Literal

variable (r : JsonReader)

/-- The constants, by their first letter: the letters that follow and the value. -/
def constantOf : UInt8 → Option (Bytes × Json)
  | 0x6E => some (ascii "ull", .null)
  | 0x74 => some (ascii "rue", .bool true)
  | 0x66 => some (ascii "alse", .bool false)
  | 0x4E => if r.constants then some (ascii "aN", .float 0x7FF8000000000000) else none
  | 0x49 => if r.constants then some (ascii "nfinity", .float 0x7FF0000000000000) else none
  | _ => none

/-- The first byte of a value. -/
def beginValue (stack : List Frame) (b : UInt8) : Option State :=
  if b = 0x22 then some ⟨stack, .text ⟨false, [], none⟩⟩
  else if b = 0x5B then some ⟨.array [] :: stack, .firstElement⟩
  else if b = 0x7B then some ⟨.object [] [] :: stack, .key true⟩
  else if startsNumber b then some ⟨stack, .number [b]⟩
  else (r.constantOf b).map fun constant => ⟨stack, .constant constant.1 constant.2⟩

/-- The byte after a complete value: a comma, or the end of the array or object that the value
belongs to. -/
def afterValue (stack : List Frame) (v : Json) (b : UInt8) : Option State :=
  if isSpace b then some ⟨stack, .after v⟩
  else
    match stack with
    | [] => none
    | .array elements :: stack =>
      if b = 0x2C then some ⟨.array (elements ++ [v]) :: stack, .value⟩
      else if b = 0x5D then some ⟨stack, .after (.array (elements ++ [v]))⟩
      else none
    | .object members key :: stack =>
      if b = 0x2C then some ⟨.object (r.insert key v members) [] :: stack, .key false⟩
      else if b = 0x7D then some ⟨stack, .after (.object (r.insert key v members))⟩
      else none

/-- The end of a string literal. -/
def endText (stack : List Frame) (l : Literal) : Option State :=
  if l.isKey then
    match stack with
    | .object members _ :: stack => some ⟨.object members l.flushed :: stack, .colon⟩
    | _ => none
  else some ⟨stack, .after (.string l.flushed)⟩

/-- One byte. -/
def step (s : State) (b : UInt8) : Option State :=
  match s.mode with
  | .value => if isSpace b then some s else r.beginValue s.stack b
  | .firstElement =>
    if isSpace b then some s
    else if b = 0x5D then
      match s.stack with
      | .array _ :: stack => some ⟨stack, .after (.array [])⟩
      | _ => none
    else r.beginValue s.stack b
  | .key first =>
    if isSpace b then some s
    else if b = 0x22 then some ⟨s.stack, .text ⟨true, [], none⟩⟩
    else if b = 0x7D && first then
      match s.stack with
      | .object _ _ :: stack => some ⟨stack, .after (.object [])⟩
      | _ => none
    else none
  | .colon =>
    if isSpace b then some s
    else if b = 0x3A then some ⟨s.stack, .value⟩
    else none
  | .after v => r.afterValue s.stack v b
  | .text l =>
    if b = 0x22 then endText s.stack l
    else if b = 0x5C then some ⟨s.stack, .escape l⟩
    else if b < 0x20 then none
    else some ⟨s.stack, .text (l.add [b])⟩
  | .escape l =>
    if b = 0x75 then some ⟨s.stack, .hex l 4 0⟩
    else (escaped b).map fun c => ⟨s.stack, .text (l.add [c])⟩
  | .hex l missing code =>
    (hexValue b).map fun digit =>
      if missing ≤ 1 then ⟨s.stack, .text (l.addCode (code * 16 + digit))⟩
      else ⟨s.stack, .hex l (missing - 1) (code * 16 + digit)⟩
  | .constant missing v =>
    match missing with
    | [] => none
    | [c] => if b = c then some ⟨s.stack, .after v⟩ else none
    | c :: missing => if b = c then some ⟨s.stack, .constant missing v⟩ else none
  | .number literal =>
    if isNumberByte b then some ⟨s.stack, .number (literal ++ [b])⟩
    else if b = 0x49 && literal == [0x2D] && r.constants then
      some ⟨s.stack, .constant (ascii "nfinity") (.float 0xFFF0000000000000)⟩
    else (r.number literal).bind fun v => r.afterValue s.stack v b

/-- Some bytes. -/
def run (s : State) (text : Bytes) : Option State := text.foldlM r.step s

/-- The end of the text. -/
def finish (s : State) : Option Json :=
  match s.stack, s.mode with
  | [], .after v => some v
  | [], .number literal => r.number literal
  | _, _ => none

/-- What a text makes of a state at its end. -/
def readFrom (s : State) (text : Bytes) : Option Json := (r.run s text).bind r.finish

/-- The value of a text, if it is one. -/
def read (text : Bytes) : Option Json := r.readFrom ⟨[], .value⟩ text

/-- A text is read byte by byte. -/
theorem readFrom_cons (s : State) (b : UInt8) (text : Bytes) :
    r.readFrom s (b :: text) = (r.step s b).bind fun t => r.readFrom t text := by
  simp [readFrom, run, Option.bind_eq_bind, Option.bind_assoc]

/-- The end of a text. -/
theorem readFrom_nil (s : State) : r.readFrom s [] = r.finish s := rfl

end JsonReader

end PqtlsLab
