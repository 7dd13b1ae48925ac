import PqtlsLab.Foundation.Dictionary
import PqtlsLab.Foundation.JsonBrackets
import Mathlib.Data.List.TakeWhile

/-!
# Reading lines of JSON in Python

The text functions by which a Python program reads a file of JSON documents, one on each line:
decoding, iteration over the lines with any of the usual line ends, `str.strip` and `json.loads`.
Integers are unbounded there, and how a literal is converted to a binary64 number is a parameter.
-/

namespace PqtlsLab

namespace Python

open JsonReader

/-- The value of some decimal digits. -/
def digitsValue (digits : Bytes) : ℕ := digits.foldl (fun n b => 10 * n + (b.toNat - 0x30)) 0

/-- `-?(0|[1-9]\d*)`: the number and what follows it. -/
def integerPart (literal : Bytes) : Option (ℤ × Bytes) :=
  let (negative, text) := match literal with
    | 0x2D :: text => (true, text)
    | text => (false, text)
  let digits := text.takeWhile isDigit
  if digits = [] ∨ digits.head? = some 0x30 ∧ digits.length ≠ 1 then none
  else
    some (if negative then -(digitsValue digits : ℤ) else digitsValue digits,
      text.dropWhile isDigit)

/-- `\d+`: what follows. -/
def afterDigits (text : Bytes) : Option Bytes :=
  if text.takeWhile isDigit = [] then none else some (text.dropWhile isDigit)

/-- `(\.\d+)?`: what follows. -/
def afterFraction : Bytes → Option Bytes
  | 0x2E :: text => afterDigits text
  | text => some text

/-- `([eE][-+]?\d+)?`: what follows. -/
def afterExponent : Bytes → Option Bytes
  | 0x65 :: 0x2D :: text | 0x65 :: 0x2B :: text | 0x45 :: 0x2D :: text | 0x45 :: 0x2B :: text
  | 0x65 :: text | 0x45 :: text => afterDigits text
  | text => some text

/-- The number of a literal: an `int`, or a `float` if it has a fraction or an exponent. -/
def number (toFloat : Bytes → UInt64) (literal : Bytes) : Option Json := do
  let (i, rest) ← integerPart literal
  if rest.isEmpty then return .int i
  let rest ← afterExponent (← afterFraction rest)
  if rest.isEmpty then some (.float (toFloat literal)) else none

/-- The reader of `json.loads`. A key that occurs again keeps its place and gets the new value. -/
def jsonReader (toFloat : Bytes → UInt64) : JsonReader where
  number := number toFloat
  constants := true
  insert key v := Dictionary.alterEntries key fun _ => v

/-- `json.loads`; `none` stands for a `JSONDecodeError`. -/
def loads (toFloat : Bytes → UInt64) (text : Bytes) : Option Json := (jsonReader toFloat).read text

/-- The characters that `str.strip` removes. -/
def whitespace : List Bytes :=
  [[0x09], [0x0A], [0x0B], [0x0C], [0x0D], [0x1C], [0x1D], [0x1E], [0x1F], [0x20], [0xC2, 0x85],
    [0xC2, 0xA0], [0xE1, 0x9A, 0x80], [0xE2, 0x80, 0x80], [0xE2, 0x80, 0x81], [0xE2, 0x80, 0x82],
    [0xE2, 0x80, 0x83], [0xE2, 0x80, 0x84], [0xE2, 0x80, 0x85], [0xE2, 0x80, 0x86],
    [0xE2, 0x80, 0x87], [0xE2, 0x80, 0x88], [0xE2, 0x80, 0x89], [0xE2, 0x80, 0x8A],
    [0xE2, 0x80, 0xA8], [0xE2, 0x80, 0xA9], [0xE2, 0x80, 0xAF], [0xE2, 0x81, 0x9F],
    [0xE3, 0x80, 0x80]]

/-- A text without the words at its front. The words are not empty, so that the length of the text
bounds their number. -/
def dropWords (words : List Bytes) : ℕ → Bytes → Bytes
  | 0, text => text
  | n + 1, text =>
    match words.find? fun word => word.isPrefixOf text with
    | some word => dropWords words n (text.drop word.length)
    | none => text

/-- `str.lstrip`. -/
def lstrip (text : Bytes) : Bytes := dropWords whitespace text.length text

/-- `str.rstrip`. -/
def rstrip (text : Bytes) : Bytes :=
  (dropWords (whitespace.map List.reverse) text.length text.reverse).reverse

/-- `str.strip`. -/
def strip (text : Bytes) : Bytes := rstrip (lstrip text)

/-- The lines of a text, without their ends; the last one need not have an end. A newline that
follows a carriage return belongs to the same end. -/
def linesFrom : Bool → Bytes → List Bytes
  | _, [] => []
  | afterReturn, b :: text =>
    if b = 0x0A ∧ afterReturn = true then linesFrom false text
    else if b = 0x0A then [] :: linesFrom false text
    else if b = 0x0D then [] :: linesFrom true text
    else
      match linesFrom false text with
      | [] => [[b]]
      | line :: lines => (b :: line) :: lines

/-- Iteration over a file that has been opened as text. -/
def lines (text : Bytes) : List Bytes := linesFrom false text

/-- `enumerate(handle, start=n)`, with every line stripped and the empty ones left out. -/
def strippedLines : ℕ → List Bytes → List (ℕ × Bytes)
  | _, [] => []
  | n, line :: lines =>
    if (strip line).isEmpty then strippedLines (n + 1) lines
    else (n, strip line) :: strippedLines (n + 1) lines

/-- The line ends of `str.splitlines`. A newline that follows a carriage return belongs to the same
end. -/
def lineEnds : List Bytes :=
  [[0x0D, 0x0A], [0x0A], [0x0B], [0x0C], [0x0D], [0x1C], [0x1D], [0x1E], [0xC2, 0x85],
    [0xE2, 0x80, 0xA8], [0xE2, 0x80, 0xA9]]

/-- The lines of a text, whose length bounds the number of steps. -/
def splitlinesFrom : ℕ → Bytes → List Bytes
  | 0, _ | _, [] => []
  | n + 1, b :: text =>
    match lineEnds.find? fun lineEnd => lineEnd.isPrefixOf (b :: text) with
    | some lineEnd => [] :: splitlinesFrom n ((b :: text).drop lineEnd.length)
    | none =>
      match splitlinesFrom n text with
      | [] => [[b]]
      | line :: lines => (b :: line) :: lines

/-- `str.splitlines`. -/
def splitlines (text : Bytes) : List Bytes := splitlinesFrom text.length text

/-- A file that a program opens as text. -/
structure TextFile where
  path : Bytes
  /-- What the file contains, or the text of the `OSError` if it cannot be read. -/
  content : Except Bytes Bytes

/-- Why the text of a file is not available. -/
inductive ReadError where
  | osError (text : Bytes)
  | unicodeDecodeError

/-- The numbers and the texts of the lines that are not empty. -/
def TextFile.numberedLines (file : TextFile) : Except ReadError (List (ℕ × Bytes)) :=
  match file.content with
  | .error text => .error (.osError text)
  | .ok content =>
    if Utf8.valid content then .ok (strippedLines 1 (lines content))
    else .error .unicodeDecodeError

/-- What the module `json` adds to the grammar: the conversion of a literal to a binary64 number,
and `exc.msg` and `str(exc)` for the `JSONDecodeError` of a text. -/
structure JsonModule where
  toFloat : Bytes → UInt64
  message : Bytes → Bytes
  errorText : Bytes → Bytes

/-- `json.loads` for a line. -/
def JsonModule.load (json : JsonModule) (line : Bytes) : Option Json := loads json.toFloat line

/-- The value of the decimal digits of a number. -/
theorem digitsValue_decimal (n : ℕ) : digitsValue (decimal n) = n := by
  have hfold : digitsValue (decimal n) = Nat.ofDigitChars 10 (Nat.toDigits 10 n) 0 := by
    have hdigit : ∀ c ∈ Nat.toDigits 10 n, c.isDigit = true := fun c hc =>
      Nat.isDigit_of_mem_toDigits (by decide) (by decide) hc
    unfold digitsValue decimal Nat.ofDigitChars
    generalize Nat.toDigits 10 n = digits at hdigit
    generalize 0 = value
    induction digits generalizing value with
    | nil => rfl
    | cons c digits ih =>
      rw [List.map_cons, List.foldl_cons, List.foldl_cons, toNat_digit_byte (hdigit c (by simp))]
      exact ih (fun d hd => hdigit d (by simp [hd])) _
  rw [hfold, Nat.ofDigitChars_ten_toDigits]

/-- The digits of a positive number do not begin with a zero. -/
theorem head?_decimal (n : ℕ) (h : (decimal n).head? = some 0x30) : (decimal n).length = 1 := by
  induction n using Nat.strongRecOn with
  | ind n ih =>
    by_cases hn : n < 10
    · simp [decimal, Nat.toDigits_of_lt_base hn]
    · have hsplit := Nat.toDigits_of_base_le (by decide : 1 < 10) (Nat.le_of_not_lt hn)
      have hdecimal : decimal n = decimal (n / 10) ++ [UInt8.ofNat (n % 10).digitChar.toNat] := by
        rw [decimal, hsplit, List.map_append]
        rfl
      rw [hdecimal, List.head?_append_of_ne_nil _ (decimal_ne_nil _)] at h
      have hshort := ih (n / 10) (by omega) h
      obtain ⟨b, hb⟩ := List.length_eq_one_iff.mp hshort
      rw [hb] at h
      obtain rfl := Option.some.inj h
      have hvalue := digitsValue_decimal (n / 10)
      rw [hb] at hvalue
      have hzero : n / 10 = 0 := hvalue.symm
      omega

/-- A number is written in digits. -/
theorem isDigit_of_mem_decimal {n : ℕ} {b : UInt8} (hb : b ∈ decimal n) : isDigit b = true := by
  simp [isDigit, mem_decimal_bounds hb]

/-- The digits of a number are read to their end. -/
theorem decimal_span (n : ℕ) {rest : Bytes} (h : ∀ b ∈ rest.head?, isDigit b = false) :
    (decimal n ++ rest).takeWhile isDigit = decimal n ∧
      (decimal n ++ rest).dropWhile isDigit = rest := by
  have hdigits : ∀ b ∈ decimal n, isDigit b = true := fun b hb => isDigit_of_mem_decimal hb
  rw [List.takeWhile_append_of_pos hdigits, List.dropWhile_append_of_pos hdigits]
  cases rest with
  | nil => exact ⟨List.append_nil _, rfl⟩
  | cons b rest => simp [h b rfl]

/-- A number has no superfluous zeros. -/
theorem decimal_proper (n : ℕ) :
    ¬ (decimal n = [] ∨ (decimal n).head? = some 0x30 ∧ (decimal n).length ≠ 1) := by
  rintro (hnil | ⟨hzero, hlong⟩)
  · exact decimal_ne_nil n hnil
  · exact hlong (head?_decimal n hzero)

/-- The digits of a number that something else follows are read as that number. -/
theorem integerPart_decimal_append (n : ℕ) {rest : Bytes}
    (h : ∀ b ∈ rest.head?, isDigit b = false) :
    integerPart (decimal n ++ rest) = some ((n : ℤ), rest) := by
  obtain ⟨htake, hdrop⟩ := decimal_span n h
  have hsign : ∀ text : Bytes, decimal n ++ rest ≠ 0x2D :: text := by
    intro text heq
    obtain ⟨b, digits, hdigits⟩ := List.exists_cons_of_ne_nil (decimal_ne_nil n)
    rw [hdigits] at heq
    exact cons_ne_decimal digits n ((List.cons.inj heq).1 ▸ hdigits.symm)
  unfold integerPart
  split
  rename_i negative text hmatch
  split at hmatch
  · rename_i text' heq
    exact absurd heq (hsign text')
  · cases hmatch
    simp only [htake, hdrop, decimal_proper, if_false, Bool.false_eq_true, digitsValue_decimal]

/-- The literal of an integer is read as that integer. -/
theorem integerPart_decimalInt (i : ℤ) : integerPart (decimalInt i) = some (i, []) := by
  unfold decimalInt
  split
  · rename_i hnegative
    obtain ⟨htake, hdrop⟩ := @decimal_span i.natAbs [] (by simp)
    rw [List.append_nil] at htake hdrop
    simp only [integerPart, htake, hdrop, decimal_proper, if_false, if_true, digitsValue_decimal]
    congr 2
    omega
  · rename_i hpositive
    have hread := @integerPart_decimal_append i.natAbs [] (by simp)
    rw [List.append_nil] at hread
    rw [hread]
    congr 2
    omega

/-- A text that begins with none of the words stays as it is. -/
theorem dropWords_of_head {words : List Bytes} {b : UInt8}
    (h : ∀ word ∈ words, word ≠ [] ∧ word.head? ≠ some b) (n : ℕ) (text : Bytes) :
    dropWords words n (b :: text) = b :: text := by
  cases n with
  | zero => rfl
  | succ n =>
    have hfind : (words.find? fun word => word.isPrefixOf (b :: text)) = none := by
      rw [List.find?_eq_none]
      intro word hword
      obtain ⟨hne, hhead⟩ := h word hword
      obtain ⟨c, rest, rfl⟩ := List.exists_cons_of_ne_nil hne
      have hcb : c ≠ b := fun hcb => hhead (by rw [List.head?_cons, hcb])
      simp [hcb]
    rw [dropWords, hfind]

/-- Dropping words leaves the end of the text. -/
theorem dropWords_suffix (words : List Bytes) (n : ℕ) (text : Bytes) :
    dropWords words n text <:+ text := by
  induction n generalizing text with
  | zero => exact List.suffix_rfl
  | succ n ih =>
    rw [dropWords]
    split
    · exact (ih _).trans (List.drop_suffix _ _)
    · exact List.suffix_rfl

/-- A text that begins with an opening brace keeps its beginning. -/
theorem strip_isPrefix (text : Bytes) : strip (0x7B :: text) <+: 0x7B :: text := by
  have hwords : ∀ word ∈ whitespace, word ≠ [] ∧ word.head? ≠ some 0x7B := by decide
  have hsuffix := dropWords_suffix (whitespace.map List.reverse) (0x7B :: text).length
    (0x7B :: text).reverse
  rw [strip, lstrip, dropWords_of_head hwords, rstrip]
  rw [← List.reverse_suffix, List.reverse_reverse]
  exact hsuffix

/-- A text between braces stays as it is. -/
theorem strip_braces (text : Bytes) : strip (0x7B :: text ++ [0x7D]) = 0x7B :: text ++ [0x7D] := by
  have hwords : ∀ word ∈ whitespace, word ≠ [] ∧ word.head? ≠ some 0x7B := by decide
  have hends : ∀ word ∈ whitespace.map List.reverse, word ≠ [] ∧ word.head? ≠ some 0x7D := by
    decide
  rw [strip, lstrip, List.cons_append, dropWords_of_head hwords, ← List.cons_append, rstrip,
    List.reverse_append, List.reverse_singleton, List.singleton_append, dropWords_of_head hends]
  simp

/-- A text is on one line. -/
def OneLine (text : Bytes) : Prop := ∀ b ∈ text, b ≠ 0x0A ∧ b ≠ 0x0D

instance (text : Bytes) : Decidable (OneLine text) :=
  List.decidableBAll (fun b => b ≠ 0x0A ∧ b ≠ 0x0D) text

/-- A line and its end come before the other lines. -/
theorem lines_append {line : Bytes} (h : OneLine line) (rest : Bytes) :
    lines (line ++ 0x0A :: rest) = line :: lines rest := by
  unfold lines
  induction line with
  | nil => simp [linesFrom]
  | cons b line ih =>
    obtain ⟨hnewline, hreturn⟩ := h b (by simp)
    rw [List.cons_append, linesFrom, if_neg (by simp [hnewline]), if_neg hnewline, if_neg hreturn,
      ih fun c hc => h c (by simp [hc])]

/-- The last line need not have an end. -/
theorem lines_of_oneLine {line : Bytes} (h : OneLine line) (hne : line ≠ []) :
    lines line = [line] := by
  unfold lines
  induction line with
  | nil => exact absurd rfl hne
  | cons b line ih =>
    obtain ⟨hnewline, hreturn⟩ := h b (by simp)
    rw [linesFrom, if_neg (by simp [hnewline]), if_neg hnewline, if_neg hreturn]
    cases hline : line with
    | nil => rfl
    | cons c rest =>
      rw [← hline, ih (fun c hc => h c (by simp [hc])) (by simp [hline])]

/-- A text has no byte with which a line end begins. -/
def Unbroken (text : Bytes) : Prop := ∀ b ∈ text, 0x20 ≤ b ∧ b < 0x80 ∨ b = 0x09

/-- A text without line ends and its newline come before the other lines. -/
theorem splitlines_append {line : Bytes} (h : Unbroken line) (rest : Bytes) :
    splitlines (line ++ 0x0A :: rest) = line :: splitlines rest := by
  have hheads : ∀ lineEnd ∈ lineEnds, ∃ b tail, lineEnd = b :: tail ∧
      ¬ (0x20 ≤ b ∧ b < 0x80 ∨ b = 0x09) := by
    intro lineEnd hmem
    simp only [lineEnds, List.mem_cons, List.not_mem_nil, or_false] at hmem
    rcases hmem with rfl | rfl | rfl | rfl | rfl | rfl | rfl | rfl | rfl | rfl | rfl <;>
      exact ⟨_, _, rfl, by decide⟩
  have hfrom : splitlinesFrom (line.length + (rest.length + 1)) (line ++ 0x0A :: rest) =
      line :: splitlinesFrom rest.length rest := by
    induction line with
    | nil => simp [splitlinesFrom, lineEnds]
    | cons b line ih =>
      have hnone : (lineEnds.find? fun lineEnd =>
          lineEnd.isPrefixOf (b :: (line ++ 0x0A :: rest))) = none := by
        rw [List.find?_eq_none]
        intro lineEnd hmem hbegins
        obtain ⟨c, tail, rfl, hc⟩ := hheads lineEnd hmem
        simp only [List.isPrefixOf, Bool.and_eq_true, beq_iff_eq] at hbegins
        exact hc (hbegins.1 ▸ h b (by simp))
      rw [List.length_cons, Nat.add_right_comm, List.cons_append, splitlinesFrom, hnone,
        ih fun c hc => h c (by simp [hc])]
  rw [splitlines, List.length_append, List.length_cons, hfrom]
  rfl

/-- The lines that consist of texts between braces are kept as they are. -/
theorem strippedLines_append {texts : List Bytes}
    (h : ∀ text ∈ texts, OneLine text ∧ ∃ inner, text = 0x7B :: inner ++ [0x7D]) (n : ℕ)
    (rest : Bytes) :
    strippedLines n (lines (texts.flatMap (fun text => text ++ [0x0A]) ++ rest)) =
      (texts.zipIdx n).map Prod.swap ++ strippedLines (n + texts.length) (lines rest) := by
  induction texts generalizing n with
  | nil => rfl
  | cons text texts ih =>
    obtain ⟨hline, inner, hinner⟩ := h text (by simp)
    have hstrip : strip text = text := by rw [hinner, strip_braces]
    have hne : text.isEmpty = false := by rw [hinner]; rfl
    rw [List.flatMap_cons, List.append_assoc, List.append_assoc, List.singleton_append,
      lines_append hline, strippedLines, hstrip, hne,
      ih (fun text' htext' => h text' (by simp [htext'])) (n + 1)]
    simp [Nat.add_assoc, Nat.add_comm 1]

/-- A single line is kept if something of it is left. -/
theorem strippedLines_singleton (n : ℕ) (line : Bytes) :
    strippedLines n [line] = if (strip line).isEmpty then [] else [(n, strip line)] := rfl

/-- Texts on one line can be put together. -/
theorem OneLine.append {s t : Bytes} (hs : OneLine s) (ht : OneLine t) : OneLine (s ++ t) := by
  intro b hb
  rcases List.mem_append.mp hb with hb | hb
  · exact hs b hb
  · exact ht b hb

/-- A part of a text on one line is on one line. -/
theorem OneLine.of_isPrefix {s t : Bytes} (ht : OneLine t) (h : s <+: t) : OneLine s :=
  fun b hb => ht b (h.subset hb)

/-- A list of texts on one line is on one line. -/
theorem oneLine_intercalate {texts : List Bytes} (h : ∀ text ∈ texts, OneLine text) :
    OneLine (List.intercalate [0x2C] texts) := by
  induction texts with
  | nil => intro b hb; cases hb
  | cons first rest ih =>
    have hfirst := h first (by simp)
    have hrest := ih fun text htext => h text (by simp [htext])
    cases rest with
    | nil => rwa [List.intercalate_singleton]
    | cons second rest =>
      rw [List.intercalate_cons_cons]
      exact (hfirst.append (by decide)).append hrest

/-- The bytes of a string literal are on one line. -/
theorem oneLine_quote (s : Bytes) : OneLine (Json.quote s) := by
  have hescape : ∀ b : UInt8, ((Json.escape b).all fun c => c != 0x0A && c != 0x0D) = true :=
    forall_byte (by decide +kernel)
  have hquote : OneLine [0x22] := by decide
  refine (hquote.append ?_).append hquote
  intro c hc
  obtain ⟨b, -, hc⟩ := List.mem_flatMap.mp hc
  simpa using List.all_eq_true.mp (hescape b) c hc

/-- The bytes of a number are on one line. -/
theorem oneLine_of_isNumberByte {text : Bytes} (h : ∀ b ∈ text, isNumberByte b = true) :
    OneLine text := by
  have hbyte : ∀ b : UInt8, isNumberByte b = true → b ≠ 0x0A ∧ b ≠ 0x0D :=
    forall_byte (by decide +kernel)
  exact fun b hb => hbyte b (h b hb)

variable {floatText : UInt64 → Bytes}

mutual

/-- The text of a value is on one line. -/
theorem oneLine_render (hfloat : Bracketing.WritesNumbers floatText) :
    ∀ j : Json, OneLine (j.render floatText)
  | .null => (by decide : OneLine (ascii "null"))
  | .bool false => (by decide : OneLine (ascii "false"))
  | .bool true => (by decide : OneLine (ascii "true"))
  | .int i => oneLine_of_isNumberByte fun _ hb => isNumberByte_of_mem_decimalInt hb
  | .float bits => by
    rw [Json.render]
    split
    · rename_i hfinite
      exact oneLine_of_isNumberByte (hfloat bits hfinite)
    · exact (by decide : OneLine (ascii "null"))
  | .string s => oneLine_quote s
  | .array xs => by
    have hopen : OneLine [0x5B] := by decide
    exact (hopen.append (oneLine_intercalate (oneLine_renderList hfloat xs))).append
      (by decide)
  | .object ms => by
    have hopen : OneLine [0x7B] := by decide
    exact (hopen.append (oneLine_intercalate (oneLine_renderMembers hfloat ms))).append
      (by decide)

/-- The texts of elements are on one line. -/
theorem oneLine_renderList (hfloat : Bracketing.WritesNumbers floatText) :
    ∀ xs : List Json, ∀ text ∈ Json.renderList floatText xs, OneLine text
  | [] => by simp [Json.renderList]
  | x :: xs => by
    simp only [Json.renderList, List.mem_cons, forall_eq_or_imp]
    exact ⟨oneLine_render hfloat x, oneLine_renderList hfloat xs⟩

/-- The texts of members are on one line. -/
theorem oneLine_renderMembers (hfloat : Bracketing.WritesNumbers floatText) :
    ∀ ms : List (Bytes × Json), ∀ text ∈ Json.renderMembers floatText ms, OneLine text
  | [] => by simp [Json.renderMembers]
  | (k, v) :: ms => by
    have hcolon : OneLine [0x3A] := by decide
    simp only [Json.renderMembers, List.mem_cons, forall_eq_or_imp]
    refine ⟨?_, oneLine_renderMembers hfloat ms⟩
    exact (oneLine_quote k).append (hcolon.append (oneLine_render hfloat v))

end

/-- Python reads the decimal forms of finite numbers as the numbers that they were made of. -/
structure ReadsNumbers (toFloat : Bytes → UInt64) (floatText : UInt64 → Bytes) : Prop where
  starts : ∀ bits, Json.finiteBits bits = true → ∃ b t, floatText bits = b :: t ∧
    startsNumber b = true ∧ ∀ c ∈ t, isNumberByte c = true
  number : ∀ bits, Json.finiteBits bits = true →
    number toFloat (floatText bits) = some (.float bits)

/-- Such decimal forms consist of the bytes of numbers. -/
theorem ReadsNumbers.writesNumbers {toFloat : Bytes → UInt64}
    (h : ReadsNumbers toFloat floatText) : Bracketing.WritesNumbers floatText := by
  intro bits hfinite c hc
  obtain ⟨b, t, htext, hb, ht⟩ := h.starts bits hfinite
  rw [htext] at hc
  rcases List.mem_cons.mp hc with rfl | hc
  · exact (startsNumber_iff c hb).2.2.2.2.2.2.2
  · exact ht c hc

/-- A key beyond all others is put behind them. -/
theorem alterEntries_of_lt {key : Bytes} {v : Json} {ms : List (Bytes × Json)}
    (h : ∀ m ∈ ms, m.1 < key) :
    Dictionary.alterEntries key (fun _ => v) ms = ms ++ [(key, v)] := by
  induction ms with
  | nil => rfl
  | cons m ms ih =>
    have hne : m.1 ≠ key := fun heq => List.lt_irrefl key (heq ▸ h m (by simp))
    rw [Dictionary.alterEntries, if_neg hne, ih fun m' hm' => h m' (by simp [hm'])]
    rfl

/-- `json.loads` understands the writer. -/
theorem ReadsNumbers.understands {toFloat : Bytes → UInt64}
    (h : ReadsNumbers toFloat floatText) : (jsonReader toFloat).Understands floatText where
  integer i _ := by
    simp [jsonReader, Python.number, integerPart_decimalInt]
  float := h.number
  floatText := h.starts
  insert _ _ _ hlt := alterEntries_of_lt hlt

end Python

end PqtlsLab
