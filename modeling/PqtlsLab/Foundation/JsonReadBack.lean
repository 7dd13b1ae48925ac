import PqtlsLab.Foundation.JsonReader
import PqtlsLab.Foundation.Python

/-!
# Reading what has been written

A reader that understands the numbers of a writer, and that appends the members of an object as
long as their keys increase, reads every well-formed value back from its compact text. A number
ends only with the byte that follows it, so that the text of a value is followed by a delimiter
or by nothing; the texts of strings, arrays and objects end by themselves.
-/

namespace PqtlsLab

/-- A reader understands the numbers of a writer, and keeps members in the order of their
keys. -/
structure JsonReader.Understands (r : JsonReader) (floatText : UInt64 → Bytes) : Prop where
  integer : ∀ i, (Json.int i).WellFormed → r.number (decimalInt i) = some (.int i)
  float : ∀ bits, Json.finiteBits bits = true → r.number (floatText bits) = some (.float bits)
  floatText : ∀ bits, Json.finiteBits bits = true → ∃ b t, floatText bits = b :: t ∧
    startsNumber b = true ∧ ∀ c ∈ t, isNumberByte c = true
  insert : ∀ key v ms, (∀ m ∈ ms, m.1 < key) → r.insert key v ms = ms ++ [(key, v)]

namespace JsonReader

variable {r : JsonReader} {stack : List Frame}

/-- What may follow the text of a value: nothing, or a byte that ends a number. -/
def Ends (rest : Bytes) : Prop :=
  ∀ b t, rest = b :: t → isNumberByte b = false ∧ b ≠ 0x49

/-- A comma or a closing bracket ends a number. -/
theorem ends_cons {b : UInt8} {t : Bytes} (hb : b = 0x2C ∨ b = 0x5D ∨ b = 0x7D) :
    Ends (b :: t) := by
  intro c u h
  obtain ⟨rfl, rfl⟩ := List.cons.inj h
  rcases hb with rfl | rfl | rfl
  · decide
  · decide
  · decide

/-- The hexadecimal digits of the writer are read. -/
theorem hexValue_hexDigit : ∀ n < 16, hexValue (Json.hexDigit n) = some n := by
  decide

/-- A control character is encoded by itself. -/
theorem encodeCode_toNat : ∀ b : UInt8, b < 0x20 →
    encodeCode ((b.toNat / 16) * 16 + b.toNat % 16) = [b] :=
  forall_byte (by decide +kernel)

/-- The bytes of a character of a string literal are read as that character. -/
theorem readFrom_escape (isKey : Bool) (text : Bytes) (b : UInt8) (rest : Bytes) :
    r.readFrom ⟨stack, .text ⟨isKey, text, none⟩⟩ (Json.escape b ++ rest) =
      r.readFrom ⟨stack, .text ⟨isKey, text ++ [b], none⟩⟩ rest := by
  have hletter {c : UInt8} (hc : escaped c = some b) (hu : c ≠ 0x75) :
      r.readFrom ⟨stack, .text ⟨isKey, text, none⟩⟩ (0x5C :: c :: rest) =
        r.readFrom ⟨stack, .text ⟨isKey, text ++ [b], none⟩⟩ rest := by
    have hslash : r.step ⟨stack, .text ⟨isKey, text, none⟩⟩ 0x5C =
        some ⟨stack, .escape ⟨isKey, text, none⟩⟩ := rfl
    rw [readFrom_cons, hslash, Option.bind_some, readFrom_cons]
    simp [step, hc, hu, Literal.add, Literal.flushed]
  unfold Json.escape
  split
  · rename_i h
    subst h
    exact hletter (by decide) (by decide)
  split
  · rename_i h
    subst h
    exact hletter (by decide) (by decide)
  split
  · rename_i h
    subst h
    exact hletter (by decide) (by decide)
  split
  · rename_i h
    subst h
    exact hletter (by decide) (by decide)
  split
  · rename_i h
    subst h
    exact hletter (by decide) (by decide)
  split
  · rename_i h
    subst h
    exact hletter (by decide) (by decide)
  split
  · rename_i h
    subst h
    exact hletter (by decide) (by decide)
  split
  · rename_i hcontrol
    have hhigh := hexValue_hexDigit (b.toNat / 16) (by have := b.toNat_lt; omega)
    have hlow := hexValue_hexDigit (b.toNat % 16) (by omega)
    have hzero := hexValue_hexDigit 0 (by omega)
    have hdigit : Json.hexDigit 0 = 0x30 := by decide
    rw [hdigit] at hzero
    have hcode := encodeCode_toNat b hcontrol
    have hsmall : ¬ (0xD800 ≤ b.toNat / 16 * 16 + b.toNat % 16) := by
      have := b.toNat_lt
      omega
    simp only [List.cons_append, List.nil_append, readFrom_cons, step]
    simp [hzero, hhigh, hlow, Literal.addCode, Literal.add, Literal.flushed, hcode, hsmall]
  · rename_i hquote hslash _ _ _ _ _ hcontrol
    rw [List.singleton_append, readFrom_cons]
    simp [step, hquote, hslash, hcontrol, Literal.add, Literal.flushed]

/-- The bytes of a string are read as that string. -/
theorem readFrom_flatMap_escape (isKey : Bool) (text s : Bytes) (rest : Bytes) :
    r.readFrom ⟨stack, .text ⟨isKey, text, none⟩⟩ (s.flatMap Json.escape ++ rest) =
      r.readFrom ⟨stack, .text ⟨isKey, text ++ s, none⟩⟩ rest := by
  induction s generalizing text with
  | nil => simp
  | cons b s ih =>
    rw [List.flatMap_cons, List.append_assoc, readFrom_escape, ih, List.append_assoc,
      List.singleton_append]

/-- A string literal is read as its string. -/
theorem readFrom_quote (s : Bytes) (rest : Bytes) :
    r.readFrom ⟨stack, .value⟩ (Json.quote s ++ rest) =
      r.readFrom ⟨stack, .after (.string s)⟩ rest := by
  have hquote : r.step ⟨stack, .value⟩ 0x22 = some ⟨stack, .text ⟨false, [], none⟩⟩ := rfl
  rw [Json.quote, List.cons_append, List.cons_append, readFrom_cons, hquote, Option.bind_some,
    List.append_assoc, readFrom_flatMap_escape, List.nil_append, List.singleton_append,
    readFrom_cons]
  rfl

/-- A key is read as its string. -/
theorem readFrom_key (members : List (Bytes × Json)) (old key : Bytes) (first : Bool)
    (rest : Bytes) :
    r.readFrom ⟨.object members old :: stack, .key first⟩ (Json.quote key ++ 0x3A :: rest) =
      r.readFrom ⟨.object members key :: stack, .value⟩ rest := by
  have hquote : r.step ⟨.object members old :: stack, .key first⟩ 0x22 =
      some ⟨.object members old :: stack, .text ⟨true, [], none⟩⟩ := rfl
  rw [Json.quote, List.cons_append, List.cons_append, readFrom_cons, hquote, Option.bind_some,
    List.append_assoc, readFrom_flatMap_escape, List.nil_append, List.singleton_append,
    readFrom_cons]
  rfl

/-- The bytes of a number are collected. -/
theorem readFrom_digits (literal : Bytes) {t : Bytes} (ht : ∀ c ∈ t, isNumberByte c = true)
    (rest : Bytes) :
    r.readFrom ⟨stack, .number literal⟩ (t ++ rest) =
      r.readFrom ⟨stack, .number (literal ++ t)⟩ rest := by
  induction t generalizing literal with
  | nil => simp
  | cons c t ih =>
    rw [List.cons_append, readFrom_cons]
    simp only [step, ht c (by simp), if_true, Option.bind_some]
    rw [ih _ fun d hd => ht d (by simp [hd]), List.append_assoc, List.singleton_append]

/-- The bytes that a number can begin with begin nothing else. -/
theorem startsNumber_iff : ∀ b : UInt8, startsNumber b = true →
    isSpace b = false ∧ b ≠ 0x22 ∧ b ≠ 0x5B ∧ b ≠ 0x5D ∧ b ≠ 0x7B ∧ b ≠ 0x5C ∧ b ≠ 0x7D ∧
      isNumberByte b = true :=
  forall_byte (by decide +kernel)

/-- The text of an integer begins as a number does. -/
theorem starts_decimalInt (i : ℤ) :
    ∃ b t, decimalInt i = b :: t ∧ startsNumber b = true := by
  have hne : decimalInt i ≠ [] := by
    unfold decimalInt
    split
    · exact List.cons_ne_nil _ _
    · exact decimal_ne_nil _
  obtain ⟨b, t, htext⟩ := List.exists_cons_of_ne_nil hne
  refine ⟨b, t, htext, ?_⟩
  rcases mem_decimalInt_bounds (htext ▸ List.mem_cons_self) with rfl | hb
  · rfl
  · simp [startsNumber, isDigit, hb]

/-- The bytes of the text of an integer are those of a number. -/
theorem isNumberByte_of_mem_decimalInt {i : ℤ} {c : UInt8} (h : c ∈ decimalInt i) :
    isNumberByte c = true := by
  rcases mem_decimalInt_bounds h with rfl | hc
  · rfl
  · simp [isNumberByte, isDigit, hc]

/-- A number is read as its value. -/
theorem readFrom_number {b : UInt8} {t : Bytes} {v : Json} (hb : startsNumber b = true)
    (ht : ∀ c ∈ t, isNumberByte c = true) (hv : r.number (b :: t) = some v) {rest : Bytes}
    (hrest : Ends rest) :
    r.readFrom ⟨stack, .value⟩ (b :: t ++ rest) = r.readFrom ⟨stack, .after v⟩ rest := by
  obtain ⟨hspace, hquote, harray, -, hobject, -⟩ := startsNumber_iff b hb
  have hstart : r.step ⟨stack, .value⟩ b = some ⟨stack, .number [b]⟩ := by
    simp [step, beginValue, hspace, hquote, harray, hobject, hb]
  rw [List.cons_append, readFrom_cons, hstart, Option.bind_some, readFrom_digits _ ht,
    List.singleton_append]
  cases rest with
  | nil =>
    rw [readFrom_nil, readFrom_nil]
    cases stack with
    | nil => simp [finish, hv]
    | cons frame stack => simp [finish]
  | cons c rest =>
    obtain ⟨hnumber, hinfinity⟩ := hrest c rest rfl
    rw [readFrom_cons, readFrom_cons]
    simp [step, hnumber, hinfinity, hv]

/-- A text that begins with the text of a value begins neither with white space nor with a closing
bracket. -/
theorem head_render {floatText : UInt64 → Bytes} (hr : r.Understands floatText) (j : Json) :
    ∃ b t, j.render floatText = b :: t ∧ isSpace b = false ∧ b ≠ 0x5D := by
  have hnumber {text : Bytes} (htext : ∃ b t, text = b :: t ∧ startsNumber b = true) :
      ∃ b t, text = b :: t ∧ isSpace b = false ∧ b ≠ 0x5D := by
    obtain ⟨b, t, rfl, hb⟩ := htext
    obtain ⟨hspace, -, -, hclose, -⟩ := startsNumber_iff b hb
    exact ⟨b, t, rfl, hspace, hclose⟩
  cases j with
  | null => exact ⟨0x6E, ascii "ull", rfl, by decide, by decide⟩
  | bool b =>
    cases b with
    | false => exact ⟨0x66, ascii "alse", rfl, by decide, by decide⟩
    | true => exact ⟨0x74, ascii "rue", rfl, by decide, by decide⟩
  | int i => exact hnumber (starts_decimalInt i)
  | float bits =>
    rw [Json.render]
    split
    · rename_i hfinite
      obtain ⟨b, t, htext, hb, -⟩ := hr.floatText bits hfinite
      exact hnumber ⟨b, t, htext, hb⟩
    · exact ⟨0x6E, ascii "ull", rfl, by decide, by decide⟩
  | string s => exact ⟨0x22, _, rfl, by decide, by decide⟩
  | array xs => exact ⟨0x5B, _, rfl, by decide, by decide⟩
  | object ms => exact ⟨0x7B, _, rfl, by decide, by decide⟩

/-- The first element of an array is read as any other one. -/
theorem readFrom_firstElement {floatText : UInt64 → Bytes} (hr : r.Understands floatText) (j : Json)
    (rest : Bytes) :
    r.readFrom ⟨.array [] :: stack, .firstElement⟩ (j.render floatText ++ rest) =
      r.readFrom ⟨.array [] :: stack, .value⟩ (j.render floatText ++ rest) := by
  obtain ⟨b, t, htext, hspace, hclose⟩ := head_render hr j
  rw [htext, List.cons_append, readFrom_cons, readFrom_cons]
  simp [step, hspace, hclose]

mutual

/-- A value is read back from its text. -/
theorem readFrom_render {floatText : UInt64 → Bytes} (hr : r.Understands floatText) :
    ∀ (j : Json), j.WellFormed → ∀ (stack : List Frame) {rest : Bytes}, Ends rest →
      r.readFrom ⟨stack, .value⟩ (j.render floatText ++ rest) =
        r.readFrom ⟨stack, .after j.loaded⟩ rest
  | .null, _, _, _, _ => rfl
  | .bool false, _, _, _, _ => rfl
  | .bool true, _, _, _, _ => rfl
  | .int i, hj, stack, rest, hrest => by
    obtain ⟨b, t, htext, hb⟩ := starts_decimalInt i
    have hnumber := hr.integer i hj
    have ht : ∀ c ∈ t, isNumberByte c = true := fun c hc =>
      isNumberByte_of_mem_decimalInt (htext ▸ List.mem_cons_of_mem b hc)
    rw [Json.render, htext] at *
    exact readFrom_number hb ht hnumber hrest
  | .float bits, _, stack, rest, hrest => by
    rw [Json.render, Json.loaded]
    split
    · rename_i hfinite
      obtain ⟨b, t, htext, hb, ht⟩ := hr.floatText bits hfinite
      have hnumber := hr.float bits hfinite
      rw [htext] at hnumber ⊢
      exact readFrom_number hb ht hnumber hrest
    · rfl
  | .string s, _, stack, rest, _ => readFrom_quote s rest
  | .array xs, hj, stack, rest, _ => by
    rw [Json.WellFormed] at hj
    have hopen : r.step ⟨stack, .value⟩ 0x5B = some ⟨.array [] :: stack, .firstElement⟩ := rfl
    rw [Json.render, Json.loaded, List.cons_append, List.cons_append, readFrom_cons, hopen,
      Option.bind_some, List.append_assoc, List.singleton_append]
    cases xs with
    | nil => rfl
    | cons x xs =>
      have hfirst := @readFrom_firstElement _ stack _ hr x
      have hread := readFrom_renderList hr (x :: xs) hj (List.cons_ne_nil _ _) stack [] rest
      rw [List.nil_append] at hread
      rw [← hread]
      cases xs with
      | nil =>
        simp only [Json.renderList, List.intercalate_singleton]
        exact hfirst _
      | cons y xs =>
        simp only [Json.renderList, List.intercalate_cons_cons, List.append_assoc]
        exact hfirst _
  | .object ms, hj, stack, rest, _ => readFrom_renderObject hr ms hj stack rest

/-- The elements of an array are read back. -/
theorem readFrom_renderList {floatText : UInt64 → Bytes} (hr : r.Understands floatText) :
    ∀ (xs : List Json), Json.WellFormedList xs → xs ≠ [] →
      ∀ (stack : List Frame) (done : List Json) (rest : Bytes),
      r.readFrom ⟨.array done :: stack, .value⟩
          (List.intercalate [0x2C] (Json.renderList floatText xs) ++ 0x5D :: rest) =
        r.readFrom ⟨stack, .after (.array (done ++ Json.loadedList xs))⟩ rest
  | [], _, hne, _, _, _ => absurd rfl hne
  | [x], hxs, _, stack, done, rest => by
    rw [Json.renderList, Json.renderList, List.intercalate_singleton,
      readFrom_render hr x hxs.1 _ (ends_cons (by simp))]
    rfl
  | x :: y :: xs, hxs, _, stack, done, rest => by
    have hnext := readFrom_renderList hr (y :: xs) hxs.2 (List.cons_ne_nil _ _) stack
      (done ++ [x.loaded]) rest
    rw [Json.renderList, Json.renderList, List.intercalate_cons_cons, List.append_assoc,
      List.append_assoc, List.singleton_append,
      readFrom_render hr x hxs.1 _ (ends_cons (by simp))]
    rw [List.append_assoc, List.singleton_append] at hnext
    exact hnext

/-- An object is read back from its text, whatever follows. -/
theorem readFrom_renderObject {floatText : UInt64 → Bytes} (hr : r.Understands floatText) :
    ∀ (ms : List (Bytes × Json)), (Json.object ms).WellFormed → ∀ (stack : List Frame)
      (rest : Bytes), r.readFrom ⟨stack, .value⟩ ((Json.object ms).render floatText ++ rest) =
        r.readFrom ⟨stack, .after (Json.object ms).loaded⟩ rest
  | [], _, stack, rest => rfl
  | (k, v) :: ms, hj, stack, rest => by
    rw [Json.WellFormed] at hj
    have hopen : r.step ⟨stack, .value⟩ 0x7B = some ⟨.object [] [] :: stack, .key true⟩ := rfl
    rw [Json.render, Json.loaded, List.cons_append, List.cons_append, readFrom_cons, hopen,
      Option.bind_some, List.append_assoc, List.singleton_append]
    have hread := readFrom_renderMembers hr ((k, v) :: ms) hj.2 hj.1 (List.cons_ne_nil _ _) stack []
      (by simp) true rest
    rwa [List.nil_append] at hread

/-- The members of an object are read back. -/
theorem readFrom_renderMembers {floatText : UInt64 → Bytes} (hr : r.Understands floatText) :
    ∀ (ms : List (Bytes × Json)), Json.WellFormedMembers ms →
      (ms.map Prod.fst).Pairwise (· < ·) → ms ≠ [] →
      ∀ (stack : List Frame) (done : List (Bytes × Json)),
      (∀ m ∈ done, ∀ key ∈ ms.map Prod.fst, m.1 < key) → ∀ (first : Bool) (rest : Bytes),
      r.readFrom ⟨.object done [] :: stack, .key first⟩
          (List.intercalate [0x2C] (Json.renderMembers floatText ms) ++ 0x7D :: rest) =
        r.readFrom ⟨stack, .after (.object (done ++ Json.loadedMembers ms))⟩ rest
  | [], _, _, hne, _, _, _, _, _ => absurd rfl hne
  | [(k, v)], hms, _, _, stack, done, hdone, first, rest => by
    have hinsert := hr.insert k v.loaded done fun m hm => hdone m hm k (by simp)
    rw [Json.renderMembers, Json.renderMembers, List.intercalate_singleton, List.append_assoc,
      List.cons_append, readFrom_key, readFrom_render hr v hms.1 _ (ends_cons (by simp))]
    rw [readFrom_cons]
    simp [step, afterValue, isSpace, hinsert, Json.loadedMembers]
  | (k, v) :: (k', v') :: ms, hms, hsorted, _, stack, done, hdone, first, rest => by
    have hinsert := hr.insert k v.loaded done fun m hm => hdone m hm k (by simp)
    obtain ⟨hfirst, hsorted⟩ := List.pairwise_cons.mp hsorted
    have hdone' : ∀ e ∈ done ++ [(k, v.loaded)], 
        ∀ key ∈ ((k', v') :: ms).map Prod.fst, e.1 < key := by
      intro e he key hkey
      rcases List.mem_append.mp he with he | he
      · exact hdone e he key (List.mem_cons_of_mem _ hkey)
      · rw [List.mem_singleton.mp he]
        exact hfirst key hkey
    have hnext := readFrom_renderMembers hr ((k', v') :: ms) hms.2 hsorted (List.cons_ne_nil _ _)
      stack (done ++ [(k, v.loaded)]) hdone' false rest
    have hstep : r.step ⟨.object done k :: stack, .after v.loaded⟩ 0x2C =
        some ⟨.object (done ++ [(k, v.loaded)]) [] :: stack, .key false⟩ := by
      simp [step, afterValue, isSpace, hinsert]
    rw [List.append_assoc, List.singleton_append] at hnext
    rw [Json.renderMembers, Json.renderMembers, List.intercalate_cons_cons, List.append_assoc,
      List.append_assoc, List.append_assoc, List.cons_append, readFrom_key, List.singleton_append,
      readFrom_render hr v hms.1 _ (ends_cons (by simp)), readFrom_cons, hstep, Option.bind_some]
    exact hnext

end

/-- Every well-formed value is read back from its text. -/
theorem read_render {floatText : UInt64 → Bytes} (hr : r.Understands floatText) {j : Json}
    (hj : j.WellFormed) : r.read (j.render floatText) = some j.loaded := by
  have hread := @readFrom_render _ _ hr j hj [] [] (by simp [Ends])
  rw [List.append_nil] at hread
  exact hread

end JsonReader

end PqtlsLab
