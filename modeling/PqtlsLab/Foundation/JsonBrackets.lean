import PqtlsLab.Foundation.JsonReadBack

/-!
# The brackets of JSON text

Outside of string literals the brackets of a JSON text are balanced. An object is therefore open
everywhere between its first and its last byte: no proper part of its text that begins where it
begins is the text of a value, nor becomes one when the text of another object follows it.
-/

namespace PqtlsLab

/-- Where a position is with respect to string literals. -/
inductive Quoting where
  | outside
  | inside
  /-- After a backslash in a literal. -/
  | escaped
  deriving DecidableEq

/-- The number of open brackets at a position, and where it is. -/
structure Bracketing where
  depth : ℕ
  quoting : Quoting
  deriving DecidableEq

namespace Bracketing

/-- One byte. A bracket that closes nothing and a backslash outside of literals are in no JSON
text. -/
def step (s : Bracketing) (b : UInt8) : Option Bracketing :=
  match s.quoting with
  | .outside =>
    if b = 0x22 then some ⟨s.depth, .inside⟩
    else if b = 0x5C then none
    else if b = 0x5B ∨ b = 0x7B then some ⟨s.depth + 1, .outside⟩
    else if b = 0x5D ∨ b = 0x7D then
      match s.depth with
      | 0 => none
      | depth + 1 => some ⟨depth, .outside⟩
    else some s
  | .inside =>
    if b = 0x22 then some ⟨s.depth, .outside⟩
    else if b = 0x5C then some ⟨s.depth, .escaped⟩
    else some s
  | .escaped => some ⟨s.depth, .inside⟩

/-- Some bytes. -/
def scan (s : Bracketing) (text : Bytes) : Option Bracketing := text.foldlM step s

/-- A text is scanned part by part. -/
theorem scan_append (s : Bracketing) (text rest : Bytes) :
    s.scan (text ++ rest) = (s.scan text).bind fun t => t.scan rest := by
  simp [scan, List.foldlM_append, Option.bind_eq_bind]

/-- A text is scanned byte by byte. -/
theorem scan_cons (s : Bracketing) (b : UInt8) (text : Bytes) :
    s.scan (b :: text) = (s.step b).bind fun t => t.scan text := by
  simp [scan, Option.bind_eq_bind]

/-- A byte that is neither a quotation mark nor a backslash nor a bracket. -/
def neutral (b : UInt8) : Bool :=
  b != 0x22 && b != 0x5C && b != 0x5B && b != 0x7B && b != 0x5D && b != 0x7D

/-- A neutral byte changes nothing outside of literals. -/
theorem step_of_neutral {b : UInt8} (hb : neutral b = true) (depth : ℕ) :
    step ⟨depth, .outside⟩ b = some ⟨depth, .outside⟩ := by
  simp only [neutral, Bool.and_eq_true, bne_iff_ne] at hb
  obtain ⟨⟨⟨⟨⟨hquote, hslash⟩, harray⟩, hobject⟩, hcloseArray⟩, hcloseObject⟩ := hb
  simp [step, hquote, hslash, harray, hobject, hcloseArray, hcloseObject]

/-- Neutral bytes change nothing outside of literals. -/
theorem scan_of_neutral {text : Bytes} (h : ∀ b ∈ text, neutral b = true) (depth : ℕ) :
    scan ⟨depth, .outside⟩ text = some ⟨depth, .outside⟩ := by
  induction text with
  | nil => rfl
  | cons b text ih =>
    rw [scan_cons, step_of_neutral (h b (by simp)), Option.bind_some,
      ih fun c hc => h c (by simp [hc])]

/-- With more open brackets around a text, more brackets are open in it. -/
theorem step_shift {s t : Bracketing} {b : UInt8} (h : s.step b = some t) (n : ℕ) :
    step ⟨s.depth + n, s.quoting⟩ b = some ⟨t.depth + n, t.quoting⟩ := by
  obtain ⟨depth, quoting⟩ := s
  cases quoting with
  | outside =>
    simp only [step] at h ⊢
    split_ifs at h ⊢ with hquote hslash hopen hclose
    · cases h
      rfl
    · cases h
      rw [Nat.add_right_comm]
    · cases depth with
      | zero => cases h
      | succ depth =>
        cases h
        rw [Nat.succ_add]
    · cases h
      rfl
  | inside =>
    simp only [step] at h ⊢
    split_ifs at h ⊢ with hquote hslash
    · cases h
      rfl
    · cases h
      rfl
    · cases h
      rfl
  | escaped =>
    cases h
    rfl

/-- With more open brackets around a text, more brackets are open after it. -/
theorem scan_shift {s t : Bracketing} {text : Bytes} (h : s.scan text = some t) (n : ℕ) :
    scan ⟨s.depth + n, s.quoting⟩ text = some ⟨t.depth + n, t.quoting⟩ := by
  induction text generalizing s with
  | nil =>
    cases h
    rfl
  | cons b text ih =>
    rw [scan_cons] at h ⊢
    obtain ⟨u, hu, ht⟩ := Option.bind_eq_some_iff.mp h
    rw [step_shift hu n, Option.bind_some]
    exact ih ht

/-- What begins a text that can be scanned can be scanned. -/
theorem exists_scan_of_prefix {s t : Bracketing} {part text : Bytes} (h : s.scan text = some t)
    (hpart : part <+: text) : ∃ u, s.scan part = some u := by
  obtain ⟨rest, rfl⟩ := hpart
  rw [scan_append] at h
  obtain ⟨u, hu, -⟩ := Option.bind_eq_some_iff.mp h
  exact ⟨u, hu⟩

/-- The bytes of a character of a literal stay inside of it. -/
theorem scan_escape (depth : ℕ) (b : UInt8) :
    scan ⟨depth, .inside⟩ (Json.escape b) = some ⟨depth, .inside⟩ := by
  unfold Json.escape
  split
  · rfl
  split
  · rfl
  split
  · rfl
  split
  · rfl
  split
  · rfl
  split
  · rfl
  split
  · rfl
  split
  · have hdigit : ∀ n < 16, Json.hexDigit n ≠ 0x22 ∧ Json.hexDigit n ≠ 0x5C := by decide
    have hhigh := hdigit (b.toNat / 16) (by have := b.toNat_lt; omega)
    have hlow := hdigit (b.toNat % 16) (by omega)
    simp [scan_cons, step, hhigh, hlow]
    rfl
  · rename_i hquote hslash _ _ _ _ _ _
    simp [scan_cons, step, hquote, hslash]
    rfl

/-- A string literal ends where it has begun. -/
theorem scan_quote (depth : ℕ) (s : Bytes) :
    scan ⟨depth, .outside⟩ (Json.quote s) = some ⟨depth, .outside⟩ := by
  have hopen : step ⟨depth, .outside⟩ 0x22 = some ⟨depth, .inside⟩ := rfl
  have hinside : scan ⟨depth, .inside⟩ (s.flatMap Json.escape) = some ⟨depth, .inside⟩ := by
    induction s with
    | nil => rfl
    | cons b s ih => rw [List.flatMap_cons, scan_append, scan_escape, Option.bind_some, ih]
  rw [Json.quote, List.cons_append, scan_cons, hopen, Option.bind_some, scan_append, hinside,
    Option.bind_some]
  rfl

/-- The bytes of a number are neutral. -/
theorem neutral_of_isNumberByte :
    ∀ b : UInt8, JsonReader.isNumberByte b = true → neutral b = true :=
  forall_byte (by decide +kernel)

/-- Texts that end where they have begun can be listed. -/
theorem scan_intercalate {texts : List Bytes} {depth : ℕ}
    (h : ∀ text ∈ texts, scan ⟨depth, .outside⟩ text = some ⟨depth, .outside⟩) :
    scan ⟨depth, .outside⟩ (List.intercalate [0x2C] texts) = some ⟨depth, .outside⟩ := by
  induction texts with
  | nil => rfl
  | cons first rest ih =>
    have hfirst := h first (by simp)
    have hrest := ih fun text htext => h text (by simp [htext])
    have hcomma : scan ⟨depth, .outside⟩ [0x2C] = some ⟨depth, .outside⟩ := rfl
    cases rest with
    | nil => rwa [List.intercalate_singleton]
    | cons second rest =>
      rw [List.intercalate_cons_cons, scan_append, scan_append, hfirst, Option.bind_some, hcomma,
        Option.bind_some, hrest]

/-- The numbers of a writer are made of the bytes of numbers. -/
def WritesNumbers (floatText : UInt64 → Bytes) : Prop :=
  ∀ bits, Json.finiteBits bits = true → ∀ b ∈ floatText bits, JsonReader.isNumberByte b = true

variable {floatText : UInt64 → Bytes}

mutual

/-- The text of a value ends where it has begun. -/
theorem scan_render (hfloat : WritesNumbers floatText) : ∀ (j : Json) (depth : ℕ),
    scan ⟨depth, .outside⟩ (j.render floatText) = some ⟨depth, .outside⟩
  | .null, _ => rfl
  | .bool false, _ => rfl
  | .bool true, _ => rfl
  | .int i, depth => by
    refine scan_of_neutral (fun b hb => ?_) depth
    exact neutral_of_isNumberByte b (JsonReader.isNumberByte_of_mem_decimalInt hb)
  | .float bits, depth => by
    rw [Json.render]
    split
    · rename_i hfinite
      exact scan_of_neutral (fun b hb => neutral_of_isNumberByte b (hfloat bits hfinite b hb)) depth
    · rfl
  | .string s, depth => scan_quote depth s
  | .array xs, depth => by
    have hopen : step ⟨depth, .outside⟩ 0x5B = some ⟨depth + 1, .outside⟩ := rfl
    rw [Json.render, List.cons_append, scan_cons, hopen, Option.bind_some, scan_append,
      scan_intercalate (scan_renderList hfloat xs (depth + 1)), Option.bind_some]
    rfl
  | .object ms, depth => by
    have hopen : step ⟨depth, .outside⟩ 0x7B = some ⟨depth + 1, .outside⟩ := rfl
    rw [Json.render, List.cons_append, scan_cons, hopen, Option.bind_some, scan_append,
      scan_intercalate (scan_renderMembers hfloat ms (depth + 1)), Option.bind_some]
    rfl

/-- The texts of elements end where they have begun. -/
theorem scan_renderList (hfloat : WritesNumbers floatText) : ∀ (xs : List Json) (depth : ℕ),
    ∀ text ∈ Json.renderList floatText xs,
    scan ⟨depth, .outside⟩ text = some ⟨depth, .outside⟩
  | [], _ => by simp [Json.renderList]
  | x :: xs, depth => by
    simp only [Json.renderList, List.mem_cons, forall_eq_or_imp]
    exact ⟨scan_render hfloat x depth, scan_renderList hfloat xs depth⟩

/-- The texts of members end where they have begun. -/
theorem scan_renderMembers (hfloat : WritesNumbers floatText) :
    ∀ (ms : List (Bytes × Json)) (depth : ℕ), ∀ text ∈ Json.renderMembers floatText ms,
    scan ⟨depth, .outside⟩ text = some ⟨depth, .outside⟩
  | [], _ => by simp [Json.renderMembers]
  | (k, v) :: ms, depth => by
    have hcolon : step ⟨depth, .outside⟩ 0x3A = some ⟨depth, .outside⟩ := rfl
    simp only [Json.renderMembers, List.mem_cons, forall_eq_or_imp]
    refine ⟨?_, scan_renderMembers hfloat ms depth⟩
    rw [scan_append, scan_quote, Option.bind_some, scan_cons, hcolon, Option.bind_some,
      scan_render hfloat v depth]

end

/-- An object is open after every part of its text that does not reach its end. -/
theorem exists_scan_of_torn (hfloat : WritesNumbers floatText) (ms : List (Bytes × Json))
    {part : Bytes} (hne : part ≠ []) (hpart : part <+: (Json.object ms).render floatText)
    (hlt : part ≠ (Json.object ms).render floatText) :
    ∃ depth quoting, scan ⟨0, .outside⟩ part = some ⟨depth + 1, quoting⟩ := by
  have hopen : step ⟨0, .outside⟩ 0x7B = some ⟨1, .outside⟩ := rfl
  have hinner := scan_intercalate (scan_renderMembers hfloat ms 0)
  rw [Json.render, List.cons_append] at hpart hlt
  obtain ⟨b, part, rfl⟩ := List.exists_cons_of_ne_nil hne
  obtain ⟨rfl, hrest⟩ := List.cons_prefix_cons.mp hpart
  rcases List.prefix_concat_iff.mp hrest with rfl | hrest
  · exact absurd rfl hlt
  · obtain ⟨⟨depth, quoting⟩, hscan⟩ := exists_scan_of_prefix hinner hrest
    refine ⟨depth, quoting, ?_⟩
    rw [scan_cons, hopen, Option.bind_some]
    exact scan_shift hscan 1

/-- Two readings of a text disagree on what is quoted. -/
inductive Opposed : Quoting → Quoting → Prop where
  | outside : Opposed .outside .inside
  | inside : Opposed .inside .outside

/-- Readings that disagree keep disagreeing, unless the wrong one fails. -/
theorem step_opposed {s t u v : Bracketing} {b : UInt8} (h : s.step b = some t)
    (hu : u.step b = some v) (hopposed : Opposed s.quoting u.quoting) :
    Opposed t.quoting v.quoting := by
  obtain ⟨depth, quoting⟩ := s
  obtain ⟨depth', quoting'⟩ := u
  cases hopposed with
  | outside =>
    simp only [step] at h hu
    split_ifs at h hu with hquote hslash hopen hclose
    · cases h
      cases hu
      exact .inside
    · cases h
      cases hu
      exact .outside
    · cases hu
      cases depth with
      | zero => cases h
      | succ depth =>
        cases h
        exact .outside
    · cases h
      cases hu
      exact .outside
  | inside =>
    simp only [step] at h hu
    split_ifs at h hu with hquote hslash hopen hclose
    · cases h
      cases hu
      exact .outside
    · cases h
      cases hu
      exact .inside
    · cases h
      cases depth' with
      | zero => cases hu
      | succ depth' =>
        cases hu
        exact .inside
    · cases h
      cases hu
      exact .inside

/-- Readings that disagree at the beginning of a text disagree at its end. -/
theorem scan_opposed {s t u v : Bracketing} {text : Bytes} (h : s.scan text = some t)
    (hu : u.scan text = some v) (hopposed : Opposed s.quoting u.quoting) :
    Opposed t.quoting v.quoting := by
  induction text generalizing s u with
  | nil =>
    cases h
    cases hu
    exact hopposed
  | cons b text ih =>
    rw [scan_cons] at h hu
    obtain ⟨s', hs', ht⟩ := Option.bind_eq_some_iff.mp h
    obtain ⟨u', hu', hv⟩ := Option.bind_eq_some_iff.mp hu
    exact ih ht hv (step_opposed hs' hu' hopposed)

/-- The text of an object that follows a part of another one does not close it. -/
theorem scan_torn_append (hfloat : WritesNumbers floatText) (ms : List (Bytes × Json))
    {part : Bytes} {depth : ℕ} {quoting : Quoting}
    (hpart : scan ⟨0, .outside⟩ part = some ⟨depth + 1, quoting⟩) :
    scan ⟨0, .outside⟩ (part ++ (Json.object ms).render floatText) ≠ some ⟨0, .outside⟩ := by
  have hopen (n : ℕ) : step ⟨n, .outside⟩ 0x7B = some ⟨n + 1, .outside⟩ := rfl
  have hrender := scan_render hfloat (Json.object ms)
  rw [scan_append, hpart, Option.bind_some]
  intro h
  cases quoting with
  | outside =>
    rw [hrender] at h
    cases h
  | inside => cases scan_opposed (hrender 0) h .outside
  | escaped =>
    have hinside : step ⟨depth + 1, .escaped⟩ 0x7B = some ⟨depth + 1, .inside⟩ := rfl
    have hobject := hrender 0
    rw [Json.render, List.cons_append, scan_cons, hopen, Option.bind_some] at hobject
    rw [Json.render, List.cons_append, scan_cons, hinside, Option.bind_some] at h
    cases scan_opposed hobject h .outside

end Bracketing

namespace JsonReader

open Bracketing

/-- What a mode means for the quotation marks. -/
def Mode.quoting : Mode → Quoting
  | .text _ | .hex _ _ _ => .inside
  | .escape _ => .escaped
  | _ => .outside

/-- The brackets of a state. -/
def State.bracketing (s : State) : Bracketing := ⟨s.stack.length, s.mode.quoting⟩

/-- The letters that a constant still misses are neutral. -/
def State.Plain (s : State) : Prop :=
  ∀ missing v, s.mode = .constant missing v → ∀ b ∈ missing, neutral b = true

/-- A state that is not in a constant misses no letters. -/
theorem plain_of_ne {stack : List Frame} {mode : Mode}
    (h : ∀ missing v, mode ≠ .constant missing v) :
    State.Plain ⟨stack, mode⟩ := fun missing v hmode => absurd hmode (h missing v)

/-- A hexadecimal digit is neither a quotation mark nor a backslash. -/
theorem ne_of_hexValue : ∀ b : UInt8, (hexValue b).isSome = true → b ≠ 0x22 ∧ b ≠ 0x5C :=
  forall_byte (by decide +kernel)

/-- White space is neutral. -/
theorem neutral_of_isSpace : ∀ b : UInt8, isSpace b = true → neutral b = true :=
  forall_byte (by decide +kernel)

variable {r : JsonReader} {stack : List Frame} {s t : State} {b : UInt8}

/-- The constants consist of letters. -/
theorem all_neutral_of_constantOf {missing : Bytes} {v : Json}
    (h : r.constantOf b = some (missing, v)) : (b :: missing).all neutral = true := by
  unfold constantOf at h
  split at h
  · cases h
    rfl
  · cases h
    rfl
  · cases h
    rfl
  · split at h
    · cases h
      rfl
    · cases h
  · split at h
    · cases h
      rfl
    · cases h
  · cases h

/-- The first byte of a value opens a bracket if it opens an array or an object. -/
theorem bracketing_beginValue (h : r.beginValue stack b = some t) :
    Bracketing.step ⟨stack.length, .outside⟩ b = some t.bracketing ∧ t.Plain := by
  unfold beginValue at h
  split at h
  · rename_i hb
    subst hb
    cases h
    exact ⟨rfl, plain_of_ne (by simp)⟩
  split at h
  · rename_i hb
    subst hb
    cases h
    exact ⟨rfl, plain_of_ne (by simp)⟩
  split at h
  · rename_i hb
    subst hb
    cases h
    exact ⟨rfl, plain_of_ne (by simp)⟩
  split at h
  · rename_i hb
    cases h
    obtain ⟨-, -, -, -, -, -, -, hnumber⟩ := startsNumber_iff b hb
    exact ⟨step_of_neutral (neutral_of_isNumberByte b hnumber) _, plain_of_ne (by simp)⟩
  · obtain ⟨⟨missing, v⟩, hconstant, rfl⟩ := Option.map_eq_some_iff.mp h
    have hneutral := List.all_eq_true.mp (all_neutral_of_constantOf hconstant)
    refine ⟨step_of_neutral (hneutral b (by simp)) _, ?_⟩
    intro missing' v' hmode
    cases hmode
    exact fun c hc => hneutral c (List.mem_cons_of_mem _ hc)

/-- The byte after a value closes a bracket if it closes an array or an object. -/
theorem bracketing_afterValue {v : Json} (h : r.afterValue stack v b = some t) :
    Bracketing.step ⟨stack.length, .outside⟩ b = some t.bracketing ∧ t.Plain := by
  unfold afterValue at h
  split at h
  · rename_i hspace
    cases h
    exact ⟨step_of_neutral (neutral_of_isSpace b hspace) _, plain_of_ne (by simp)⟩
  split at h
  · cases h
  · split at h
    · rename_i hb
      subst hb
      cases h
      exact ⟨rfl, plain_of_ne (by simp)⟩
    split at h
    · rename_i hb
      subst hb
      cases h
      exact ⟨rfl, plain_of_ne (by simp)⟩
    · cases h
  · split at h
    · rename_i hb
      subst hb
      cases h
      exact ⟨rfl, plain_of_ne (by simp)⟩
    split at h
    · rename_i hb
      subst hb
      cases h
      exact ⟨rfl, plain_of_ne (by simp)⟩
    · cases h

/-- The end of a string literal changes no bracket. -/
theorem bracketing_endText {l : Literal} (h : endText stack l = some t) :
    t.bracketing = ⟨stack.length, .outside⟩ ∧ t.Plain := by
  unfold endText at h
  split at h
  · split at h
    · cases h
      exact ⟨rfl, plain_of_ne (by simp)⟩
    · cases h
  · cases h
    exact ⟨rfl, plain_of_ne (by simp)⟩

/-- A reader goes through the brackets of its text. -/
theorem bracketing_step (hplain : s.Plain) (h : r.step s b = some t) :
    s.bracketing.step b = some t.bracketing ∧ t.Plain := by
  obtain ⟨stack, mode⟩ := s
  have hspace {mode : Mode} (hb : isSpace b = true) (hmode : mode.quoting = .outside) :
      (State.bracketing ⟨stack, mode⟩).step b = some (State.bracketing ⟨stack, mode⟩) := by
    rw [State.bracketing, hmode]
    exact step_of_neutral (neutral_of_isSpace b hb) _
  cases mode with
  | value =>
    simp only [step] at h
    split at h
    · rename_i hb
      cases h
      exact ⟨hspace hb rfl, hplain⟩
    · exact bracketing_beginValue h
  | firstElement =>
    simp only [step] at h
    split at h
    · rename_i hb
      cases h
      exact ⟨hspace hb rfl, hplain⟩
    split at h
    · rename_i hb
      subst hb
      split at h
      · cases h
        exact ⟨rfl, plain_of_ne (by simp)⟩
      · cases h
    · exact bracketing_beginValue h
  | key first =>
    simp only [step] at h
    split at h
    · rename_i hb
      cases h
      exact ⟨hspace hb rfl, hplain⟩
    split at h
    · rename_i hb
      subst hb
      cases h
      exact ⟨rfl, plain_of_ne (by simp)⟩
    split at h
    · rename_i hb
      obtain ⟨hb, -⟩ := Bool.and_eq_true_iff.mp hb
      obtain rfl := of_decide_eq_true hb
      split at h
      · cases h
        exact ⟨rfl, plain_of_ne (by simp)⟩
      · cases h
    · cases h
  | colon =>
    simp only [step] at h
    split at h
    · rename_i hb
      cases h
      exact ⟨hspace hb rfl, hplain⟩
    split at h
    · rename_i hb
      subst hb
      cases h
      exact ⟨rfl, plain_of_ne (by simp)⟩
    · cases h
  | after v => exact bracketing_afterValue h
  | text l =>
    simp only [step] at h
    split at h
    · rename_i hb
      subst hb
      obtain ⟨hbracketing, hplain'⟩ := bracketing_endText h
      rw [hbracketing]
      exact ⟨rfl, hplain'⟩
    split at h
    · rename_i hb
      subst hb
      cases h
      exact ⟨rfl, plain_of_ne (by simp)⟩
    split at h
    · cases h
    · rename_i hquote hslash _
      cases h
      refine ⟨?_, plain_of_ne (by simp)⟩
      simp [State.bracketing, Mode.quoting, Bracketing.step, hquote, hslash]
  | escape l =>
    simp only [step] at h
    split at h
    · cases h
      exact ⟨rfl, plain_of_ne (by simp)⟩
    · obtain ⟨c, -, rfl⟩ := Option.map_eq_some_iff.mp h
      exact ⟨rfl, plain_of_ne (by simp)⟩
  | hex l missing code =>
    simp only [step] at h
    obtain ⟨digit, hdigit, ht⟩ := Option.map_eq_some_iff.mp h
    have hb := ne_of_hexValue b (by rw [hdigit]; rfl)
    split at ht
    · cases ht
      refine ⟨?_, plain_of_ne (by simp)⟩
      simp [State.bracketing, Mode.quoting, Bracketing.step, hb]
    · cases ht
      refine ⟨?_, plain_of_ne (by simp)⟩
      simp [State.bracketing, Mode.quoting, Bracketing.step, hb]
  | constant missing v =>
    have hneutral := hplain missing v rfl
    simp only [step] at h
    split at h
    · cases h
    · split at h
      · rename_i hb
        subst hb
        cases h
        exact ⟨step_of_neutral (hneutral _ (by simp)) _, plain_of_ne (by simp)⟩
      · cases h
    · split at h
      · rename_i hb
        subst hb
        cases h
        refine ⟨step_of_neutral (hneutral _ (by simp)) _, ?_⟩
        intro missing' v' hmode
        cases hmode
        exact fun c hc => hneutral c (List.mem_cons_of_mem _ hc)
      · cases h
  | number literal =>
    simp only [step] at h
    split at h
    · rename_i hb
      cases h
      exact ⟨step_of_neutral (neutral_of_isNumberByte b hb) _, plain_of_ne (by simp)⟩
    split at h
    · rename_i hb
      simp only [Bool.and_eq_true, decide_eq_true_eq] at hb
      obtain ⟨⟨rfl, -⟩, -⟩ := hb
      cases h
      refine ⟨rfl, ?_⟩
      intro missing' v' hmode
      cases hmode
      exact List.all_eq_true.mp (by rfl : (ascii "nfinity").all neutral = true)
    · obtain ⟨v, -, hafter⟩ := Option.bind_eq_some_iff.mp h
      exact bracketing_afterValue hafter

/-- A reader goes through the brackets of its text, to the end. -/
theorem bracketing_run (hplain : s.Plain) {text : Bytes} (h : r.run s text = some t) :
    s.bracketing.scan text = some t.bracketing := by
  induction text generalizing s with
  | nil =>
    cases h
    rfl
  | cons b text ih =>
    rw [run, List.foldlM_cons] at h
    obtain ⟨u, hu, ht⟩ := Option.bind_eq_some_iff.mp h
    obtain ⟨hstep, hplain'⟩ := bracketing_step hplain hu
    rw [scan_cons, hstep, Option.bind_some]
    exact ih hplain' ht

/-- In the text of a value every bracket is closed. -/
theorem scan_of_read {text : Bytes} {v : Json} (h : r.read text = some v) :
    scan ⟨0, .outside⟩ text = some ⟨0, .outside⟩ := by
  obtain ⟨⟨stack, mode⟩, hrun, hfinish⟩ := Option.bind_eq_some_iff.mp h
  have hscan := bracketing_run (plain_of_ne (by simp)) hrun
  have hclosed : State.bracketing ⟨stack, mode⟩ = ⟨0, .outside⟩ := by
    simp only [finish] at hfinish
    split at hfinish
    · rfl
    · rfl
    · cases hfinish
  rw [hclosed] at hscan
  exact hscan

variable {floatText : UInt64 → Bytes}

/-- A part of the text of an object that does not reach its end is not the text of a value. -/
theorem read_torn (hfloat : WritesNumbers floatText) (ms : List (Bytes × Json)) {part : Bytes}
    (hpart : part <+: (Json.object ms).render floatText)
    (hlt : part ≠ (Json.object ms).render floatText) : r.read part = none := by
  by_contra hread
  obtain ⟨v, hv⟩ := Option.ne_none_iff_exists'.mp hread
  by_cases hne : part = []
  · subst hne
    cases hv
  · obtain ⟨depth, quoting, hscan⟩ := exists_scan_of_torn hfloat ms hne hpart hlt
    rw [scan_of_read hv] at hscan
    cases hscan

/-- The text of an object that follows the beginning of another one is not the text of a value
together with it. -/
theorem read_torn_append (hr : r.Understands floatText) (hfloat : WritesNumbers floatText)
    {ms : List (Bytes × Json)} (hms : (Json.object ms).WellFormed) (ms' : List (Bytes × Json))
    {part : Bytes} (hne : part ≠ []) (hpart : part <+: (Json.object ms).render floatText) :
    r.read (part ++ (Json.object ms').render floatText) = none := by
  by_cases hwhole : part = (Json.object ms).render floatText
  · rw [hwhole, read, readFrom_renderObject hr ms hms, Json.render, List.cons_append, readFrom_cons]
    rfl
  · by_contra hread
    obtain ⟨v, hv⟩ := Option.ne_none_iff_exists'.mp hread
    obtain ⟨depth, quoting, hscan⟩ := exists_scan_of_torn hfloat ms hne hpart hwhole
    exact scan_torn_append hfloat ms' hscan (scan_of_read hv)

end JsonReader

end PqtlsLab
