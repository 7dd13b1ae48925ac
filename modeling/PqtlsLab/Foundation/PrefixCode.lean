import Mathlib.Data.List.Basic
import Mathlib.Data.List.Infix
import Mathlib.Tactic.Common

/-!
# Self-delimiting codes

A code is self-delimiting when a code word can be cut off the front of any
stream in only one way. Concatenations of code words are then read back
uniquely, whatever follows them. The results below hold for arbitrary letters
and words; only the words satisfying `legal` need to be self-delimiting.
-/

namespace PqtlsLab

variable {α β : Type*}

/-- The code `enc` is self-delimiting on the legal words: no word is empty, and
two streams that begin with a word agree only if the words and the rests agree. -/
structure PrefixCode (enc : α → List β) (legal : α → Prop) : Prop where
  /-- A code word occupies at least one letter. -/
  nonempty : ∀ {a}, legal a → enc a ≠ []
  /-- The first word of a stream and the rest of the stream are determined by it. -/
  split : ∀ {a b r s}, legal a → legal b → enc a ++ r = enc b ++ s → a = b ∧ r = s

namespace PrefixCode

variable {enc : α → List β} {legal : α → Prop}

/-- If a concatenation of words can be cut into words and a rest, then the words
come first in the original list and the rest is the concatenation of the others. -/
theorem eq_append_of_flatMap (code : PrefixCode enc legal) {xs ys : List α} {r : List β}
    (hx : ∀ x ∈ xs, legal x) (hy : ∀ y ∈ ys, legal y)
    (h : xs.flatMap enc ++ r = ys.flatMap enc) :
    ∃ zs, ys = xs ++ zs ∧ r = zs.flatMap enc := by
  induction xs generalizing ys with
  | nil => exact ⟨ys, rfl, by simpa using h⟩
  | cons x xs ih =>
    cases ys with
    | nil =>
      have hne := code.nonempty (hx x (by simp))
      simp [hne] at h
    | cons y ys =>
      simp only [List.flatMap_cons, List.append_assoc] at h
      obtain ⟨rfl, htail⟩ := code.split (hx x (by simp)) (hy y (by simp)) h
      obtain ⟨zs, rfl, hr⟩ := ih (fun a ha => hx a (by simp [ha]))
        (fun a ha => hy a (by simp [ha])) htail
      exact ⟨zs, rfl, hr⟩

/-- A concatenation of words that is a prefix of another one consists of its
first words. -/
theorem prefix_of_flatMap_prefix (code : PrefixCode enc legal) {xs ys : List α}
    (hx : ∀ x ∈ xs, legal x) (hy : ∀ y ∈ ys, legal y)
    (h : xs.flatMap enc <+: ys.flatMap enc) : xs <+: ys := by
  obtain ⟨r, hr⟩ := h
  obtain ⟨zs, rfl, _⟩ := code.eq_append_of_flatMap hx hy hr
  exact List.prefix_append xs zs

/-- Lists of words are determined by their concatenation. -/
theorem flatMap_injective (code : PrefixCode enc legal) {xs ys : List α}
    (hx : ∀ x ∈ xs, legal x) (hy : ∀ y ∈ ys, legal y) (h : xs.flatMap enc = ys.flatMap enc) :
    xs = ys := by
  have hxy := code.prefix_of_flatMap_prefix hx hy (h ▸ List.prefix_rfl)
  have hyx := code.prefix_of_flatMap_prefix hy hx (h ▸ List.prefix_rfl)
  exact hxy.eq_of_length (Nat.le_antisymm hxy.length_le hyx.length_le)

end PrefixCode

/-- The test `f` reads words off the front of a stream: it accepts the end of the stream,
passes over a word, and accepts nothing else. -/
structure Recognizes (f : List β → Bool) (enc : α → List β) : Prop where
  /-- The empty stream is accepted. -/
  nil : f [] = true
  /-- A word at the front does not change the verdict. -/
  word : ∀ a r, f (enc a ++ r) = f r
  /-- A stream that is accepted and is not empty begins with a word. -/
  cut : ∀ b r, f (b :: r) = true → ∃ a s, enc a ≠ [] ∧ b :: r = enc a ++ s

/-- Such a test accepts exactly the concatenations of words. -/
theorem Recognizes.iff {f : List β → Bool} {enc : α → List β} (h : Recognizes f enc)
    (stream : List β) : f stream = true ↔ ∃ words : List α, stream = words.flatMap enc := by
  constructor
  · intro haccept
    induction hlength : stream.length using Nat.strongRecOn generalizing stream with
    | ind length ih =>
      cases stream with
      | nil => exact ⟨[], rfl⟩
      | cons b r =>
        obtain ⟨a, s, hne, hsplit⟩ := h.cut b r haccept
        rw [hsplit, h.word] at haccept
        have hshort : s.length < length := by
          rw [← hlength, hsplit, List.length_append]
          have hpos := List.length_pos_of_ne_nil hne
          omega
        obtain ⟨words, rfl⟩ := ih s.length hshort s haccept rfl
        exact ⟨a :: words, by rw [hsplit, List.flatMap_cons]⟩
  · rintro ⟨words, rfl⟩
    induction words with
    | nil => exact h.nil
    | cons a words ih => rw [List.flatMap_cons, h.word, ih]

end PqtlsLab
