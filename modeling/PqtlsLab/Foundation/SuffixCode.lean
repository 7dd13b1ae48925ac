import Mathlib.Data.List.Basic
import Mathlib.Tactic.Common

/-!
# Codes that are read from the right

A code can be read from the right when a word can be cut off the end of any text in only one way. A
free text that is followed by several words, with nothing in between, is then still determined,
together with the words. Such codes are built up from numerals with a marker in front of them.
-/

namespace PqtlsLab

variable {α β γ : Type*}

/-- Two texts that end in a word agree only if the words and what is before them agree. -/
structure SuffixCode (enc : α → List β) : Prop where
  /-- The last word of a text and what is before it are determined by the text. -/
  split : ∀ {s t a b}, s ++ enc a = t ++ enc b → s = t ∧ a = b

namespace SuffixCode

variable {enc : α → List β}

/-- A letter that does not occur in a text marks where the text begins. -/
theorem append_cons_inj {s t u v : List β} {m : β} (hu : m ∉ u) (hv : m ∉ v)
    (h : s ++ m :: u = t ++ m :: v) : s = t ∧ u = v := by
  rcases List.append_eq_append_iff.mp h with ⟨c, rfl, hc⟩ | ⟨c, rfl, hc⟩
  · cases c with
    | nil => exact ⟨(List.append_nil s).symm, (List.cons.inj hc).2⟩
    | cons b c =>
      obtain ⟨rfl, rfl⟩ := List.cons.inj hc
      simp at hu
  · cases c with
    | nil => exact ⟨List.append_nil t, (List.cons.inj hc).2.symm⟩
    | cons b c =>
      obtain ⟨rfl, rfl⟩ := List.cons.inj hc
      simp at hv

/-- Words behind a marker that does not occur in them. -/
theorem of_marker {m : β} (hinj : Function.Injective enc) (hfree : ∀ a, m ∉ enc a) :
    SuffixCode fun a => m :: enc a where
  split := by
    intro s t a b h
    obtain ⟨hst, hab⟩ := append_cons_inj (hfree a) (hfree b) h
    exact ⟨hst, hinj hab⟩

/-- Words with the same letters in front of all of them. -/
theorem prepend (code : SuffixCode enc) (front : List β) :
    SuffixCode fun a => front ++ enc a where
  split := by
    intro s t a b h
    rw [← List.append_assoc, ← List.append_assoc] at h
    obtain ⟨hst, hab⟩ := code.split h
    exact ⟨List.append_cancel_right hst, hab⟩

/-- Words of one code, followed by words of another. -/
theorem append (code : SuffixCode enc) {enc' : γ → List β} (code' : SuffixCode enc') :
    SuffixCode fun p : α × γ => enc p.1 ++ enc' p.2 where
  split := by
    rintro s t ⟨a, c⟩ ⟨b, d⟩ h
    simp only [← List.append_assoc] at h
    obtain ⟨hfront, rfl⟩ := code'.split h
    obtain ⟨hst, rfl⟩ := code.split hfront
    exact ⟨hst, rfl⟩

/-- Words that may have an ending, if no word without it ends in the last letter of it. -/
theorem optional (code : SuffixCode enc) {ending : List β} (hne : ∀ a, enc a ≠ [])
    (hending : ending ≠ []) (hlast : ∀ a, (enc a).getLast? ≠ ending.getLast?) :
    SuffixCode fun p : α × Bool => enc p.1 ++ if p.2 then ending else [] where
  split := by
    have hends : ∀ {s t a b}, s ++ (enc a ++ ending) ≠ t ++ enc b := by
      intro s t a b h
      have hsame := congrArg List.getLast? h
      rw [← List.append_assoc, List.getLast?_append_of_ne_nil _ hending,
        List.getLast?_append_of_ne_nil _ (hne b)] at hsame
      exact hlast b hsame.symm
    rintro s t ⟨a, _ | _⟩ ⟨b, _ | _⟩ h <;>
      simp only [Bool.false_eq_true, if_false, if_true, List.append_nil] at h
    · obtain ⟨hst, rfl⟩ := code.split h
      exact ⟨hst, rfl⟩
    · exact absurd h.symm hends
    · exact absurd h hends
    · rw [← List.append_assoc, ← List.append_assoc] at h
      obtain ⟨hst, rfl⟩ := code.split (List.append_cancel_right h)
      exact ⟨hst, rfl⟩

end SuffixCode

end PqtlsLab
