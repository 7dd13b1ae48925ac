import Mathlib.Data.List.Forall2
import Mathlib.Data.List.Perm.Basic
import Mathlib.Tactic.Common

/-!
# Computations that may fail

A sequence of computations succeeds if all of its parts do, and a loop if all of its turns do. What
a loop collects corresponds entry by entry to what it goes through.
-/

namespace PqtlsLab

section Sequence

variable {ε ε' α β : Type}

/-- A sequence returns normally exactly when both of its parts do. -/
theorem bind_eq_ok_iff {x : Except ε α} {f : α → Except ε β} {b : β} :
    (x >>= f) = .ok b ↔ ∃ a, x = .ok a ∧ f a = .ok b := by
  cases x <;> simp [bind, Except.bind]

/-- A sequence throws exactly when one of its parts does. -/
theorem bind_eq_error_iff {x : Except ε α} {f : α → Except ε β} {e : ε} :
    (x >>= f) = .error e ↔ x = .error e ∨ ∃ a, x = .ok a ∧ f a = .error e := by
  cases x <;> simp [bind, Except.bind]

/-- Another name for its errors does not make a computation succeed. -/
theorem mapError_eq_ok_iff {x : Except ε α} {rename : ε → ε'} {a : α} :
    x.mapError rename = .ok a ↔ x = .ok a := by
  cases x <;> simp [Except.mapError]

end Sequence

section Loop

variable {ε α β : Type} {l : List α}

/-- A loop of checks returns exactly when every check passes. -/
theorem forM_eq_ok_iff {f : α → Except ε Unit} : l.forM f = .ok () ↔ ∀ a ∈ l, f a = .ok () := by
  induction l with
  | nil => simp [List.forM, pure, Except.pure]
  | cons a l ih =>
    rw [List.forM, bind_eq_ok_iff, List.forall_mem_cons]
    constructor
    · rintro ⟨_, hfirst, hrest⟩
      exact ⟨hfirst, ih.mp hrest⟩
    · rintro ⟨hfirst, hrest⟩
      exact ⟨(), hfirst, ih.mpr hrest⟩

variable {f : α → Except ε β} {bs : List β}

/-- A loop that collects values returns exactly the values of its elements. -/
theorem mapM_eq_ok_iff : l.mapM f = .ok bs ↔ l.map f = bs.map .ok := by
  induction l generalizing bs with
  | nil => cases bs <;> simp [pure, Except.pure]
  | cons a l ih =>
    rw [List.mapM_cons, bind_eq_ok_iff, List.map_cons]
    constructor
    · rintro ⟨b, hfirst, h⟩
      obtain ⟨rest, hrest, h⟩ := bind_eq_ok_iff.mp h
      cases h
      rw [List.map_cons, hfirst, ih.mp hrest]
    · intro h
      cases bs with
      | nil => cases h
      | cons b rest =>
        obtain ⟨hfirst, hrest⟩ := List.cons.inj h
        refine ⟨b, hfirst, ?_⟩
        rw [ih.mpr hrest]
        rfl

/-- Such a loop relates each element to its value. -/
theorem mapM_eq_ok_iff_forall₂ :
    l.mapM f = .ok bs ↔ List.Forall₂ (fun a b => f a = .ok b) l bs := by
  rw [mapM_eq_ok_iff, ← List.forall₂_eq_eq_eq, List.forall₂_map_left_iff,
    List.forall₂_map_right_iff]

/-- Such a loop succeeds in any order, with the same values. -/
theorem mapM_perm {l' : List α} (h : l.Perm l') (hbs : l.mapM f = .ok bs) :
    ∃ bs', l'.mapM f = .ok bs' ∧ bs.Perm bs' := by
  rw [mapM_eq_ok_iff_forall₂] at hbs
  obtain ⟨bs', hbs', hperm⟩ := List.perm_comp_forall₂ h.symm hbs
  exact ⟨bs', mapM_eq_ok_iff_forall₂.mpr hbs', hperm.symm⟩

variable {R : α → β → Prop}

/-- A list of values can be chosen one by one. -/
theorem exists_forall₂_iff : (∃ m, List.Forall₂ R l m) ↔ ∀ a ∈ l, ∃ b, R a b := by
  induction l with
  | nil => exact iff_of_true ⟨[], .nil⟩ fun a ha => by cases ha
  | cons a l ih =>
    rw [List.forall_mem_cons, ← ih]
    constructor
    · rintro ⟨_, _ | ⟨hfirst, hothers⟩⟩
      exact ⟨⟨_, hfirst⟩, _, hothers⟩
    · rintro ⟨⟨b, hfirst⟩, m, hothers⟩
      exact ⟨b :: m, .cons hfirst hothers⟩

/-- Of two related lists one has an entry of some kind exactly if the other has one of the kind that
corresponds to it. -/
theorem exists_mem_iff_of_forall₂ {P : α → Prop} {Q : β → Prop} {m : List β}
    (h : List.Forall₂ R l m) (hR : ∀ a ∈ l, ∀ b, R a b → (Q b ↔ P a)) :
    (∃ b ∈ m, Q b) ↔ ∃ a ∈ l, P a := by
  induction h with
  | nil => simp
  | cons hfirst _ ih =>
    obtain ⟨hhead, htail⟩ := List.forall_mem_cons.mp hR
    simp only [List.exists_mem_cons_iff, hhead _ hfirst, ih htail]

end Loop

end PqtlsLab
