import Mathlib.Data.List.Basic
import Mathlib.Tactic.Common

/-!
# Straight-line programs that may throw

A statement throws, or it changes the state; whether it throws does not depend on the state. A list
of statements runs up to the first one that throws. Of a computation that throws only the kind of
its error may be of interest, and the kind for a sequence is that of its first part that throws.
-/

namespace PqtlsLab

/-- A statement of a straight-line program. -/
abbrev Statement (ε σ : Type) := Except ε (σ → σ)

namespace Statement

variable {ε σ : Type}

/-- The statements in their order, up to the first that throws. -/
def run : List (Statement ε σ) → σ → Except ε σ
  | [], s => .ok s
  | .error e :: _, _ => .error e
  | .ok f :: rest, s => run rest (f s)

/-- A run that returns begins with a statement that does not throw. -/
theorem run_cons_eq_ok_iff {x : Statement ε σ} {rest : List (Statement ε σ)} {s s' : σ} :
    run (x :: rest) s = .ok s' ↔ ∃ f, x = .ok f ∧ run rest (f s) = .ok s' := by
  cases x <;> simp [run]

/-- Two lists run one after the other. -/
theorem run_append_eq_ok_iff {left right : List (Statement ε σ)} {s s' : σ} :
    run (left ++ right) s = .ok s' ↔ ∃ s₁, run left s = .ok s₁ ∧ run right s₁ = .ok s' := by
  induction left generalizing s with
  | nil => simp [run]
  | cons x left ih =>
    cases x with
    | error e => simp [run]
    | ok f => exact ih

end Statement

section Failure

variable {ε π α β σ : Type} {kind : ε → π}

/-- The kind of the error of a computation that throws. -/
def failureAs (kind : ε → π) : Except ε α → Option π
  | .ok _ => none
  | .error e => some (kind e)

/-- A sequence fails as its first part, or else as its second part. -/
theorem failureAs_bind {x : Except ε α} {f : α → Except ε β} {p : Option π}
    (hf : ∀ a, x = .ok a → failureAs kind (f a) = p) :
    failureAs kind (x >>= f) = (failureAs kind x).or p := by
  cases x with
  | error e => rfl
  | ok a => exact hf a rfl

/-- A sequence whose second part always fails in the same way. -/
theorem failureAs_then {x : Except ε α} {f : α → Except ε β} {p q : Option π}
    (hx : failureAs kind x = p) (hf : ∀ a, failureAs kind (f a) = q) :
    failureAs kind (x >>= f) = p.or q := by
  rw [← hx, failureAs_bind fun a _ => hf a]

/-- What is made of a result does not fail. -/
theorem failureAs_bind_pure (x : Except ε α) (f : α → β) :
    failureAs kind (x >>= fun a => pure (f a)) = failureAs kind x := by
  cases x <;> rfl

/-- A run fails as the first statement that throws. -/
theorem failureAs_run (statements : List (Statement ε σ)) (s : σ) :
    failureAs kind (Statement.run statements s) = statements.findSome? (failureAs kind) := by
  induction statements generalizing s with
  | nil => rfl
  | cons x rest ih =>
    cases x with
    | error e => rfl
    | ok f => exact ih (f s)

/-- A loop over a list fails as the first step that throws, whatever the state is. -/
theorem failureAs_foldlM {l : List α} {f : σ → α → Except ε σ} {p : α → Option π}
    (hf : ∀ s a, failureAs kind (f s a) = p a) (s : σ) :
    failureAs kind (l.foldlM f s) = l.findSome? p := by
  induction l generalizing s with
  | nil => rfl
  | cons a l ih =>
    rw [List.foldlM_cons, failureAs_then (hf s a) ih, List.findSome?_cons]
    cases p a <;> rfl

/-- A loop of checks fails as the first check that throws. -/
theorem failureAs_forM (l : List α) (f : α → Except ε Unit) :
    failureAs kind (l.forM f) = l.findSome? fun a => failureAs kind (f a) := by
  induction l with
  | nil => rfl
  | cons a l ih =>
    rw [List.forM, failureAs_then rfl fun _ => ih, List.findSome?_cons]
    cases failureAs kind (f a) <;> rfl

/-- A loop that collects values fails as the first of them that throws. -/
theorem failureAs_mapM (l : List α) (f : α → Except ε β) :
    failureAs kind (l.mapM f) = l.findSome? fun a => failureAs kind (f a) := by
  induction l with
  | nil => rfl
  | cons a l ih =>
    have hrest : ∀ b, failureAs kind (l.mapM f >>= fun bs => pure (b :: bs)) =
        l.findSome? fun a => failureAs kind (f a) := by
      intro b
      rw [failureAs_bind_pure, ih]
    rw [List.mapM_cons, failureAs_then rfl hrest, List.findSome?_cons]
    cases failureAs kind (f a) <;> rfl

end Failure

end PqtlsLab
