import Mathlib.Data.Nat.Find
import Mathlib.Logic.Function.Iterate
import Mathlib.Order.WellFounded
import Mathlib.Tactic.Common

/-!
# Sequential programs that halt

A sequential program is given by what one step does to its state. A rank in a
well-founded order that decreases with every step, until the program halts,
makes the halting state a total function of the initial one. The rules below
reason about that state: an invariant of the steps holds in it, and it can be
computed by running any sufficient number of steps.
-/

namespace PqtlsLab

/-- A program over states `σ`, with a rank in `ρ` that every step of a running
program decreases. A halted program stays as it is. -/
structure Program (σ : Type*) (ρ : Type*) [LT ρ] [WellFoundedLT ρ] where
  /-- One step of the program. -/
  step : σ → σ
  /-- The states in which the program has ended. -/
  Halted : σ → Prop
  /-- Whether a program has ended can be decided. -/
  decHalted : DecidablePred Halted
  /-- A halted program does not move. -/
  step_of_halted : ∀ {s}, Halted s → step s = s
  /-- The quantity that decreases. -/
  rank : σ → ρ
  /-- Each step of a running program ends it or decreases its rank. -/
  rank_step : ∀ {s}, ¬ Halted s → Halted (step s) ∨ rank (step s) < rank s

namespace Program

variable {σ ρ : Type*} [LT ρ] [WellFoundedLT ρ] (p : Program σ ρ)

instance : DecidablePred p.Halted := p.decHalted

/-- A program halts from every state after finitely many steps. -/
theorem exists_halted (s : σ) : ∃ n, p.Halted (p.step^[n] s) := by
  induction hr : p.rank s using WellFoundedLT.induction generalizing s with
  | ind r ih =>
    by_cases hs : p.Halted s
    · exact ⟨0, hs⟩
    · rcases p.rank_step hs with hhalt | hlt
      · exact ⟨1, hhalt⟩
      · obtain ⟨n, hn⟩ := ih _ (hr ▸ hlt) (p.step s) rfl
        exact ⟨n + 1, by simpa only [Function.iterate_succ_apply] using hn⟩

/-- The state in which the program ends when started in `s`. -/
def final (s : σ) : σ := p.step^[Nat.find (p.exists_halted s)] s

/-- The final state is halted. -/
theorem halted_final (s : σ) : p.Halted (p.final s) := Nat.find_spec (p.exists_halted s)

/-- Steps after halting change nothing. -/
theorem iterate_of_halted {s : σ} (hs : p.Halted s) (n : ℕ) : p.step^[n] s = s := by
  induction n with
  | zero => rfl
  | succ n ih => rw [Function.iterate_succ_apply, p.step_of_halted hs, ih]

/-- Any number of steps that reaches a halted state computes the final state. -/
theorem final_eq_of_halted {s : σ} {n : ℕ} (hn : p.Halted (p.step^[n] s)) :
    p.final s = p.step^[n] s := by
  have hle : Nat.find (p.exists_halted s) ≤ n := Nat.find_min' _ hn
  obtain ⟨k, rfl⟩ := Nat.exists_eq_add_of_le hle
  rw [Nat.add_comm, Function.iterate_add_apply]
  exact (p.iterate_of_halted (p.halted_final s) k).symm

/-- An invariant of the running steps holds after any number of steps. -/
theorem iterate_invariant {I : σ → Prop} (hstep : ∀ s, ¬ p.Halted s → I s → I (p.step s))
    {s : σ} (hs : I s) (n : ℕ) : I (p.step^[n] s) := by
  refine Function.Iterate.rec I hs (fun a ha => ?_) n
  by_cases hhalt : p.Halted a
  · rwa [p.step_of_halted hhalt]
  · exact hstep a hhalt ha

/-- An invariant of the running steps holds in the final state. -/
theorem final_invariant {I : σ → Prop} (hstep : ∀ s, ¬ p.Halted s → I s → I (p.step s))
    {s : σ} (hs : I s) : I (p.final s) :=
  p.iterate_invariant hstep hs _

end Program

end PqtlsLab
