import Mathlib.Data.List.Basic
import Mathlib.Tactic.Common

/-!
# Handing tickets over through a bounded queue

One party issues numbered tickets, one at a time, and puts each into a queue of bounded
length or discards it. Others take tickets from the front of the queue, own them for some
time and give them up; what is left in the queue may be discarded at once. No ticket is
lost or duplicated on its way, and tickets leave the queue in the order of their numbers.
-/

namespace PqtlsLab

/-- Where the tickets are. -/
structure Handoff where
  /-- The ticket that has been issued last, as long as it is neither queued nor discarded. -/
  held : List ℕ
  /-- The tickets that wait in the queue. -/
  queue : List ℕ
  /-- The tickets that have been taken and not given up, in any order. -/
  owned : List ℕ
  /-- The tickets that have been taken, in that order. -/
  started : List ℕ
  /-- The tickets that have been given up or discarded. -/
  closed : List ℕ
  /-- The number of tickets that have been issued. -/
  arrivals : ℕ

namespace Handoff

/-- One step of the hand-off. -/
inductive Step (capacity : ℕ) (l : Handoff) : Handoff → Prop where
  /-- A ticket is issued. -/
  | arrive (free : l.held = []) :
      Step capacity l { l with held := [l.arrivals], arrivals := l.arrivals + 1 }
  /-- The issued ticket is queued. -/
  | push (id : ℕ) (held : l.held = [id]) (room : l.queue.length < capacity) :
      Step capacity l { l with held := [], queue := l.queue ++ [id] }
  /-- The issued ticket is discarded. -/
  | refuse (id : ℕ) (held : l.held = [id]) :
      Step capacity l { l with held := [], closed := l.closed ++ [id] }
  /-- The front of the queue is taken. -/
  | take (id : ℕ) (rest owned : List ℕ) (front : l.queue = id :: rest)
      (taken : owned.Perm (id :: l.owned)) :
      Step capacity l { l with queue := rest, started := l.started ++ [id], owned := owned }
  /-- A ticket that has been taken is given up. -/
  | finish (id : ℕ) (owned : List ℕ) (given : l.owned.Perm (id :: owned)) :
      Step capacity l { l with owned := owned, closed := l.closed ++ [id] }
  /-- The queue is discarded. -/
  | drain : Step capacity l { l with queue := [], closed := l.closed ++ l.queue }

/-- What always holds of a hand-off. -/
structure Sound (capacity : ℕ) (l : Handoff) : Prop where
  /-- The queue is bounded. -/
  bounded : l.queue.length ≤ capacity
  /-- Every ticket that has been issued is in exactly one place. -/
  conserved : (l.held ++ l.queue ++ l.owned ++ l.closed).Perm (List.range l.arrivals)
  /-- Tickets are taken in the order of their numbers, and none twice. -/
  ordered : (l.started ++ l.queue ++ l.held).Pairwise (· < ·)
  /-- The numbers are those of tickets that have been issued. -/
  issued : ∀ id ∈ l.started ++ l.queue ++ l.held, id < l.arrivals

/-- A hand-off that has not begun. -/
theorem sound_initial (capacity : ℕ) : Sound capacity ⟨[], [], [], [], [], 0⟩ where
  bounded := Nat.zero_le _
  conserved := List.Perm.refl _
  ordered := by simp
  issued := by simp

/-- A step keeps every ticket in exactly one place. -/
theorem Sound.conserved_step {capacity : ℕ} {l l' : Handoff} (hl : Sound capacity l)
    (h : Step capacity l l') :
    (l'.held ++ l'.queue ++ l'.owned ++ l'.closed).Perm (List.range l'.arrivals) := by
  have hcount := fun x => hl.conserved.count_eq x
  simp only [List.count_append] at hcount
  rw [List.perm_iff_count]
  intro x
  have hx := hcount x
  simp only [List.count_append]
  cases h with
  | arrive free =>
    simp only [free, List.count_nil] at hx
    simp only [List.range_succ, List.count_append]
    omega
  | push id held room =>
    simp only [held, List.count_append, List.count_nil] at hx ⊢
    omega
  | refuse id held =>
    simp only [held, List.count_append, List.count_nil] at hx ⊢
    omega
  | take id rest owned front taken =>
    have htaken := taken.count_eq x
    simp only [front, List.count_cons] at hx htaken ⊢
    omega
  | finish id owned given =>
    have hgiven := given.count_eq x
    simp only [List.count_append, List.count_cons, List.count_nil] at hx hgiven ⊢
    omega
  | drain =>
    simp only [List.count_append, List.count_nil]
    omega

/-- A step keeps the hand-off sound. -/
theorem Sound.step {capacity : ℕ} {l l' : Handoff} (hl : Sound capacity l)
    (h : Step capacity l l') : Sound capacity l' := by
  have hconserved := hl.conserved_step h
  obtain ⟨hbounded, -, hordered, hissued⟩ := hl
  cases h with
  | arrive free =>
    simp only [free, List.append_nil] at hordered hissued
    refine ⟨hbounded, hconserved, List.pairwise_append.mpr ⟨hordered, by simp, ?_⟩, ?_⟩
    · intro a ha b hb
      rw [List.mem_singleton.mp hb]
      exact hissued a ha
    · intro id hid
      rcases List.mem_append.mp hid with hid | hid
      · exact Nat.lt_succ_of_lt (hissued id hid)
      · rw [List.mem_singleton.mp hid]
        exact Nat.lt_succ_self _
  | push id held room =>
    rw [held] at hordered hissued
    refine ⟨?_, hconserved, by simpa using hordered, by simpa using hissued⟩
    rw [List.length_append, List.length_singleton]
    omega
  | refuse id held =>
    refine ⟨hbounded, hconserved, ?_, fun x hx => hissued x ?_⟩
    · simpa using (List.pairwise_append.mp hordered).1
    · exact List.mem_append_left _ (by simpa using hx)
  | take id rest owned front taken =>
    rw [front] at hbounded hordered hissued
    refine ⟨?_, hconserved, by simpa using hordered, by simpa using hissued⟩
    exact Nat.le_trans (Nat.le_succ _) hbounded
  | finish id owned given => exact ⟨hbounded, hconserved, hordered, hissued⟩
  | drain =>
    have hsub : (l.started ++ [] ++ l.held).Sublist (l.started ++ l.queue ++ l.held) := by
      simp
    exact ⟨Nat.zero_le _, hconserved, hordered.sublist hsub, fun x hx => hissued x (hsub.subset hx)⟩

end Handoff

end PqtlsLab
