import Mathlib.Data.List.Induction
import Mathlib.Tactic.Common

/-!
# Machines and threads

A machine takes atomic steps under actions, some of which are impossible in some
states. A run is a list of actions that are all possible one after another; since every
initial part of a run is a run, what holds at the end of every run holds in every
reachable state. Several threads are a list of their local states, and a quantity that
is spread over the threads is followed through the step of one of them.
-/

namespace PqtlsLab

/-- A machine over states `σ` that takes actions `α`. -/
structure Machine (σ α : Type*) where
  /-- The initial state. -/
  start : σ
  /-- The state after an action, if the action is possible. -/
  step : σ → α → Option σ

namespace Machine

variable {σ α : Type*} (m : Machine σ α)

/-- The state in which a run ends. -/
def run (actions : List α) : Option σ := actions.foldlM m.step m.start

/-- A run that is extended by one action. -/
theorem run_concat_eq_some_iff {actions : List α} {a : α} {t : σ} :
    m.run (actions ++ [a]) = some t ↔ ∃ s, m.run actions = some s ∧ m.step s a = some t := by
  simp [run, List.foldlM_append, Option.bind_eq_some_iff]

/-- A run can be followed by evaluation. -/
theorem exists_of_run_any (actions : List α) (Q : σ → Prop) [DecidablePred Q]
    (h : (m.run actions).any (fun s => decide (Q s)) = true) :
    ∃ s, m.run actions = some s ∧ Q s := by
  obtain ⟨s, hs, hq⟩ := (Option.any_eq_true _ _).mp h
  exact ⟨s, hs, of_decide_eq_true hq⟩

/-- What holds initially and is kept by every step, given the actions that led to it,
holds at the end of every run. -/
theorem run_induction {I : List α → σ → Prop} (hstart : I [] m.start)
    (hstep : ∀ actions s a t, m.run actions = some s → I actions s → m.step s a = some t →
      I (actions ++ [a]) t) {actions : List α} {s : σ} (h : m.run actions = some s) :
    I actions s := by
  induction actions using List.reverseRecOn generalizing s with
  | nil =>
    cases h
    exact hstart
  | append_singleton actions a ih =>
    obtain ⟨r, hr, hs⟩ := m.run_concat_eq_some_iff.mp h
    exact hstep actions r a s hr (ih hr) hs

/-- An invariant of the steps that take only actions of some kind holds after every run
that takes only such actions. -/
theorem run_invariant {I : σ → Prop} {P : α → Prop} (hstart : I m.start)
    (hstep : ∀ s a t, P a → I s → m.step s a = some t → I t) {actions : List α} {s : σ}
    (hactions : ∀ a ∈ actions, P a) (h : m.run actions = some s) : I s := by
  refine m.run_induction (I := fun actions s => (∀ a ∈ actions, P a) → I s) (fun _ => hstart)
    ?_ h hactions
  intro actions s a t _ ih hs hall
  refine hstep s a t (hall a (by simp)) (ih fun b hb => ?_) hs
  exact hall b (List.mem_append_left _ hb)

/-- Every state that a run passes through, from some state on, has a property. -/
def ThroughoutFrom (P : σ → Prop) : σ → List α → Prop
  | s, [] => P s
  | s, a :: actions =>
    P s ∧
      match m.step s a with
      | some t => ThroughoutFrom P t actions
      | none => True

/-- Every state that a run passes through has a property. -/
def Throughout (P : σ → Prop) (actions : List α) : Prop := m.ThroughoutFrom P m.start actions

/-- Every step that a run takes, from some state on, meets a condition. -/
def EachStepFrom (C : σ → α → Prop) : σ → List α → Prop
  | _, [] => True
  | s, a :: actions =>
    C s a ∧
      match m.step s a with
      | some t => EachStepFrom C t actions
      | none => True

/-- Every step that a run takes meets a condition. -/
def EachStep (C : σ → α → Prop) (actions : List α) : Prop := m.EachStepFrom C m.start actions

/-- Whether each step meets a condition can be decided along the run. -/
instance decidableEachStepFrom (C : σ → α → Prop) [∀ s a, Decidable (C s a)] :
    ∀ (s : σ) (actions : List α), Decidable (m.EachStepFrom C s actions)
  | _, [] => .isTrue trivial
  | s, a :: actions =>
    match h : m.step s a with
    | some t =>
      have := decidableEachStepFrom C t actions
      decidable_of_iff (C s a ∧ m.EachStepFrom C t actions) (by rw [EachStepFrom, h])
    | none => decidable_of_iff (C s a) (by rw [EachStepFrom, h, and_true])

instance (C : σ → α → Prop) [∀ s a, Decidable (C s a)] (actions : List α) :
    Decidable (m.EachStep C actions) :=
  m.decidableEachStepFrom C m.start actions

/-- An invariant of the steps that meet a condition holds throughout a run of such steps. -/
theorem throughout_of_eachStep {I : σ → Prop} {C : σ → α → Prop} (hstart : I m.start)
    (hstep : ∀ s a t, C s a → I s → m.step s a = some t → I t) {actions : List α}
    (h : m.EachStep C actions) : m.Throughout I actions := by
  unfold Throughout EachStep at *
  generalize m.start = s at *
  induction actions generalizing s with
  | nil => exact hstart
  | cons a actions ih =>
    obtain ⟨hc, hrest⟩ := h
    refine ⟨hstart, ?_⟩
    cases ht : m.step s a with
    | none => trivial
    | some t =>
      rw [ht] at hrest
      exact ih t (hstep s a t hc hstart ht) hrest

/-- An invariant holds throughout every run. -/
theorem throughout_of_invariant {I : σ → Prop} (hstart : I m.start)
    (hstep : ∀ s a t, I s → m.step s a = some t → I t) (actions : List α) :
    m.Throughout I actions := by
  refine m.throughout_of_eachStep (C := fun _ _ => True) hstart
    (fun s a t _ hs ht => hstep s a t hs ht) ?_
  unfold EachStep
  generalize m.start = s
  induction actions generalizing s with
  | nil => trivial
  | cons a actions ih =>
    refine ⟨trivial, ?_⟩
    split
    · exact ih _
    · trivial

/-- If every step between two states with a property meets a condition, then every step of
a run that has the property throughout meets it. -/
theorem eachStep_of_throughout {P : σ → Prop} {C : σ → α → Prop}
    (hstep : ∀ s a t, P s → P t → m.step s a = some t → C s a) {actions : List α} {u : σ}
    (hrun : m.run actions = some u) (h : m.Throughout P actions) : m.EachStep C actions := by
  unfold Throughout EachStep run at *
  generalize m.start = s at *
  induction actions generalizing s with
  | nil => trivial
  | cons a actions ih =>
    obtain ⟨hs, hrest⟩ := h
    simp only [List.foldlM_cons, Option.bind_eq_bind, Option.bind_eq_some_iff] at hrun
    obtain ⟨t, ht, hrun⟩ := hrun
    rw [ht] at hrest
    have hp : P t := by
      cases actions with
      | nil => exact hrest
      | cons b actions => exact hrest.1
    refine ⟨hstep s a t hs hp ht, ?_⟩
    rw [ht]
    exact ih t hrun hrest

variable {m}

/-- Two properties that hold throughout a run hold together. -/
theorem Throughout.and {P Q : σ → Prop} {actions : List α} (hP : m.Throughout P actions)
    (hQ : m.Throughout Q actions) : m.Throughout (fun s => P s ∧ Q s) actions := by
  unfold Throughout at *
  generalize m.start = s at *
  induction actions generalizing s with
  | nil => exact ⟨hP, hQ⟩
  | cons a actions ih =>
    obtain ⟨hs, hP⟩ := hP
    obtain ⟨hs', hQ⟩ := hQ
    refine ⟨⟨hs, hs'⟩, ?_⟩
    cases ht : m.step s a with
    | none => trivial
    | some t =>
      rw [ht] at hP hQ
      exact ih t hP hQ

/-- What follows from a property that holds throughout a run holds throughout it. -/
theorem Throughout.mono {P Q : σ → Prop} {actions : List α} (h : m.Throughout P actions)
    (hPQ : ∀ s, P s → Q s) : m.Throughout Q actions := by
  unfold Throughout at *
  generalize m.start = s at *
  induction actions generalizing s with
  | nil => exact hPQ s h
  | cons a actions ih =>
    obtain ⟨hs, hrest⟩ := h
    refine ⟨hPQ s hs, ?_⟩
    cases ht : m.step s a with
    | none => trivial
    | some t =>
      rw [ht] at hrest
      exact ih t hrest

end Machine

/-- The sum of a quantity over some threads. -/
def total {ω : Type*} (f : ω → ℕ) : List ω → ℕ
  | [] => 0
  | w :: threads => f w + total f threads

section Threads

variable {ω : Type*} {threads : List ω} {i : ℕ} {w : ω}

/-- One thread has at most the total. -/
theorem le_total (f : ω → ℕ) (h : w ∈ threads) : f w ≤ total f threads := by
  induction threads with
  | nil => simp at h
  | cons u threads ih =>
    rw [total]
    rcases List.mem_cons.mp h with rfl | h
    · omega
    · have := ih h
      omega

/-- The total is zero if no thread has anything. -/
theorem total_eq_zero {f : ω → ℕ} (h : ∀ w ∈ threads, f w = 0) : total f threads = 0 := by
  induction threads with
  | nil => rfl
  | cons u threads ih =>
    rw [total, h u (by simp), ih fun w hw => h w (by simp [hw])]

/-- The total of threads that are all in the same state. -/
@[simp]
theorem total_replicate (f : ω → ℕ) (n : ℕ) (w : ω) : total f (List.replicate n w) = n * f w := by
  induction n with
  | zero => simp [total]
  | succ n ih => rw [List.replicate_succ, total, ih, Nat.succ_mul, Nat.add_comm]

/-- The total of some more threads. -/
theorem total_append (f : ω → ℕ) (threads others : List ω) :
    total f (threads ++ others) = total f threads + total f others := by
  induction threads with
  | nil => simp [total]
  | cons w threads ih =>
    rw [List.cons_append, total, total, ih]
    omega

/-- A change of all threads that keeps what each of them has. -/
theorem total_map {f : ω → ℕ} {g : ω → ω} (h : ∀ w, f (g w) = f w) (threads : List ω) :
    total f (threads.map g) = total f threads := by
  induction threads with
  | nil => rfl
  | cons w threads ih => rw [List.map_cons, total, total, h, ih]

/-- The step of one thread leaves the threads before and after it as they are. -/
theorem exists_set_eq (h : threads[i]? = some w) (v : ω) :
    ∃ before after, threads = before ++ w :: after ∧ threads.set i v = before ++ v :: after := by
  induction threads generalizing i with
  | nil => simp at h
  | cons u threads ih =>
    cases i with
    | zero =>
      simp only [List.getElem?_cons_zero, Option.some.injEq] at h
      subst h
      exact ⟨[], threads, rfl, rfl⟩
    | succ i =>
      obtain ⟨before, after, hold, hnew⟩ := ih h
      refine ⟨u :: before, after, ?_, ?_⟩
      · rw [hold, List.cons_append]
      · rw [List.set_cons_succ, hnew, List.cons_append]

/-- The step of one thread changes the total by what changes for that thread. -/
theorem total_set (f : ω → ℕ) (h : threads[i]? = some w) (v : ω) :
    total f (threads.set i v) + f w = total f threads + f v := by
  obtain ⟨before, after, hold, hnew⟩ := exists_set_eq h v
  rw [hnew, hold, total_append, total_append, total, total]
  omega

/-- The step of one thread that holds the same things as before leaves all that is held as
it is. -/
theorem flatMap_set_of_eq {β : Type*} {f : ω → List β} (h : threads[i]? = some w) {v : ω}
    (hf : f v = f w) : (threads.set i v).flatMap f = threads.flatMap f := by
  obtain ⟨before, after, hold, hnew⟩ := exists_set_eq h v
  rw [hnew, hold, List.flatMap_append, List.flatMap_append, List.flatMap_cons, List.flatMap_cons,
    hf]

/-- The step of one thread replaces what that thread holds in all that is held. -/
theorem flatMap_set_perm {β : Type*} (f : ω → List β) (h : threads[i]? = some w) (v : ω) :
    ((threads.set i v).flatMap f ++ f w).Perm (threads.flatMap f ++ f v) := by
  classical
  obtain ⟨before, after, hold, hnew⟩ := exists_set_eq h v
  rw [List.perm_iff_count]
  intro x
  rw [hnew, hold]
  simp only [List.flatMap_append, List.flatMap_cons, List.count_append]
  omega

/-- What only the thread in a critical section can hold is what that thread holds. -/
theorem flatMap_eq_of_total {β : Type*} {holds : ω → ℕ} {f : ω → List β}
    (hf : ∀ w, holds w = 0 → f w = []) (htotal : total holds threads ≤ 1)
    (h : threads[i]? = some w) (hw : holds w = 1) : threads.flatMap f = f w := by
  obtain ⟨before, after, hold, -⟩ := exists_set_eq h w
  rw [hold, total_append, total, hw] at htotal
  have hnil {others : List ω} (hothers : total holds others = 0) : others.flatMap f = [] := by
    rw [List.flatMap_eq_nil_iff]
    intro v hv
    have hle := le_total holds hv
    exact hf v (by omega)
  rw [hold, List.flatMap_append, List.flatMap_cons, hnil (by omega), hnil (by omega),
    List.nil_append, List.append_nil]

end Threads

/-- The state of several threads: what they share, and the state of each of them. -/
structure Threaded (σ ω : Type*) where
  shared : σ
  threads : List ω

/-- The machine of several threads that run the same code. An action is the step of one
thread, together with what the environment supplies to it. -/
def Machine.ofThreads {σ ω ι : Type*} (start : Threaded σ ω) (code : σ → ω → ι → Option (σ × ω)) :
    Machine (Threaded σ ω) (ℕ × ι) where
  start := start
  step s a :=
    s.threads[a.1]?.bind fun w =>
      (code s.shared w a.2).map fun next => ⟨next.1, s.threads.set a.1 next.2⟩

namespace Machine

variable {σ ω ι : Type*} {start : Threaded σ ω} {code : σ → ω → ι → Option (σ × ω)}

/-- A step is the step of one thread, and leaves the others where they are. -/
theorem ofThreads_step_eq_some_iff {s t : Threaded σ ω} {a : ℕ × ι} :
    (ofThreads start code).step s a = some t ↔
      ∃ w u v, s.threads[a.1]? = some w ∧ code s.shared w a.2 = some (u, v) ∧
        t = ⟨u, s.threads.set a.1 v⟩ := by
  simp [ofThreads, Option.bind_eq_some_iff, @eq_comm _ t]

/-- There are always as many threads as initially. -/
theorem length_threads_of_run {actions : List (ℕ × ι)} {s : Threaded σ ω}
    (h : (ofThreads start code).run actions = some s) :
    s.threads.length = start.threads.length := by
  refine (ofThreads start code).run_invariant (P := fun _ => True)
    (I := fun s => s.threads.length = start.threads.length) rfl ?_ (fun _ _ => trivial) h
  intro s a t _ hs ht
  obtain ⟨w, u, v, -, -, rfl⟩ := ofThreads_step_eq_some_iff.mp ht
  rw [← hs, List.length_set]

/-- What the code of every thread keeps of the shared state holds in every run. -/
theorem run_shared {I : σ → Prop} (hstart : I start.shared)
    (hcode : ∀ {u w x u' w'}, I u → code u w x = some (u', w') → I u')
    {actions : List (ℕ × ι)} {s : Threaded σ ω} (h : (ofThreads start code).run actions = some s) :
    I s.shared := by
  refine (ofThreads start code).run_invariant (P := fun _ => True) (I := fun s => I s.shared)
    hstart ?_ (fun _ _ => trivial) h
  intro s a t _ hs ht
  obtain ⟨w, u, v, -, hcall, rfl⟩ := ofThreads_step_eq_some_iff.mp ht
  exact hcode hs hcall

/-- A lock that every thread takes when it enters a critical section and gives back when it
leaves it is held by at most one of them. -/
theorem run_exclusive {locked : σ → Bool} {holds : ω → ℕ}
    (hstart : total holds start.threads = (locked start.shared).toNat)
    (hcode : ∀ {u w x u' w'}, holds w ≤ (locked u).toNat → code u w x = some (u', w') →
      (locked u').toNat + holds w = (locked u).toNat + holds w')
    {actions : List (ℕ × ι)} {s : Threaded σ ω} (h : (ofThreads start code).run actions = some s) :
    total holds s.threads = (locked s.shared).toNat := by
  refine (ofThreads start code).run_invariant (P := fun _ => True)
    (I := fun s => total holds s.threads = (locked s.shared).toNat) hstart ?_ (fun _ _ => trivial) h
  intro s a t _ hs ht
  obtain ⟨w, u, v, hw, hcall, rfl⟩ := ofThreads_step_eq_some_iff.mp ht
  have hlocal := hcode (hs ▸ le_total holds (List.mem_of_getElem? hw)) hcall
  have hset := total_set holds hw v
  simp only
  omega

/-- A quantity that no thread can increase, of what is shared together with what the
threads hold, stays below its bound. -/
theorem run_bounded {q : σ → ℕ} {f : ω → ℕ} {K : ℕ}
    (hstart : q start.shared + total f start.threads ≤ K)
    (hcode : ∀ {u w x u' w'}, code u w x = some (u', w') → q u' + f w' ≤ q u + f w)
    {actions : List (ℕ × ι)} {s : Threaded σ ω} (h : (ofThreads start code).run actions = some s) :
    q s.shared + total f s.threads ≤ K := by
  refine (ofThreads start code).run_invariant (P := fun _ => True)
    (I := fun s => q s.shared + total f s.threads ≤ K) hstart ?_ (fun _ _ => trivial) h
  intro s a t _ hs ht
  obtain ⟨w, u, v, hw, hcall, rfl⟩ := ofThreads_step_eq_some_iff.mp ht
  have hlocal := hcode hcall
  have hset := total_set f hw v
  simp only
  omega

/-- What holds of every thread and the shared state initially, what the step of a thread
establishes for it and keeps for the others, holds of every thread in every run. -/
theorem run_forall {J : σ → ω → Prop} {P : ι → Prop}
    (hstart : ∀ w ∈ start.threads, J start.shared w)
    (hcode : ∀ {u w x u' w'}, P x → J u w → code u w x = some (u', w') →
      J u' w' ∧ ∀ v, J u v → J u' v)
    {actions : List (ℕ × ι)} {s : Threaded σ ω} (hactions : ∀ a ∈ actions, P a.2)
    (h : (ofThreads start code).run actions = some s) : ∀ w ∈ s.threads, J s.shared w := by
  refine (ofThreads start code).run_invariant (P := fun a => P a.2)
    (I := fun s => ∀ w ∈ s.threads, J s.shared w) hstart ?_ hactions h
  intro s a t ha hs ht
  obtain ⟨w, u, v, hw, hcall, rfl⟩ := ofThreads_step_eq_some_iff.mp ht
  obtain ⟨hv, hothers⟩ := hcode ha (hs w (List.mem_of_getElem? hw)) hcall
  intro w' hw'
  rcases List.mem_or_eq_of_mem_set hw' with hmem | rfl
  · exact hothers w' (hs w' hmem)
  · exact hv

/-- A quantity that no thread can change is conserved. The step of a thread may rely on
what is known of every thread, and on the quantity not having been exceeded. -/
theorem run_conserves {q : σ → ℕ} {f : ω → ℕ} {K : ℕ} {J : ω → Prop} {P : ι → Prop}
    (hstart : q start.shared + total f start.threads = K) (hthreads : ∀ w ∈ start.threads, J w)
    (hcode : ∀ {u w x u' w'}, P x → J w → q u + f w ≤ K → code u w x = some (u', w') →
      J w' ∧ q u' + f w' = q u + f w)
    {actions : List (ℕ × ι)} {s : Threaded σ ω} (hactions : ∀ a ∈ actions, P a.2)
    (h : (ofThreads start code).run actions = some s) :
    q s.shared + total f s.threads = K := by
  have hinv : (∀ w ∈ s.threads, J w) ∧ q s.shared + total f s.threads = K := by
    refine (ofThreads start code).run_invariant (P := fun a => P a.2)
      (I := fun s => (∀ w ∈ s.threads, J w) ∧ q s.shared + total f s.threads = K)
      ⟨hthreads, hstart⟩ ?_ hactions h
    rintro s a t ha ⟨hall, hs⟩ ht
    obtain ⟨w, u, v, hw, hcall, rfl⟩ := ofThreads_step_eq_some_iff.mp ht
    have hmem := List.mem_of_getElem? hw
    have hle := le_total f hmem
    obtain ⟨hv, hlocal⟩ := hcode ha (hall w hmem) (by omega) hcall
    have hset := total_set f hw v
    refine ⟨fun w' hw' => ?_, by simp only; omega⟩
    rcases List.mem_or_eq_of_mem_set hw' with hmem' | rfl
    · exact hall w' hmem'
    · exact hv
  exact hinv.2

/-- If the threads of one machine do what those of another one do, and remember more, then what they
remember can be forgotten in every run. -/
theorem run_erase {ω' ι' : Type*} {code' : σ → ω' → ι' → Option (σ × ω')} (erase : ω' → ω)
    (hcode : ∀ {u w x u' w'}, code' u w x = some (u', w') →
      ∃ y, code u (erase w) y = some (u', erase w'))
    {start' : Threaded σ ω'} {actions : List (ℕ × ι')} {s : Threaded σ ω'}
    (h : (ofThreads start' code').run actions = some s) :
    ∃ actions', (ofThreads ⟨start'.shared, start'.threads.map erase⟩ code).run actions' =
      some ⟨s.shared, s.threads.map erase⟩ := by
  refine (ofThreads start' code').run_invariant (P := fun _ => True)
    (I := fun s => ∃ actions',
      (ofThreads ⟨start'.shared, start'.threads.map erase⟩ code).run actions' =
        some ⟨s.shared, s.threads.map erase⟩) ⟨[], rfl⟩ ?_ (fun _ _ => trivial) h
  rintro s a t - ⟨actions', hrun⟩ ht
  obtain ⟨w, u, v, hw, hcall, rfl⟩ := ofThreads_step_eq_some_iff.mp ht
  obtain ⟨y, hy⟩ := hcode hcall
  refine ⟨actions' ++ [(a.1, y)], (run_concat_eq_some_iff _).mpr ⟨_, hrun, ?_⟩⟩
  refine ofThreads_step_eq_some_iff.mpr ⟨erase w, u, erase v, ?_, hy, ?_⟩
  · rw [List.getElem?_map, hw, Option.map_some]
  · rw [List.map_set]

end Machine

end PqtlsLab
