import PqtlsLab.Connection.RecordText
import PqtlsLab.Foundation.Machine

/-!
# The file behind the metrics writer

`MetricsWriter::write` holds a mutex while it puts a line and its end into a stream and flushes
the stream. The stream hands bytes to the file when it likes, in pieces of any size, so that a
process that is killed can leave a part of a line behind. Several threads call the writer at any
time; the operations on the mutex, the transfers into the stream and those into the file are the
atomic steps. Writing to the file is assumed to succeed.
-/

namespace PqtlsLab

/-- What a `MetricsWriter` with an open file and the file itself consist of. -/
structure MetricsFile where
  /-- The contents of the file. -/
  file : Bytes
  /-- What `stream_` has taken and not handed to the file. -/
  buffer : Bytes
  /-- `mutex_` is locked. -/
  locked : Bool
  /-- The records whose line has been flushed, in that order. The code does not have them. -/
  written : List ConnectionMetrics

/-- Where a thread is in `write`, or in `flush`, for which there is no record. -/
inductive WriterStage where
  /-- In neither. -/
  | outside
  /-- Before the construction of the `lock_guard`. -/
  | entering (request : Option ConnectionMetrics)
  /-- Before `to_jsonl_line`. -/
  | serialising (m : ConnectionMetrics)
  /-- In the output operators, which have put some of their bytes into the stream. -/
  | inserting (m : ConnectionMetrics) (inserted rest : Bytes)
  /-- In the flush of the stream. -/
  | flushing (request : Option ConnectionMetrics)
  /-- Before the destruction of the `lock_guard`, returning or with an exception. -/
  | leaving (outcome : Except Thrown (Option ConnectionMetrics))

/-- A thread, and the records whose `write` has returned to it. The code does not keep
these. -/
structure WriterThread where
  stage : WriterStage
  returned : List ConnectionMetrics

/-- What the environment supplies to a step of a thread. -/
inductive WriterInput where
  /-- The thread calls `write` for a record, or `flush`. -/
  | call (request : Option ConnectionMetrics)
  /-- Nothing. -/
  | proceed
  /-- The stream takes so many bytes. -/
  | insert (n : ℕ)
  /-- The stream hands so many bytes to the file. -/
  | spill (n : ℕ)

namespace MetricsFile

/-- The line of a record as it is put into the stream. -/
def line (lib : JsonLibrary) (m : ConnectionMetrics) : Bytes :=
  m.toJson.val.render lib.floatText ++ [0x0A]

/-- Some bytes go from the stream to the file. -/
def spill (f : MetricsFile) (n : ℕ) : MetricsFile :=
  { f with file := f.file ++ f.buffer.take n, buffer := f.buffer.drop n }

/-- One step of a thread in `MetricsWriter::write` or `MetricsWriter::flush`. -/
def threadStep (lib : JsonLibrary) (f : MetricsFile) (w : WriterThread) :
    WriterInput → Option (MetricsFile × WriterThread)
  | .call request =>
    match w.stage with
    | .outside => some (f, { w with stage := .entering request })
    | _ => none
  | .proceed =>
    match w.stage with
    | .entering request =>
      if f.locked then none
      else
        match request with
        | some m => some ({ f with locked := true }, { w with stage := .serialising m })
        | none => some ({ f with locked := true }, { w with stage := .flushing none })
    | .serialising m =>
      match m.toJsonlLine lib with
      | .ok text => some (f, { w with stage := .inserting m [] (text ++ [0x0A]) })
      | .error e => some (f, { w with stage := .leaving (.error e) })
    | .inserting m _ [] => some (f, { w with stage := .flushing (some m) })
    | .flushing request =>
      if f.buffer.isEmpty then
        some ({ f with written := f.written ++ request.toList },
          { w with stage := .leaving (.ok request) })
      else none
    | .leaving (.ok request) =>
      some ({ f with locked := false }, ⟨.outside, w.returned ++ request.toList⟩)
    | .leaving (.error _) => some ({ f with locked := false }, { w with stage := .outside })
    | _ => none
  | .insert n =>
    match w.stage with
    | .inserting m inserted rest =>
      some ({ f with buffer := f.buffer ++ rest.take n },
        { w with stage := .inserting m (inserted ++ rest.take n) (rest.drop n) })
    | _ => none
  | .spill n =>
    match w.stage with
    | .inserting _ _ _ | .flushing _ => some (f.spill n, w)
    | _ => none

/-- Some threads that share a writer, which has been constructed for a file with some
contents. -/
def machine (lib : JsonLibrary) (old : Bytes) (threads : ℕ) :
    Machine (Threaded MetricsFile WriterThread) (ℕ × WriterInput) :=
  .ofThreads
    { shared := { file := old, buffer := [], locked := false, written := [] }
      threads := List.replicate threads ⟨.outside, []⟩ }
    (threadStep lib)

/-- What one step of a thread can do. -/
inductive WriterMove (lib : JsonLibrary) (f : MetricsFile) (w : WriterThread) :
    MetricsFile → WriterThread → Prop where
  /-- A call begins. -/
  | call (request : Option ConnectionMetrics) (stage : w.stage = .outside) :
      WriterMove lib f w f { w with stage := .entering request }
  /-- `write` gets the mutex. -/
  | lock (m : ConnectionMetrics) (stage : w.stage = .entering (some m)) (free : f.locked = false) :
      WriterMove lib f w { f with locked := true } { w with stage := .serialising m }
  /-- `flush` gets the mutex. -/
  | lockFlush (stage : w.stage = .entering none) (free : f.locked = false) :
      WriterMove lib f w { f with locked := true } { w with stage := .flushing none }
  /-- The record is serialised. -/
  | serialise (m : ConnectionMetrics) (text : Bytes) (stage : w.stage = .serialising m)
      (written : m.toJsonlLine lib = .ok text) :
      WriterMove lib f w f { w with stage := .inserting m [] (text ++ [0x0A]) }
  /-- The record cannot be serialised. -/
  | refuse (m : ConnectionMetrics) (e : Thrown) (stage : w.stage = .serialising m) :
      WriterMove lib f w f { w with stage := .leaving (.error e) }
  /-- The stream takes some bytes. -/
  | insert (m : ConnectionMetrics) (inserted rest : Bytes) (n : ℕ)
      (stage : w.stage = .inserting m inserted rest) :
      WriterMove lib f w { f with buffer := f.buffer ++ rest.take n }
        { w with stage := .inserting m (inserted ++ rest.take n) (rest.drop n) }
  /-- The stream has taken the line. -/
  | inserted (m : ConnectionMetrics) (inserted : Bytes)
      (stage : w.stage = .inserting m inserted []) :
      WriterMove lib f w f { w with stage := .flushing (some m) }
  /-- The stream hands some bytes to the file. -/
  | spill (n : ℕ) : WriterMove lib f w (f.spill n) w
  /-- The stream is flushed. -/
  | flushed (request : Option ConnectionMetrics) (stage : w.stage = .flushing request)
      (empty : f.buffer = []) :
      WriterMove lib f w { f with written := f.written ++ request.toList }
        { w with stage := .leaving (.ok request) }
  /-- The call returns. -/
  | returns (request : Option ConnectionMetrics) (stage : w.stage = .leaving (.ok request)) :
      WriterMove lib f w { f with locked := false } ⟨.outside, w.returned ++ request.toList⟩
  /-- The call throws. -/
  | throws (e : Thrown) (stage : w.stage = .leaving (.error e)) :
      WriterMove lib f w { f with locked := false } { w with stage := .outside }

variable {lib : JsonLibrary} {f f' : MetricsFile} {w w' : WriterThread} {x : WriterInput}

/-- Every step is one of these. -/
theorem writerMove_of_step (h : threadStep lib f w x = some (f', w')) :
    WriterMove lib f w f' w' := by
  cases x with
  | call request =>
    simp only [threadStep] at h
    split at h
    · rename_i hstage
      cases h
      exact .call request hstage
    · cases h
  | proceed =>
    simp only [threadStep] at h
    split at h
    · rename_i hstage
      split at h
      · cases h
      · rename_i hfree
        split at h
        · cases h
          exact .lock _ hstage (by simpa using hfree)
        · cases h
          exact .lockFlush hstage (by simpa using hfree)
    · rename_i hstage
      split at h
      · rename_i hwritten
        cases h
        exact .serialise _ _ hstage hwritten
      · cases h
        exact .refuse _ _ hstage
    · rename_i hstage
      cases h
      exact .inserted _ _ hstage
    · rename_i hstage
      split at h
      · rename_i hempty
        cases h
        exact .flushed _ hstage (List.isEmpty_iff.mp hempty)
      · cases h
    · rename_i hstage
      cases h
      exact .returns _ hstage
    · rename_i hstage
      cases h
      exact .throws _ hstage
    · cases h
  | insert n =>
    simp only [threadStep] at h
    split at h
    · rename_i hstage
      cases h
      exact .insert _ _ _ n hstage
    · cases h
  | spill n =>
    simp only [threadStep] at h
    split at h
    · cases h
      exact .spill n
    · cases h
      exact .spill n
    · cases h

/-- Whether a thread holds the mutex. -/
def holdsMutex (w : WriterThread) : ℕ :=
  match w.stage with
  | .outside | .entering _ => 0
  | _ => 1

/-- The part of its line that a thread has put into the stream. -/
def inserted (lib : JsonLibrary) (w : WriterThread) : Bytes :=
  match w.stage with
  | .inserting _ inserted _ => inserted
  | .flushing (some m) => line lib m
  | _ => []

/-- The records that a thread has written: those whose `write` has returned, and one whose `write`
is about to return. -/
def completed (w : WriterThread) : List ConnectionMetrics :=
  match w.stage with
  | .leaving (.ok request) => w.returned ++ request.toList
  | _ => w.returned

/-- The record that a thread is writing. -/
def writing (w : WriterThread) : Option ConnectionMetrics :=
  match w.stage with
  | .inserting m _ _ => some m
  | .flushing request => request
  | _ => none

/-- The record that a thread has been asked to write. -/
def request (w : WriterThread) : Option ConnectionMetrics :=
  match w.stage with
  | .entering request | .flushing request | .leaving (.ok request) => request
  | .serialising m | .inserting m _ _ => some m
  | _ => none

/-- The bytes that the output operators deal with are those of a line. -/
def Sound (lib : JsonLibrary) (w : WriterThread) : Prop :=
  ∀ m inserted rest, w.stage = .inserting m inserted rest → inserted ++ rest = line lib m

/-- Without the mutex nothing is put into the stream. -/
theorem inserted_eq_nil (h : holdsMutex w = 0) : inserted lib w = [] := by
  unfold holdsMutex at h
  unfold inserted
  cases hstage : w.stage <;> simp_all

section Runs

variable {old : Bytes} {threads : ℕ} {actions : List (ℕ × WriterInput)}
variable {s : Threaded MetricsFile WriterThread}

/-- At most one thread holds the mutex. -/
theorem exclusive_of_run (h : (machine lib old threads).run actions = some s) :
    total holdsMutex s.threads = s.shared.locked.toNat := by
  refine Machine.run_exclusive (by simp [holdsMutex]) ?_ h
  intro u w x u' w' hle hcall
  cases writerMove_of_step hcall with
  | call request stage => simp [holdsMutex, stage]
  | lock m stage free | lockFlush stage free => simp [holdsMutex, stage, free]
  | serialise m text stage | refuse m e stage | inserted m inserted stage =>
    simp [holdsMutex, stage]
  | insert m inserted rest n stage => simp [holdsMutex, stage]
  | spill n => rfl
  | flushed request stage empty => simp [holdsMutex, stage]
  | returns request stage | throws e stage =>
    simp only [holdsMutex, stage] at hle ⊢
    simp only [Bool.toNat_false]
    have := u.locked.toNat_le
    omega

/-- In every run the output operators deal with lines. -/
theorem sound_of_run (h : (machine lib old threads).run actions = some s) :
    ∀ w ∈ s.threads, Sound lib w := by
  refine Machine.run_forall (P := fun _ => True) (J := fun _ w => Sound lib w) ?_ ?_
    (fun _ _ => trivial) h
  · intro w hw
    rw [List.eq_of_mem_replicate hw]
    intro m inserted rest hstage
    cases hstage
  · intro u w x u' w' _ hw hcall
    refine ⟨?_, fun _ hv => hv⟩
    intro m done rest hstage
    cases writerMove_of_step hcall with
    | serialise m text stage written =>
      cases hstage
      obtain ⟨-, rfl⟩ := (m.toJsonlLine_eq_ok_iff lib text).mp written
      rfl
    | insert m inserted rest n stage =>
      cases hstage
      rw [List.append_assoc, List.take_append_drop, hw _ _ _ stage]
    | spill n => exact hw _ _ _ hstage
    | call request stage => cases hstage
    | lock m stage free => cases hstage
    | lockFlush stage free => cases hstage
    | refuse m e stage => cases hstage
    | inserted m inserted stage => cases hstage
    | flushed request stage empty => cases hstage
    | returns request stage => cases hstage
    | throws e stage => cases hstage

/-- A step completes a record exactly when it notes it as written. -/
theorem completed_of_move (h : WriterMove lib f w f' w') :
    (f'.written = f.written ∧ completed w' = completed w) ∨
      ∃ m, f'.written = f.written ++ [m] ∧ completed w' = completed w ++ [m] := by
  cases h with
  | call request stage | lock m stage free | lockFlush stage free =>
    exact .inl ⟨rfl, by simp [completed, stage]⟩
  | serialise m text stage written | refuse m e stage | inserted m inserted stage =>
    exact .inl ⟨rfl, by simp [completed, stage]⟩
  | insert m inserted rest n stage => exact .inl ⟨rfl, by simp [completed, stage]⟩
  | spill n => exact .inl ⟨rfl, rfl⟩
  | flushed request stage empty =>
    cases request with
    | none => exact .inl ⟨by simp, by simp [completed, stage]⟩
    | some m => exact .inr ⟨m, rfl, by simp [completed, stage]⟩
  | returns request stage | throws e stage => exact .inl ⟨rfl, by simp [completed, stage]⟩

/-- The records that a thread has written are among those that have been written, in the order in
which it has written them. -/
theorem completed_sublist_of_run (h : (machine lib old threads).run actions = some s) :
    ∀ w ∈ s.threads, (completed w).Sublist s.shared.written := by
  refine Machine.run_forall (P := fun _ => True) (J := fun u w => (completed w).Sublist u.written)
    ?_ ?_ (fun _ _ => trivial) h
  · intro w hw
    rw [List.eq_of_mem_replicate hw]
    exact List.nil_sublist _
  · intro u w x u' w' _ hw hcall
    rcases completed_of_move (writerMove_of_step hcall) with
      ⟨hwritten, hcompleted⟩ | ⟨m, hwritten, hcompleted⟩
    · rw [hwritten, hcompleted]
      exact ⟨hw, fun _ hv => hv⟩
    · rw [hwritten, hcompleted]
      exact ⟨hw.append (List.Sublist.refl _), fun _ hv => hv.trans (List.sublist_append_left _ _)⟩

/-- The records that have been written are those that the threads have written. -/
theorem written_perm_of_run (h : (machine lib old threads).run actions = some s) :
    s.shared.written.Perm (s.threads.flatMap completed) := by
  refine (machine lib old threads).run_invariant (P := fun _ => True)
    (I := fun s => s.shared.written.Perm (s.threads.flatMap completed)) ?_ ?_ (fun _ _ => trivial) h
  · simp [machine, Machine.ofThreads, List.flatMap_replicate, completed]
  · intro s a t _ hs ht
    obtain ⟨w, u, v, hw, hcall, rfl⟩ := Machine.ofThreads_step_eq_some_iff.mp ht
    rcases completed_of_move (writerMove_of_step hcall) with
      ⟨hwritten, hcompleted⟩ | ⟨m, hwritten, hcompleted⟩
    · simp only
      rw [hwritten, flatMap_set_of_eq hw hcompleted]
      exact hs
    · have hperm := flatMap_set_perm completed hw v
      rw [hcompleted] at hperm
      simp only
      rw [hwritten]
      apply (List.perm_append_right_iff (completed w)).mp
      refine List.Perm.trans ?_ hperm.symm
      rw [List.append_assoc]
      exact hs.append List.perm_append_comm

/-- The file consists of what it contained, of the lines that have been written, and of a part of
what the thread with the mutex has put into the stream; the stream has the rest of that. -/
theorem file_of_run (h : (machine lib old threads).run actions = some s) :
    ∃ spilled, s.shared.file = old ++ s.shared.written.flatMap (line lib) ++ spilled ∧
      spilled ++ s.shared.buffer = s.threads.flatMap (inserted lib) := by
  refine (machine lib old threads).run_induction (I := fun _ s =>
    ∃ spilled, s.shared.file = old ++ s.shared.written.flatMap (line lib) ++ spilled ∧
      spilled ++ s.shared.buffer = s.threads.flatMap (inserted lib)) ?_ ?_ h
  · exact ⟨[], by simp [machine, Machine.ofThreads],
      by simp [machine, Machine.ofThreads, List.flatMap_replicate, inserted]⟩
  · rintro actions s a t hrun ⟨spilled, hfile, hbuffer⟩ ht
    have hnil : ∀ w, holdsMutex w = 0 → inserted lib w = [] := fun _ => inserted_eq_nil
    have hexclusive := exclusive_of_run hrun
    have hone : total holdsMutex s.threads ≤ 1 := hexclusive ▸ s.shared.locked.toNat_le
    have hsound := sound_of_run hrun
    obtain ⟨w, u, v, hw, hcall, rfl⟩ := Machine.ofThreads_step_eq_some_iff.mp ht
    have hset := total_set holdsMutex hw v
    have hsame (hv : inserted lib v = inserted lib w) :
        (s.threads.set a.1 v).flatMap (inserted lib) = s.threads.flatMap (inserted lib) :=
      flatMap_set_of_eq hw hv
    have hold (hheld : holdsMutex w = 1) :
        s.threads.flatMap (inserted lib) = inserted lib w :=
      flatMap_eq_of_total hnil hone hw hheld
    have hnew (hheld : holdsMutex w = 1) (hheld' : holdsMutex v = 1) :
        (s.threads.set a.1 v).flatMap (inserted lib) = inserted lib v := by
      have hlt := (List.getElem?_eq_some_iff.mp hw).1
      exact flatMap_eq_of_total hnil (by omega) (List.getElem?_set_self hlt) hheld'
    cases writerMove_of_step hcall with
    | call request stage =>
      exact ⟨spilled, hfile, by rw [hsame (by simp [inserted, stage])]; exact hbuffer⟩
    | lock m stage free =>
      exact ⟨spilled, hfile, by rw [hsame (by simp [inserted, stage])]; exact hbuffer⟩
    | lockFlush stage free =>
      exact ⟨spilled, hfile, by rw [hsame (by simp [inserted, stage])]; exact hbuffer⟩
    | serialise m text stage written =>
      exact ⟨spilled, hfile, by rw [hsame (by simp [inserted, stage])]; exact hbuffer⟩
    | refuse m e stage =>
      exact ⟨spilled, hfile, by rw [hsame (by simp [inserted, stage])]; exact hbuffer⟩
    | returns request stage =>
      exact ⟨spilled, hfile, by rw [hsame (by simp [inserted, stage])]; exact hbuffer⟩
    | throws e stage =>
      exact ⟨spilled, hfile, by rw [hsame (by simp [inserted, stage])]; exact hbuffer⟩
    | insert m done rest n stage =>
      have hheld : holdsMutex w = 1 := by simp [holdsMutex, stage]
      rw [hold hheld] at hbuffer
      refine ⟨spilled, hfile, ?_⟩
      rw [hnew hheld (by simp [holdsMutex])]
      simp only
      rw [← List.append_assoc, hbuffer]
      simp [inserted, stage]
    | inserted m done stage =>
      have hline := hsound w (List.mem_of_getElem? hw) m done [] stage
      rw [List.append_nil] at hline
      exact ⟨spilled, hfile, by rw [hsame (by simp [inserted, stage, hline])]; exact hbuffer⟩
    | spill n =>
      refine ⟨spilled ++ s.shared.buffer.take n, ?_, ?_⟩
      · simp only [spill]
        rw [hfile, List.append_assoc]
      · simp only [spill]
        rw [hsame rfl, List.append_assoc, List.take_append_drop, hbuffer]
    | flushed request stage empty =>
      have hheld : holdsMutex w = 1 := by simp [holdsMutex, stage]
      rw [hold hheld, empty, List.append_nil] at hbuffer
      refine ⟨[], ?_, ?_⟩
      · simp only
        rw [hfile, hbuffer, List.append_nil, List.flatMap_append, List.append_assoc]
        cases request <;> simp [inserted, stage]
      · rw [hnew hheld (by simp [holdsMutex])]
        simp [empty, inserted]

/-- Only records whose texts are UTF-8 are written. -/
theorem textValid_of_run (h : (machine lib old threads).run actions = some s) :
    (∀ m ∈ s.shared.written, m.TextValid) ∧ ∀ w ∈ s.threads, ∀ m ∈ writing w, m.TextValid := by
  refine (machine lib old threads).run_invariant (P := fun _ => True)
    (I := fun s => (∀ m ∈ s.shared.written, m.TextValid) ∧
      ∀ w ∈ s.threads, ∀ m ∈ writing w, m.TextValid) ?_ ?_ (fun _ _ => trivial) h
  · simp [machine, Machine.ofThreads, writing]
  · rintro s a t _ ⟨hwritten, hwriting⟩ ht
    obtain ⟨w, u, v, hw, hcall, rfl⟩ := Machine.ofThreads_step_eq_some_iff.mp ht
    have hold := hwriting w (List.mem_of_getElem? hw)
    have hmove := writerMove_of_step hcall
    have hnew : ∀ m ∈ writing v, m.TextValid := by
      cases hmove with
      | serialise m text stage written =>
        simpa [writing] using ((m.toJsonlLine_eq_ok_iff lib text).mp written).1
      | insert m done rest n stage | inserted m done stage =>
        simpa [writing, stage] using hold
      | spill n => exact hold
      | call request stage | lock m stage free | lockFlush stage free => simp [writing]
      | refuse m e stage | flushed request stage empty => simp [writing]
      | returns request stage | throws e stage => simp [writing]
    constructor
    · cases hmove with
      | flushed request stage empty =>
        intro m hm
        rcases List.mem_append.mp hm with hm | hm
        · exact hwritten m hm
        · exact hold m (by simpa [writing, stage] using hm)
      | _ => exact hwritten
    · intro w' hw'
      rcases List.mem_or_eq_of_mem_set hw' with hw' | rfl
      · exact hwriting w' hw'
      · exact hnew

/-- What a thread is asked to write comes from a call, and it stays the same until the call ends. -/
theorem request_of_step (h : threadStep lib f w x = some (f', w')) :
    x = .call (request w') ∨ request w' = request w ∨ request w' = none := by
  have hmove := writerMove_of_step h
  cases hmove with
  | call request stage =>
    cases x with
    | call request' =>
      simp only [threadStep, stage] at h
      cases h
      exact .inl rfl
    | _ => simp [threadStep, stage] at h
  | lock m stage free | lockFlush stage free => exact .inr (.inl (by simp [request, stage]))
  | serialise m text stage written => exact .inr (.inl (by simp [request, stage]))
  | insert m done rest n stage | inserted m done stage =>
    exact .inr (.inl (by simp [request, stage]))
  | spill n => exact .inr (.inl rfl)
  | flushed request' stage empty => exact .inr (.inl (by simp [request, stage]))
  | refuse m e stage => exact .inr (.inr rfl)
  | returns request' stage | throws e stage => exact .inr (.inr rfl)

/-- Only records are written that `write` has been called for. -/
theorem requested_of_run (h : (machine lib old threads).run actions = some s) :
    ∀ m ∈ s.shared.written, ∃ i, (i, WriterInput.call (some m)) ∈ actions := by
  let Requested (m : ConnectionMetrics) : Prop := ∃ i, (i, WriterInput.call (some m)) ∈ actions
  have hrun := (machine lib old threads).run_invariant (P := fun a => a ∈ actions)
    (I := fun s => (∀ m ∈ s.shared.written, Requested m) ∧
      ∀ w ∈ s.threads, ∀ m ∈ request w, Requested m) ?_ ?_ (fun _ ha => ha) h
  · exact hrun.1
  · simp [machine, Machine.ofThreads, request]
  · rintro s a t ha ⟨hwritten, hrequest⟩ ht
    obtain ⟨w, u, v, hw, hcall, rfl⟩ := Machine.ofThreads_step_eq_some_iff.mp ht
    have hold := hrequest w (List.mem_of_getElem? hw)
    constructor
    · cases writerMove_of_step hcall with
      | flushed request' stage empty =>
        intro m hm
        rcases List.mem_append.mp hm with hm | hm
        · exact hwritten m hm
        · exact hold m (by simpa [request, stage] using hm)
      | _ => exact hwritten
    · intro w' hw'
      rcases List.mem_or_eq_of_mem_set hw' with hw' | rfl
      · exact hrequest w' hw'
      · intro m hm
        rcases request_of_step hcall with hinput | hsame | hnone
        · refine ⟨a.1, ?_⟩
          rw [Option.mem_def.mp hm] at hinput
          rw [← hinput]
          exact ha
        · exact hold m (hsame ▸ hm)
        · rw [hnone] at hm
          cases hm

/-- What a thread has put into the stream is a part of the line that it is writing. -/
theorem inserted_prefix (hsound : Sound lib w) (hne : inserted lib w ≠ []) :
    ∃ m ∈ writing w, inserted lib w <+: line lib m := by
  unfold inserted at hne ⊢
  unfold writing
  split at hne
  · rename_i m done rest hstage
    rw [hstage]
    exact ⟨m, rfl, hsound m done rest hstage ▸ List.prefix_append done rest⟩
  · rename_i m hstage
    rw [hstage]
    exact ⟨m, rfl, List.prefix_rfl⟩
  · exact absurd rfl hne

/-- What a run leaves in the file: the old contents, the lines of the written records, and
possibly the beginning of the line of a record that is being written. -/
theorem contents_of_run (h : (machine lib old threads).run actions = some s) :
    ∃ tail, s.shared.file = old ++ s.shared.written.flatMap (line lib) ++ tail ∧
      (tail = [] ∨ ∃ w ∈ s.threads, ∃ m ∈ writing w, tail <+: line lib m) := by
  obtain ⟨spilled, hfile, hbuffer⟩ := file_of_run h
  refine ⟨spilled, hfile, ?_⟩
  by_cases hne : spilled = []
  · exact .inl hne
  · have hsome : s.threads.flatMap (inserted lib) ≠ [] := by
      rw [← hbuffer]
      simp [hne]
    obtain ⟨w, hw, hinserted⟩ : ∃ w ∈ s.threads, inserted lib w ≠ [] := by
      by_contra hall
      push Not at hall
      exact hsome (List.flatMap_eq_nil_iff.mpr hall)
    obtain ⟨m, hm, hbegins⟩ := inserted_prefix (sound_of_run h w hw) hinserted
    have hholds : holdsMutex w = 1 := by
      by_contra hnot
      have hle : holdsMutex w ≤ 1 := by
        unfold holdsMutex
        split <;> omega
      exact hinserted (inserted_eq_nil (by omega))
    obtain ⟨i, hi⟩ := List.getElem?_of_mem hw
    have hone : total holdsMutex s.threads ≤ 1 := exclusive_of_run h ▸ s.shared.locked.toNat_le
    have honly : s.threads.flatMap (inserted lib) = inserted lib w :=
      @flatMap_eq_of_total _ _ _ _ _ holdsMutex _ (fun _ => inserted_eq_nil) hone hi hholds
    rw [honly] at hbuffer
    exact .inr ⟨w, hw, m, hm, (List.prefix_append _ _).trans (hbuffer ▸ hbegins)⟩

/-- A writer with an open file that has written nothing. -/
def opened : MetricsWriter := ⟨true, [], []⟩

/-- However many threads share a metrics writer, and whenever the process ends, the file contains
what it contained before, then one whole line for every record that has been written, as if one
thread had written them, and then at most the beginning of one further line. The written records
are those whose `write` has returned or is about to return, each of them is one that `write` has
been called for, and each thread's records come in the order in which it has written them. -/
theorem metrics_file_whole_lines (lib : JsonLibrary) (old : Bytes) (threads : ℕ)
    (actions : List (ℕ × WriterInput)) (s : Threaded MetricsFile WriterThread)
    (h : (machine lib old threads).run actions = some s) :
    (s.shared.written.foldl (fun w m => (w.write lib m).1) opened).records = s.shared.written ∧
    (∃ tail, s.shared.file = old ++
        (s.shared.written.foldl (fun w m => (w.write lib m).1) opened).lines.flatMap
          (fun text => text ++ [0x0A]) ++ tail ∧
      (tail = [] ∨ ∃ w ∈ s.threads, ∃ m ∈ writing w, tail <+: line lib m)) ∧
    s.shared.written.Perm (s.threads.flatMap completed) ∧
    (∀ m ∈ s.shared.written, ∃ i, (i, WriterInput.call (some m)) ∈ actions) ∧
    ∀ w ∈ s.threads, w.returned.Sublist s.shared.written := by
  obtain ⟨tail, hfile, htail⟩ := contents_of_run h
  rw [MetricsWriter.foldl_write lib (textValid_of_run h).1 opened rfl]
  refine ⟨List.nil_append _, ⟨tail, ?_, htail⟩, written_perm_of_run h, requested_of_run h,
    fun w hw => ?_⟩
  · rw [hfile]
    simp only [opened, List.nil_append, List.flatMap_map]
    rfl
  · have hcompleted := completed_sublist_of_run h w hw
    refine List.Sublist.trans ?_ hcompleted
    unfold completed
    split
    · exact List.sublist_append_left _ _
    · exact List.Sublist.refl _

end Runs

/-- A run of two threads: one has written a record, and the other has put the beginning of its line
into the stream, which has handed a part of that to the file. -/
def killedRun : List (ℕ × WriterInput) :=
  [(0, .call (some {})), (1, .call (some { role := .server })), (0, .proceed), (0, .proceed),
    (0, .insert 400), (0, .spill 300), (0, .insert 1000), (0, .proceed), (0, .spill 1000),
    (0, .proceed), (0, .proceed), (1, .proceed), (1, .proceed), (1, .insert 7), (1, .spill 5)]

/-- Such a run leaves one line and the beginning of another one. -/
theorem metrics_file_whole_lines_killed :
    ∃ s, (machine (JsonLibrary.ofTable []) (ascii "\n") 2).run killedRun = some s ∧
      s.shared.written.length = 1 ∧
      (∃ tail, s.shared.file = ascii "\n" ++
        (s.shared.written.foldl
          (fun w m => (w.write (JsonLibrary.ofTable []) m).1) opened).lines.flatMap
            (fun text => text ++ [0x0A]) ++ tail) ∧
      ∀ w ∈ s.threads, w.returned.Sublist s.shared.written := by
  have hany := (machine (JsonLibrary.ofTable []) (ascii "\n") 2).exists_of_run_any killedRun
    (fun s => s.shared.written.length = 1) (by decide +kernel)
  obtain ⟨s, hrun, hwritten⟩ := hany
  obtain ⟨-, ⟨tail, hfile, -⟩, -, -, horder⟩ := metrics_file_whole_lines _ _ _ _ s hrun
  exact ⟨s, hrun, hwritten, ⟨tail, hfile⟩, horder⟩

end MetricsFile

end PqtlsLab
