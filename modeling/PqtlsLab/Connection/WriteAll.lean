import Mathlib.Data.List.Infix
import PqtlsLab.Connection.Transport
import PqtlsLab.Foundation.Program

/-!
# `ssl_write_all`

The loop around `SSL_write` moves a pointer, a count of what remains and a counter of the
connection by what each call accepts, with the machine integers of the source between them. With
partial writes enabled a call may accept any part of what it is offered. The three stay in step, so
the bytes accepted are always the beginning of the buffer, and the loop ends with all of it or with
an exception.
-/

namespace PqtlsLab

/-- A buffer in memory, whose length is a `size_t`. -/
structure Buffer where
  bytes : Bytes
  length_lt : bytes.length < UInt64.size

/-- What `SSL_write` returns when it is offered `chunk` bytes: the number of bytes accepted, or a
number that is not positive. In the second case `SSL_get_error` tells the failure. -/
structure SslWriteAnswer (chunk : Int32) where
  written : Int32
  failure : SslFailure
  written_le : written ≤ 0 ∨ written ≤ chunk

/-- The answers of `SSL_write` to the calls, in their order. -/
abbrev SslWriter := ℕ → (chunk : Int32) → SslWriteAnswer chunk

/-- The result of a call, in the form in which the loops of the connection take it. -/
def SslWriteAnswer.result {chunk : Int32} (answer : SslWriteAnswer chunk) : WriteResult :=
  if answer.written ≤ 0 then .failed answer.failure
  else .accepted (answer.written.toInt.toNat - 1)

/-- One call of `SSL_write`: where its bytes begin in the buffer, how many it is offered, and its
result. -/
structure WriteCall where
  offset : ℕ
  chunk : Int32
  result : WriteResult

/-- The call asks for at least one byte and at most the largest `int`, and for nothing beyond the
end of the buffer. -/
def WriteCall.Within (data : Buffer) (call : WriteCall) : Prop :=
  1 ≤ call.chunk.toInt ∧ call.chunk.toInt ≤ 0x7FFFFFFF ∧
    (call.offset : ℤ) + call.chunk.toInt ≤ data.bytes.length

/-- The call has accepted some bytes. -/
def WriteCall.Succeeds (call : WriteCall) : Prop := ∃ extra, call.result = .accepted extra

/-- The bytes of the buffer that the call has accepted. -/
def WriteCall.slice (data : Buffer) (call : WriteCall) : Bytes :=
  match call.result with
  | .accepted extra => (data.bytes.drop call.offset).take (extra + 1)
  | .failed _ => []

/-- The variables of `ssl_write_all`. -/
structure WriteAll where
  /-- How far `cursor` has moved from the beginning of the buffer. -/
  cursor : ℕ
  remaining : UInt64
  /-- `counters.bytes_sent`. -/
  bytesSent : UInt64
  /-- The calls of `SSL_write` so far. -/
  calls : List WriteCall
  /-- The bytes that `SSL_write` has accepted so far. -/
  accepted : Bytes
  /-- How the loop has ended, if it has. -/
  outcome : Option (Except Thrown Unit)

namespace WriteAll

/-- The variables before the first iteration. -/
def start (data : Buffer) (bytesSent : UInt64) : WriteAll where
  cursor := 0
  remaining := UInt64.ofNat data.bytes.length
  bytesSent := bytesSent
  calls := []
  accepted := []
  outcome := none

/-- `chunk`. -/
def chunk (w : WriteAll) : Int32 :=
  (if w.remaining > 0x7FFFFFFF then 0x7FFFFFFF else w.remaining).toUInt32.toInt32

/-- The answer of `SSL_write` in the next iteration. -/
def answer (ssl : SslWriter) (w : WriteAll) : SslWriteAnswer w.chunk := ssl w.calls.length w.chunk

/-- The body of the loop. -/
def body (ssl : SslWriter) (data : Buffer) (w : WriteAll) : WriteAll :=
  let written := (w.answer ssl).written
  let calls := w.calls ++ [⟨w.cursor, w.chunk, (w.answer ssl).result⟩]
  if written ≤ 0 then
    { w with
      calls
      outcome := some (.error (throwSslError (ascii "SSL_write") (w.answer ssl).failure)) }
  else
    let writtenSize := written.toInt64.toUInt64
    { w with
      calls
      accepted := w.accepted ++ (data.bytes.drop w.cursor).take writtenSize.toNat
      cursor := w.cursor + writtenSize.toNat
      remaining := w.remaining - writtenSize
      bytesSent := w.bytesSent + writtenSize }

/-- One step: the condition of the loop and, if it holds, the body. -/
def step (ssl : SslWriter) (data : Buffer) (w : WriteAll) : WriteAll :=
  match w.outcome with
  | some _ => w
  | none => if w.remaining > 0 then w.body ssl data else { w with outcome := some (.ok ()) }

/-- The clamped request is the smaller of what remains and the largest `int`. -/
theorem toInt_chunk (w : WriteAll) :
    w.chunk.toInt = (min w.remaining.toNat kWriteChunk : ℕ) := by
  unfold chunk kWriteChunk
  split
  · rename_i hlarge
    rw [gt_iff_lt, UInt64.lt_iff_toNat_lt] at hlarge
    have hmin : min w.remaining.toNat 0x7FFFFFFF = 0x7FFFFFFF := Nat.min_eq_right hlarge.le
    rw [hmin]
    decide
  · rename_i hsmall
    rw [gt_iff_lt, UInt64.lt_iff_toNat_lt, Nat.not_lt] at hsmall
    have hle : w.remaining.toNat ≤ 0x7FFFFFFF := hsmall
    have hnat : w.remaining.toUInt32.toBitVec.toNat = w.remaining.toNat := by
      rw [UInt32.toNat_toBitVec, UInt64.toNat_toUInt32]
      omega
    rw [Nat.min_eq_left hle, Int32.toInt, UInt32.toBitVec_toInt32,
      BitVec.toInt_eq_toNat_of_lt (by omega), hnat]

/-- A positive answer is at most the request, and the conversion to `size_t` keeps it. -/
theorem written_spec {w : WriteAll} {answer : SslWriteAnswer w.chunk}
    (hpos : ¬ answer.written ≤ 0) :
    1 ≤ answer.written.toInt.toNat ∧
      answer.written.toInt64.toUInt64.toNat = answer.written.toInt.toNat ∧
      answer.written.toInt.toNat ≤ min w.remaining.toNat kWriteChunk := by
  have hle := answer.written_le.resolve_left hpos
  rw [Int32.le_iff_toInt_le, toInt_chunk] at hle
  rw [Int32.le_iff_toInt_le, Int32.toInt_zero] at hpos
  refine ⟨by omega, ?_, by omega⟩
  have hnonneg : 0 ≤ answer.written.toInt64 := by
    rw [Int64.le_iff_toInt_le, Int32.toInt_toInt64, Int64.toInt_zero]
    omega
  rw [Int64.toNat_toUInt64_of_le hnonneg, Int64.toNatClampNeg, Int32.toInt_toInt64]

/-- Everything a step of the running loop can do. -/
inductive Round (ssl : SslWriter) (data : Buffer) (w : WriteAll) : WriteAll → Prop where
  | returned (hremaining : w.remaining.toNat = 0) :
      Round ssl data w { w with outcome := some (.ok ()) }
  | thrown (failure : SslFailure) (hremaining : 1 ≤ w.remaining.toNat)
      (hresult : (w.answer ssl).result = .failed failure) :
      Round ssl data w
        { w with
          calls := w.calls ++ [⟨w.cursor, w.chunk, .failed failure⟩]
          outcome := some (.error (throwSslError (ascii "SSL_write") failure)) }
  | accepted (extra : ℕ) (size : UInt64) (hremaining : 1 ≤ w.remaining.toNat)
      (hresult : (w.answer ssl).result = .accepted extra) (hsize : size.toNat = extra + 1)
      (hle : size.toNat ≤ min w.remaining.toNat kWriteChunk) :
      Round ssl data w
        { w with
          calls := w.calls ++ [⟨w.cursor, w.chunk, .accepted extra⟩]
          accepted := w.accepted ++ (data.bytes.drop w.cursor).take size.toNat
          cursor := w.cursor + size.toNat
          remaining := w.remaining - size
          bytesSent := w.bytesSent + size }

/-- Every step of the running loop is one of the rounds. -/
theorem step_round (ssl : SslWriter) (data : Buffer) {w : WriteAll} (hw : w.outcome = none) :
    Round ssl data w (w.step ssl data) := by
  simp only [step, hw, gt_iff_lt, UInt64.lt_iff_toNat_lt, UInt64.toNat_zero]
  split
  · rename_i hremaining
    simp only [body]
    split
    · rename_i hfailed
      have hresult : (w.answer ssl).result = .failed (w.answer ssl).failure := by
        rw [SslWriteAnswer.result, if_pos hfailed]
      rw [hresult]
      exact .thrown _ hremaining hresult
    · rename_i hpos
      have hresult :
          (w.answer ssl).result = .accepted ((w.answer ssl).written.toInt.toNat - 1) := by
        rw [SslWriteAnswer.result, if_neg hpos]
      obtain ⟨hone, hsize, hle⟩ := written_spec hpos
      rw [hresult]
      exact .accepted _ _ hremaining hresult (by omega) (by omega)
  · rename_i hremaining
    exact .returned (by omega)

/-- What remains after a call has accepted some bytes. -/
theorem toNat_remaining_sub {w : WriteAll} {size : UInt64}
    (hle : size.toNat ≤ min w.remaining.toNat kWriteChunk) :
    (w.remaining - size).toNat = w.remaining.toNat - size.toNat := by
  apply UInt64.toNat_sub_of_le
  rw [UInt64.le_iff_toNat_le]
  omega

/-- How the variables belong together, when the counter began at `bytesSent`. -/
structure Inv (data : Buffer) (bytesSent : UInt64) (w : WriteAll) : Prop where
  cursor_add_remaining : w.cursor + w.remaining.toNat = data.bytes.length
  accepted_eq : w.accepted = data.bytes.take w.cursor
  bytesSent_eq : w.bytesSent = bytesSent + UInt64.ofNat w.cursor
  calls_le_cursor : w.outcome = none → w.calls.length ≤ w.cursor
  calls_le : w.calls.length ≤ data.bytes.length
  within : ∀ call ∈ w.calls, call.Within data
  returned : w.outcome = some (.ok ()) → w.remaining.toNat = 0
  thrown : ∀ e, w.outcome = some (.error e) → 1 ≤ w.remaining.toNat

/-- The variables belong together initially. -/
theorem inv_start (data : Buffer) (bytesSent : UInt64) :
    Inv data bytesSent (start data bytesSent) where
  cursor_add_remaining := by
    simp only [start, UInt64.toNat_ofNat', Nat.zero_add]
    exact Nat.mod_eq_of_lt data.length_lt
  accepted_eq := by simp [start]
  bytesSent_eq := by simp [start]
  calls_le_cursor _ := Nat.zero_le _
  calls_le := Nat.zero_le _
  within := by simp [start]
  returned := by simp [start]
  thrown := by simp [start]

/-- The cursor is where the accepted bytes end. -/
theorem Inv.length_accepted {data : Buffer} {bytesSent : UInt64} {w : WriteAll}
    (h : Inv data bytesSent w) : w.accepted.length = w.cursor := by
  have hsum := h.cursor_add_remaining
  rw [h.accepted_eq, List.length_take]
  omega

/-- The bytes offered to the next call lie within the buffer. -/
theorem Inv.within_append {data : Buffer} {bytesSent : UInt64} {w : WriteAll}
    (h : Inv data bytesSent w) (hremaining : 1 ≤ w.remaining.toNat) (result : WriteResult) :
    ∀ call ∈ w.calls ++ [⟨w.cursor, w.chunk, result⟩], call.Within data := by
  intro call hcall
  rcases List.mem_append.mp hcall with hcall | hcall
  · exact h.within call hcall
  · rw [List.mem_singleton] at hcall
    subst hcall
    have hsum := h.cursor_add_remaining
    simp only [WriteCall.Within, toInt_chunk, kWriteChunk]
    omega

/-- Every round keeps the variables together. -/
theorem Round.inv {ssl : SslWriter} {data : Buffer} {bytesSent : UInt64} {w v : WriteAll}
    (hround : Round ssl data w v) (hw : w.outcome = none) (h : Inv data bytesSent w) :
    Inv data bytesSent v := by
  have hsum := h.cursor_add_remaining
  have hcalls := h.calls_le_cursor hw
  cases hround with
  | returned hremaining =>
    exact { h with
      calls_le_cursor := by simp
      returned := fun _ => hremaining
      thrown := by simp }
  | thrown failure hremaining =>
    exact { h with
      calls_le_cursor := by simp
      calls_le := by
        simp only [List.length_append, List.length_singleton]
        omega
      within := h.within_append hremaining _
      returned := by simp
      thrown := fun _ _ => hremaining }
  | accepted extra size hremaining hresult hsize hle =>
    have hsub := toNat_remaining_sub hle
    exact {
      cursor_add_remaining := by
        simp only [hsub]
        omega
      accepted_eq := by
        simp only [h.accepted_eq]
        rw [List.take_add]
      bytesSent_eq := by
        simp only [h.bytesSent_eq, UInt64.ofNat_add, UInt64.ofNat_toNat, UInt64.add_assoc]
      calls_le_cursor := fun _ => by
        simp only [List.length_append, List.length_singleton]
        omega
      calls_le := by
        simp only [List.length_append, List.length_singleton]
        omega
      within := h.within_append hremaining _
      returned := by simp [hw]
      thrown := by simp [hw] }

/-- What the calls so far have to do with the answers of `SSL_write`, with the bytes accepted and
with the end of the loop. -/
structure Recorded (ssl : SslWriter) (data : Buffer) (w : WriteAll) : Prop where
  /-- Each call has the result that `SSL_write` gives in its turn, and begins where the bytes
  accepted by the earlier ones end. -/
  answered : ∀ i call, w.calls[i]? = some call → call.result = (ssl i call.chunk).result ∧
    call.offset = ((w.calls.take i).flatMap (WriteCall.slice data)).length
  accepted_eq : w.accepted = w.calls.flatMap (WriteCall.slice data)
  /-- As long as nothing is thrown all calls succeed; what is thrown is the error of the last. -/
  ending :
    match w.outcome with
    | some (.error e) => ∃ calls call failure, w.calls = calls ++ [call] ∧
        call.result = .failed failure ∧ (∀ c ∈ calls, c.Succeeds) ∧
        e = throwSslError (ascii "SSL_write") failure
    | _ => ∀ call ∈ w.calls, call.Succeeds

/-- Nothing has been called initially. -/
theorem recorded_start (ssl : SslWriter) (data : Buffer) (bytesSent : UInt64) :
    Recorded ssl data (start data bytesSent) where
  answered := by simp [start]
  accepted_eq := rfl
  ending := by simp [start]

/-- One more call is recorded like the earlier ones. -/
theorem Recorded.answered_append {ssl : SslWriter} {data : Buffer} {bytesSent : UInt64}
    {w : WriteAll} (h : Recorded ssl data w) (hinv : Inv data bytesSent w) {result : WriteResult}
    (hresult : (w.answer ssl).result = result) :
    let calls := w.calls ++ [WriteCall.mk w.cursor w.chunk result]
    ∀ i call, calls[i]? = some call → call.result = (ssl i call.chunk).result ∧
      call.offset = ((calls.take i).flatMap (WriteCall.slice data)).length := by
  intro calls i call hcall
  simp only [calls] at hcall ⊢
  rcases Nat.lt_trichotomy i w.calls.length with hearlier | hlast | hbeyond
  · rw [List.getElem?_append_left hearlier] at hcall
    rw [List.take_append_of_le_length hearlier.le]
    exact h.answered i call hcall
  · subst hlast
    rw [List.getElem?_concat_length, Option.some.injEq] at hcall
    subst hcall
    rw [List.take_left, ← h.accepted_eq, hinv.length_accepted]
    exact ⟨hresult.symm, rfl⟩
  · rw [List.getElem?_eq_none (by simp; omega)] at hcall
    cases hcall

/-- Every round keeps the record. -/
theorem Round.recorded {ssl : SslWriter} {data : Buffer} {bytesSent : UInt64} {w v : WriteAll}
    (hround : Round ssl data w v) (hw : w.outcome = none) (hinv : Inv data bytesSent w)
    (h : Recorded ssl data w) : Recorded ssl data v := by
  have hsucceeded : ∀ call ∈ w.calls, call.Succeeds := by simpa only [hw] using h.ending
  cases hround with
  | returned hremaining => exact ⟨h.answered, h.accepted_eq, hsucceeded⟩
  | thrown failure hremaining hresult =>
    refine ⟨h.answered_append hinv hresult, ?_, ?_⟩
    · simp [h.accepted_eq, WriteCall.slice]
    · exact ⟨w.calls, _, failure, rfl, rfl, hsucceeded, rfl⟩
  | accepted extra size hremaining hresult hsize hle =>
    refine ⟨h.answered_append hinv hresult, ?_, ?_⟩
    · simp [h.accepted_eq, WriteCall.slice, hsize]
    · simp only [hw, List.forall_mem_append, List.forall_mem_singleton]
      exact ⟨hsucceeded, extra, rfl⟩

/-- After a normal return the whole buffer has been accepted. -/
theorem Inv.accepted_of_returned {data : Buffer} {bytesSent : UInt64} {w : WriteAll}
    (h : Inv data bytesSent w) (houtcome : w.outcome = some (.ok ())) :
    w.cursor = data.bytes.length ∧ w.accepted = data.bytes := by
  have hsum := h.cursor_add_remaining
  have hremaining := h.returned houtcome
  have hcursor : w.cursor = data.bytes.length := by omega
  refine ⟨hcursor, ?_⟩
  rw [h.accepted_eq, hcursor, List.take_length]

/-- After an exception a proper prefix of the buffer has been accepted. -/
theorem Inv.accepted_of_thrown {data : Buffer} {bytesSent : UInt64} {w : WriteAll} {e : Thrown}
    (h : Inv data bytesSent w) (houtcome : w.outcome = some (.error e)) :
    w.accepted.length = w.cursor ∧ w.accepted <+: data.bytes ∧ w.accepted ≠ data.bytes := by
  have hsum := h.cursor_add_remaining
  have hremaining := h.thrown e houtcome
  have hlength := h.length_accepted
  refine ⟨hlength, ?_, ?_⟩
  · rw [h.accepted_eq]
    exact List.take_prefix _ _
  · intro hall
    rw [hall] at hlength
    omega

/-- Every round ends the loop or leaves less to write. -/
theorem Round.rank {ssl : SslWriter} {data : Buffer} {w v : WriteAll}
    (hround : Round ssl data w v) :
    v.outcome.isSome = true ∨ v.remaining.toNat < w.remaining.toNat := by
  cases hround with
  | returned => exact .inl rfl
  | thrown => exact .inl rfl
  | accepted extra size hremaining hresult hsize hle =>
    right
    have hsub := toNat_remaining_sub hle
    simp only [hsub]
    omega

end WriteAll

/-- `ssl_write_all` as a program. -/
def sslWriteAllProgram (ssl : SslWriter) (data : Buffer) : Program WriteAll ℕ where
  step := WriteAll.step ssl data
  Halted w := w.outcome.isSome = true
  decHalted := inferInstance
  step_of_halted := by
    intro w hw
    obtain ⟨outcome, houtcome⟩ := Option.isSome_iff_exists.mp hw
    simp only [WriteAll.step, houtcome]
  rank w := w.remaining.toNat
  rank_step hw := (WriteAll.step_round ssl data (Option.not_isSome_iff_eq_none.mp hw)).rank

/-- `ssl_write_all`: the variables when the loop has ended. -/
def sslWriteAll (ssl : SslWriter) (data : Buffer) (bytesSent : UInt64) : WriteAll :=
  (sslWriteAllProgram ssl data).final (WriteAll.start data bytesSent)

/-- At the end the variables still belong together. -/
theorem inv_sslWriteAll (ssl : SslWriter) (data : Buffer) (bytesSent : UInt64) :
    (sslWriteAll ssl data bytesSent).Inv data bytesSent := by
  refine (sslWriteAllProgram ssl data).final_invariant ?_ (WriteAll.inv_start data bytesSent)
  intro w hw h
  have hrunning := Option.not_isSome_iff_eq_none.mp hw
  exact (WriteAll.step_round ssl data hrunning).inv hrunning h

/-- At the end the calls are still recorded. -/
theorem recorded_sslWriteAll (ssl : SslWriter) (data : Buffer) (bytesSent : UInt64) :
    (sslWriteAll ssl data bytesSent).Recorded ssl data := by
  refine ((sslWriteAllProgram ssl data).final_invariant
    (I := fun w => w.Inv data bytesSent ∧ w.Recorded ssl data) ?_
    ⟨WriteAll.inv_start data bytesSent, WriteAll.recorded_start ssl data bytesSent⟩).2
  rintro w hw ⟨hinv, h⟩
  have hrunning := Option.not_isSome_iff_eq_none.mp hw
  have hround := WriteAll.step_round ssl data hrunning
  exact ⟨hround.inv hrunning hinv, hround.recorded hrunning hinv h⟩

/-- The loop ends. -/
theorem exists_outcome_sslWriteAll (ssl : SslWriter) (data : Buffer) (bytesSent : UInt64) :
    ∃ outcome, (sslWriteAll ssl data bytesSent).outcome = some outcome :=
  Option.isSome_iff_exists.mp ((sslWriteAllProgram ssl data).halted_final _)

/-- `ssl_write_all` ends. If it returns, all calls have succeeded and `SSL_write` has accepted
exactly the buffer; otherwise it throws the error of the last call, the only one that has failed,
and a proper prefix of the buffer has been accepted. What has been accepted are the slices that the
calls have taken, each where the last one ended and with the result that `SSL_write` gave in its
turn, and the counter has grown by their length. Every request fits an `int` and lies in the buffer,
and there are at most as many as the buffer has bytes. -/
theorem ssl_write_all_exact (ssl : SslWriter) (data : Buffer) (bytesSent : UInt64) :
    let w := sslWriteAll ssl data bytesSent
    (w.outcome = some (.ok ()) ∧ (∀ call ∈ w.calls, call.Succeeds) ∧ w.accepted = data.bytes ∧
        w.bytesSent = bytesSent + UInt64.ofNat data.bytes.length ∨
      (∃ calls call failure, w.calls = calls ++ [call] ∧ (∀ c ∈ calls, c.Succeeds) ∧
        call.result = .failed failure ∧
        w.outcome = some (.error (throwSslError (ascii "SSL_write") failure))) ∧
        w.accepted <+: data.bytes ∧ w.accepted ≠ data.bytes ∧
        w.bytesSent = bytesSent + UInt64.ofNat w.accepted.length) ∧
    w.accepted = w.calls.flatMap (WriteCall.slice data) ∧
    (∀ i call, w.calls[i]? = some call → call.result = (ssl i call.chunk).result ∧
      call.offset = ((w.calls.take i).flatMap (WriteCall.slice data)).length) ∧
    (∀ call ∈ w.calls, call.Within data) ∧ w.calls.length ≤ data.bytes.length := by
  have h := inv_sslWriteAll ssl data bytesSent
  have hrecorded := recorded_sslWriteAll ssl data bytesSent
  obtain ⟨outcome, houtcome⟩ := exists_outcome_sslWriteAll ssl data bytesSent
  have hending := hrecorded.ending
  rw [houtcome] at hending
  refine ⟨?_, hrecorded.accepted_eq, hrecorded.answered, h.within, h.calls_le⟩
  cases outcome with
  | ok =>
    left
    obtain ⟨hcursor, haccepted⟩ := h.accepted_of_returned houtcome
    exact ⟨houtcome, hending, haccepted, by rw [h.bytesSent_eq, hcursor]⟩
  | error e =>
    right
    obtain ⟨hlength, hprefix, hproper⟩ := h.accepted_of_thrown houtcome
    obtain ⟨calls, call, failure, hcalls, hfailed, hsucceeded, rfl⟩ := hending
    exact ⟨⟨calls, call, failure, hcalls, hsucceeded, hfailed, houtcome⟩, hprefix, hproper,
      by rw [h.bytesSent_eq, hlength]⟩

end PqtlsLab
