import PqtlsLab.Client.Exchange
import PqtlsLab.Connection.WriteAll
import PqtlsLab.Server.Loop

/-!
# The rounds of `ssl_write_all` in the two application loops

Both loops run `ssl_write_all` round by round and see only the bytes that are left. Fed with the
results that the calls of `SSL_write` have, they take the same course as the function with its
pointer and its counters.
-/

namespace PqtlsLab

/-- A loop that runs `ssl_write_all` round by round. -/
structure WritingLoop (σ : Type) where
  /-- The bytes that are left to write, if the loop is writing. -/
  writing : σ → Option Bytes
  /-- The exception with which the loop has been left, if it has. -/
  thrown : σ → Option Thrown
  io : σ → Io
  /-- One round, with the result of the call of `SSL_write`. -/
  round : σ → WriteResult → σ
  round_accepted : ∀ {s rest} extra, writing s = some rest → rest ≠ [] →
    io (round s (.accepted extra)) = (io s).recordSent (rest.take (acceptedBytes extra rest)) ∧
      writing (round s (.accepted extra)) = some (rest.drop (acceptedBytes extra rest))
  round_failed : ∀ {s rest} failure, writing s = some rest → rest ≠ [] →
    io (round s (.failed failure)) = io s ∧
      thrown (round s (.failed failure)) = some (throwSslError (ascii "SSL_write") failure)

namespace WritingLoop

variable {σ : Type} (loop : WritingLoop σ)

/-- The state after the calls that `ssl_write_all` has made. -/
def after (s : σ) (w : WriteAll) : σ := (w.calls.map WriteCall.result).foldl loop.round s

/-- One more call is one more round. -/
theorem after_concat {s : σ} {w v : WriteAll} {call : WriteCall} (h : v.calls = w.calls ++ [call]) :
    loop.after s v = loop.round (loop.after s w) call.result := by
  simp [after, h]

/-- The loop has sent what `ssl_write_all` has, and is where `ssl_write_all` is. -/
structure Agrees (data : Buffer) (s : σ) (w : WriteAll) : Prop where
  sent_eq : (loop.io (loop.after s w)).sent = (loop.io s).sent ++ w.accepted
  bytesSent_eq : (loop.io (loop.after s w)).bytesSent = w.bytesSent
  position :
    match w.outcome with
    | none => loop.writing (loop.after s w) = some (data.bytes.drop w.cursor)
    | some (.ok ()) => loop.writing (loop.after s w) = some []
    | some (.error e) => loop.thrown (loop.after s w) = some e

variable {loop} {ssl : SslWriter} {data : Buffer} {s : σ}

/-- Before the first call the two agree. -/
theorem agrees_start (hs : loop.writing s = some data.bytes) :
    loop.Agrees data s (WriteAll.start data (loop.io s).bytesSent) where
  sent_eq := by simp [after, WriteAll.start]
  bytesSent_eq := rfl
  position := hs

/-- A round of `ssl_write_all` keeps the two in agreement. -/
theorem Agrees.step {bytesSent : UInt64} {w v : WriteAll} (h : loop.Agrees data s w)
    (hw : w.outcome = none) (hinv : w.Inv data bytesSent) (hround : WriteAll.Round ssl data w v) :
    loop.Agrees data s v := by
  have hsum := hinv.cursor_add_remaining
  have hwriting : loop.writing (loop.after s w) = some (data.bytes.drop w.cursor) := by
    simpa only [hw] using h.position
  have hlength : (data.bytes.drop w.cursor).length = w.remaining.toNat := by
    rw [List.length_drop]
    omega
  cases hround with
  | returned hremaining =>
    have hrest : data.bytes.drop w.cursor = [] := List.length_eq_zero_iff.mp (by omega)
    rw [hrest] at hwriting
    exact ⟨h.sent_eq, h.bytesSent_eq, hwriting⟩
  | thrown failure hremaining =>
    have hrest : data.bytes.drop w.cursor ≠ [] := List.length_pos_iff.mp (by omega)
    obtain ⟨hio, hthrown⟩ := loop.round_failed failure hwriting hrest
    constructor
    · rw [loop.after_concat rfl, hio, h.sent_eq]
    · rw [loop.after_concat rfl, hio, h.bytesSent_eq]
    · rw [loop.after_concat rfl]
      exact hthrown
  | accepted extra size hremaining hresult hsize hle =>
    have hrest : data.bytes.drop w.cursor ≠ [] := List.length_pos_iff.mp (by omega)
    have htaken : acceptedBytes extra (data.bytes.drop w.cursor) = size.toNat := by
      unfold acceptedBytes
      omega
    have htakenLength : ((data.bytes.drop w.cursor).take size.toNat).length = size.toNat := by
      rw [List.length_take]
      omega
    obtain ⟨hio, hnext⟩ := loop.round_accepted extra hwriting hrest
    rw [htaken] at hio hnext
    constructor
    · rw [loop.after_concat rfl, hio, Io.recordSent_sent, h.sent_eq, List.append_assoc]
    · rw [loop.after_concat rfl, hio, Io.recordSent_bytesSent, h.bytesSent_eq, htakenLength,
        UInt64.ofNat_toNat]
    · simp only [hw]
      rw [loop.after_concat rfl, hnext, List.drop_drop]

/-- At the end of `ssl_write_all` the two agree. -/
theorem agrees_sslWriteAll (ssl : SslWriter) (hs : loop.writing s = some data.bytes) :
    loop.Agrees data s (sslWriteAll ssl data (loop.io s).bytesSent) := by
  have hstart := WriteAll.inv_start data (loop.io s).bytesSent
  refine ((sslWriteAllProgram ssl data).final_invariant
    (I := fun w => w.Inv data (loop.io s).bytesSent ∧ loop.Agrees data s w) ?_
    ⟨hstart, agrees_start hs⟩).2
  rintro w hw ⟨hinv, h⟩
  have hrunning := Option.not_isSome_iff_eq_none.mp hw
  have hround := WriteAll.step_round ssl data hrunning
  exact ⟨hround.inv hrunning hinv, h.step hrunning hinv hround⟩

/-- Fed with the results of the calls, the loop sends the whole buffer, or it sends a part of it
and is left with the exception of `ssl_write_all`. -/
theorem sends_buffer (loop : WritingLoop σ) (ssl : SslWriter)
    (hs : loop.writing s = some data.bytes) :
    ∃ w, w = sslWriteAll ssl data (loop.io s).bytesSent ∧
      (loop.io (loop.after s w)).sent = (loop.io s).sent ++ w.accepted ∧
      (loop.writing (loop.after s w) = some [] ∧ w.accepted = data.bytes ∨
        ∃ e, w.outcome = some (.error e) ∧ loop.thrown (loop.after s w) = some e ∧
          w.accepted <+: data.bytes ∧ w.accepted ≠ data.bytes) := by
  have h := agrees_sslWriteAll ssl hs
  have hinv := inv_sslWriteAll ssl data (loop.io s).bytesSent
  obtain ⟨outcome, houtcome⟩ := exists_outcome_sslWriteAll ssl data (loop.io s).bytesSent
  have hposition := h.position
  simp only [houtcome] at hposition
  refine ⟨_, rfl, h.sent_eq, ?_⟩
  cases outcome with
  | ok => exact .inl ⟨hposition, (hinv.accepted_of_returned houtcome).2⟩
  | error e => exact .inr ⟨e, houtcome, hposition, (hinv.accepted_of_thrown houtcome).2⟩

end WritingLoop

/-- The bytes that are left to write. -/
def ServerControl.rest? : ServerControl → Option Bytes
  | .writing rest => some rest
  | _ => none

/-- The exception that is unwinding. -/
def ServerControl.thrown? : ServerControl → Option Thrown
  | .failed e => some e
  | _ => none

/-- The bytes that are left to write. -/
def ClientControl.rest? : ClientControl → Option Bytes
  | .writing rest => some rest
  | _ => none

/-- The exception that is unwinding. -/
def ClientControl.thrown? : ClientControl → Option Thrown
  | .failed e => some e
  | _ => none

/-- Bytes are left to write only in `ssl_write_all`. -/
theorem ServerControl.rest?_eq_some_iff {control : ServerControl} {rest : Bytes} :
    control.rest? = some rest ↔ control = .writing rest := by
  cases control <;> simp [rest?]

/-- Only an exception is unwinding. -/
theorem ServerControl.thrown?_eq_some_iff {control : ServerControl} {e : Thrown} :
    control.thrown? = some e ↔ control = .failed e := by
  cases control <;> simp [thrown?]

/-- Bytes are left to write only in `ssl_write_all`. -/
theorem ClientControl.rest?_eq_some_iff {control : ClientControl} {rest : Bytes} :
    control.rest? = some rest ↔ control = .writing rest := by
  cases control <;> simp [rest?]

/-- Only an exception is unwinding. -/
theorem ClientControl.thrown?_eq_some_iff {control : ClientControl} {e : Thrown} :
    control.thrown? = some e ↔ control = .failed e := by
  cases control <;> simp [thrown?]

/-- The application loop of the server as a loop that writes. -/
def ServerLoop.writingLoop (cfg : ServerSetting) (input : ServerInput) :
    WritingLoop ServerLoop where
  writing s := s.control.rest?
  thrown s := s.control.thrown?
  io := ServerLoop.io
  round s result := s.step cfg { input with write := result }
  round_accepted := by
    intro s rest extra hs hrest
    have hcontrol := ServerControl.rest?_eq_some_iff.mp hs
    simp [step, hcontrol, onWrite, hrest, ServerControl.rest?]
  round_failed := by
    intro s rest failure hs hrest
    have hcontrol := ServerControl.rest?_eq_some_iff.mp hs
    simp [step, hcontrol, onWrite, hrest, ServerControl.thrown?]

/-- The exchange of the client as a loop that writes. -/
def Exchange.writingLoop (cfg : ClientSetting) (input : ClientInput) : WritingLoop Exchange where
  writing x := x.control.rest?
  thrown x := x.control.thrown?
  io := Exchange.io
  round x result := x.step cfg { input with write := result }
  round_accepted := by
    intro x rest extra hx hrest
    have hcontrol := ClientControl.rest?_eq_some_iff.mp hx
    simp [step, hcontrol, onWrite, hrest, ClientControl.rest?]
  round_failed := by
    intro x rest failure hx hrest
    have hcontrol := ClientControl.rest?_eq_some_iff.mp hx
    simp [step, hcontrol, onWrite, hrest, ClientControl.thrown?]

/-- When the server writes a buffer, what it sends and how it goes on are what `ssl_write_all`
does. -/
theorem ServerLoop.sends_buffer (cfg : ServerSetting) (input : ServerInput) (ssl : SslWriter)
    {data : Buffer} {s : ServerLoop} (hs : s.control = .writing data.bytes) :
    ∃ w t, w = sslWriteAll ssl data s.io.bytesSent ∧ t = (writingLoop cfg input).after s w ∧
      t.io.sent = s.io.sent ++ w.accepted ∧
      (t.control = .writing [] ∧ w.accepted = data.bytes ∨
        ∃ e, w.outcome = some (.error e) ∧ t.control = .failed e ∧
          w.accepted <+: data.bytes ∧ w.accepted ≠ data.bytes) := by
  obtain ⟨w, hw, hsent, hend⟩ := (writingLoop cfg input).sends_buffer ssl
    (ServerControl.rest?_eq_some_iff.mpr hs)
  simp only [writingLoop, ServerControl.rest?_eq_some_iff, ServerControl.thrown?_eq_some_iff]
    at hend
  exact ⟨w, _, hw, rfl, hsent, hend⟩

/-- When the client writes a buffer, what it sends and how it goes on are what `ssl_write_all`
does. -/
theorem Exchange.sends_buffer (cfg : ClientSetting) (input : ClientInput) (ssl : SslWriter)
    {data : Buffer} {x : Exchange} (hx : x.control = .writing data.bytes) :
    ∃ w y, w = sslWriteAll ssl data x.io.bytesSent ∧ y = (writingLoop cfg input).after x w ∧
      y.io.sent = x.io.sent ++ w.accepted ∧
      (y.control = .writing [] ∧ w.accepted = data.bytes ∨
        ∃ e, w.outcome = some (.error e) ∧ y.control = .failed e ∧
          w.accepted <+: data.bytes ∧ w.accepted ≠ data.bytes) := by
  obtain ⟨w, hw, hsent, hend⟩ := (writingLoop cfg input).sends_buffer ssl
    (ClientControl.rest?_eq_some_iff.mpr hx)
  simp only [writingLoop, ClientControl.rest?_eq_some_iff, ClientControl.thrown?_eq_some_iff]
    at hend
  exact ⟨w, _, hw, rfl, hsent, hend⟩

end PqtlsLab
