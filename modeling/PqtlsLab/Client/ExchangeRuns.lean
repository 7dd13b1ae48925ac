import PqtlsLab.Client.Exchange
import PqtlsLab.Foundation.Program
import PqtlsLab.Protocol.Filling

/-!
# Runs of the client's exchange

Against a fixed environment the exchange is a sequential program that always ends.
In every state the bytes sent are the frames of the requests, as far as they have
been written, and the bytes received are the response frames taken so far followed by
the unread remainder.
-/

namespace PqtlsLab

/-- The environment of one run: the results of the calls in their order. -/
structure ClientEnv where
  setting : ClientSetting
  reads : ℕ → ReadResult
  writes : ℕ → WriteResult

/-- What the environment contributes to the next step. -/
def ClientEnv.input (env : ClientEnv) (x : Exchange) : ClientInput where
  read := env.reads x.io.reads
  write := env.writes x.io.writes

namespace Exchange

/-- The stages of the exchange of one message, in reverse order. -/
def stage (x : Exchange) : ℕ :=
  match x.control with
  | .head => if x.pending = [] then 0 else 3
  | .writing _ => 2
  | .awaiting => 1
  | .reading => 1
  | _ => 0

/-- The progress within a stage. -/
def progress (x : Exchange) : ℕ ×ₗ ℕ :=
  match x.control with
  | .writing rest => toLex (rest.length, 0)
  | .reading => x.decoder.filling false
  | _ => x.decoder.filling true

/-- The quantity that decreases with every step: messages to come, then stages, then the
progress within a stage. -/
def rank (x : Exchange) : ℕ ×ₗ ℕ ×ₗ ℕ ×ₗ ℕ :=
  toLex (x.pending.length, toLex (x.stage, x.progress))

/-- The rank decreases with the stage. -/
theorem rank_lt_of_stage {x y : Exchange} (h : y.pending = x.pending)
    (hlt : y.stage < x.stage ∨ y.stage = x.stage ∧ y.progress < x.progress) :
    y.rank < x.rank := by
  rw [rank, rank, Prod.Lex.toLex_lt_toLex]
  right
  refine ⟨by rw [h], ?_⟩
  rw [Prod.Lex.toLex_lt_toLex]
  exact hlt

/-- A complete exchange decreases the rank. -/
theorem rank_lt_of_tail {x y : Exchange} (h : y.pending = x.pending.tail)
    (hx : x.stage = 1) (hy : y.control = .head) : y.rank < x.rank := by
  rw [rank, rank, Prod.Lex.toLex_lt_toLex]
  cases hpending : x.pending with
  | nil =>
    right
    have hnil : y.pending = [] := by rw [h, hpending, List.tail_nil]
    refine ⟨by rw [hnil], ?_⟩
    rw [Prod.Lex.toLex_lt_toLex]
    left
    have hzero : y.stage = 0 := by simp [stage, hy, hnil]
    simp only [hx, hzero]
    decide
  | cons message rest =>
    left
    rw [h, hpending]
    simp

/-- Every move ends the exchange or decreases the rank. -/
theorem Move.rank {cfg : ClientSetting} {input : ClientInput} {x y : Exchange}
    (h : Move cfg input x y) : y.Halted ∨ y.rank < x.rank := by
  cases h with
  | done => exact .inl trivial
  | unsendable => exact .inl trivial
  | sentClose => exact .inl trivial
  | writeFailed => exact .inl trivial
  | illegal => exact .inl trivial
  | reject => exact .inl trivial
  | illegalData => exact .inl trivial
  | endOfStream => exact .inl trivial
  | readFailed => exact .inl trivial
  | send message rest payload hcontrol hpending =>
    exact .inr (rank_lt_of_stage rfl (.inl (by simp [stage, hcontrol, hpending])))
  | sent hcontrol =>
    exact .inr (rank_lt_of_stage rfl (.inl (by simp [stage, hcontrol])))
  | accepted rest extra hcontrol hrest =>
    have hpos := acceptedBytes_pos hrest extra
    have hlen := List.length_pos_iff.mpr hrest
    refine .inr (rank_lt_of_stage rfl (.inr ⟨by simp [stage, hcontrol], ?_⟩))
    simp only [progress, hcontrol]
    rw [Prod.Lex.toLex_lt_toLex]
    left
    simp only [List.length_drop]
    omega
  | starve hcontrol hfront =>
    refine .inr (rank_lt_of_stage rfl (.inr ⟨by simp [stage, hcontrol], ?_⟩))
    simp only [progress, hcontrol]
    exact Framing.Decoder.filling_lt_of_incomplete hfront
  | data chunk decoder hcontrol hread hremainder hmax =>
    have hpos := chunk.length_pos
    refine .inr (rank_lt_of_stage rfl (.inr ⟨by simp [stage, hcontrol], ?_⟩))
    simp only [progress, hcontrol]
    apply Framing.Decoder.filling_lt_of_longer hmax
    rw [hremainder, List.length_append]
    omega
  | receive decoder text response hcontrol =>
    exact .inr (rank_lt_of_tail rfl (by simp [stage, hcontrol]) rfl)

end Exchange

/-- The exchange as a program. -/
def ClientEnv.program (env : ClientEnv) : Program Exchange (ℕ ×ₗ ℕ ×ₗ ℕ ×ₗ ℕ) where
  step x := x.step env.setting (env.input x)
  Halted := Exchange.Halted
  decHalted := inferInstance
  step_of_halted := Exchange.step_of_halted env.setting _
  rank := Exchange.rank
  rank_step hx := (Exchange.step_move env.setting _ hx).rank

/-- The exchange after a number of steps. -/
def ClientEnv.state (env : ClientEnv) (n : ℕ) : Exchange :=
  env.program.step^[n] (Exchange.start env.setting)

/-- The exchange when it has ended. -/
def ClientEnv.final (env : ClientEnv) : Exchange :=
  env.program.final (Exchange.start env.setting)

/-- A halted state of the run is the final one. -/
theorem ClientEnv.final_eq_state (env : ClientEnv) {n : ℕ} (h : (env.state n).Halted) :
    env.final = env.state n :=
  env.program.final_eq_of_halted h

end PqtlsLab
