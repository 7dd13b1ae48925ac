import PqtlsLab.Foundation.Program
import PqtlsLab.Protocol.Filling
import PqtlsLab.Server.Loop

/-!
# Runs of the application loop

Against a fixed environment the loop is a sequential program. It always ends: a
frame is taken at most as often as the message limit allows, and between two frames
every read adds to a remainder that cannot outgrow one frame. The invariants below
hold in every state of every run and relate the bytes on the wire to the history.
-/

namespace PqtlsLab

/-- The environment of one run: the results of the calls in their order, and the values
of `stopping_` in the order in which the loop condition looks at it. -/
structure ServerEnv where
  setting : ServerSetting
  reads : ℕ → ReadResult
  writes : ℕ → WriteResult
  stopping : ℕ → Bool

/-- The environment of a client that sends some chunks and then closes the connection. The
server is not asked to stop, and every write succeeds. -/
def ServerEnv.delivering (setting : ServerSetting) (chunks : List Chunk) (extras : ℕ → ℕ) :
    ServerEnv where
  setting := setting
  reads := deliver chunks
  writes n := .accepted (extras n)
  stopping _ := false

/-- What the environment contributes to the next step. -/
def ServerEnv.input (env : ServerEnv) (s : ServerLoop) : ServerInput where
  stopping := env.stopping s.polls
  read := env.reads s.io.reads
  write := env.writes s.io.writes

namespace ServerLoop

/-- The bytes still to be written, counted with the call that finds none left. -/
def unwritten (s : ServerLoop) : ℕ :=
  match s.control with
  | .writing rest => rest.length + 1
  | _ => 0

/-- The progress of reading. -/
def filling (s : ServerLoop) : ℕ ×ₗ ℕ :=
  match s.control with
  | .reading => s.decoder.filling false
  | _ => s.decoder.filling true

/-- The quantity that decreases with every step: messages to come, then bytes to be
written, then the progress of reading. -/
def rank (cfg : ServerSetting) (s : ServerLoop) : ℕ ×ₗ ℕ ×ₗ ℕ ×ₗ ℕ :=
  toLex (cfg.maxMessages - s.handled, toLex (s.unwritten, s.filling))

/-- The rank decreases with the number of messages to come. -/
theorem rank_lt_of_handled {cfg : ServerSetting} {s t : ServerLoop}
    (hlimit : s.handled < cfg.maxMessages) (h : t.handled = s.handled + 1) :
    t.rank cfg < s.rank cfg := by
  rw [rank, rank, Prod.Lex.toLex_lt_toLex]
  left
  omega

/-- The rank decreases with the number of bytes to be written, and then with the progress
of reading. -/
theorem rank_lt_of_unwritten {cfg : ServerSetting} {s t : ServerLoop}
    (h : t.handled = s.handled)
    (hlt : t.unwritten < s.unwritten ∨ t.unwritten = s.unwritten ∧ t.filling < s.filling) :
    t.rank cfg < s.rank cfg := by
  rw [rank, rank, Prod.Lex.toLex_lt_toLex]
  right
  refine ⟨by rw [h], ?_⟩
  rw [Prod.Lex.toLex_lt_toLex]
  exact hlt

/-- Every move ends the loop or decreases the rank. -/
theorem Move.rank {cfg : ServerSetting} {input : ServerInput} {s t : ServerLoop}
    (h : Move cfg input s t) : t.Halted ∨ t.rank cfg < s.rank cfg := by
  cases h with
  | leave => exact .inl trivial
  | illegal => exact .inl trivial
  | thrown => exact .inl trivial
  | illegalData => exact .inl trivial
  | endOfStream => exact .inl trivial
  | readFailed => exact .inl trivial
  | writeFailed => exact .inl trivial
  | reply decoder frame message payload wire closing hcontrol hopen hgo hlimit =>
    exact .inr (rank_lt_of_handled hlimit (by simp [handled, taken]))
  | close decoder frame hcontrol hopen hgo hlimit =>
    exact .inr (rank_lt_of_handled hlimit (by simp [handled, taken]))
  | starve hcontrol hopen hlimit hfront =>
    refine .inr (rank_lt_of_unwritten rfl (.inr ⟨by simp [unwritten, hcontrol], ?_⟩))
    simp only [filling, hcontrol]
    exact Framing.Decoder.filling_lt_of_incomplete hfront
  | data chunk decoder hcontrol hread hremainder hmax =>
    have hpos := chunk.length_pos
    refine .inr (rank_lt_of_unwritten rfl (.inr ⟨by simp [unwritten, hcontrol], ?_⟩))
    simp only [filling, hcontrol]
    apply Framing.Decoder.filling_lt_of_longer hmax
    rw [hremainder, List.length_append]
    omega
  | written hcontrol =>
    exact .inr (rank_lt_of_unwritten rfl (.inl (by simp [unwritten, hcontrol])))
  | accepted rest extra hcontrol hrest =>
    have hpos := acceptedBytes_pos hrest extra
    have hlen := List.length_pos_iff.mpr hrest
    refine .inr (rank_lt_of_unwritten rfl (.inl ?_))
    simp only [unwritten, hcontrol, List.length_drop]
    omega

end ServerLoop

/-- The loop as a program. -/
def ServerEnv.program (env : ServerEnv) : Program ServerLoop (ℕ ×ₗ ℕ ×ₗ ℕ ×ₗ ℕ) where
  step s := s.step env.setting (env.input s)
  Halted := ServerLoop.Halted
  decHalted := inferInstance
  step_of_halted := ServerLoop.step_of_halted env.setting _
  rank := ServerLoop.rank env.setting
  rank_step hs := (ServerLoop.step_move env.setting _ hs).rank

/-- The loop after a number of steps. -/
def ServerEnv.state (env : ServerEnv) (n : ℕ) : ServerLoop :=
  env.program.step^[n] (ServerLoop.start env.setting)

/-- The loop when it has been left. -/
def ServerEnv.final (env : ServerEnv) : ServerLoop :=
  env.program.final (ServerLoop.start env.setting)

/-- A halted state of the run is the final one. -/
theorem ServerEnv.final_eq_state (env : ServerEnv) {n : ℕ} (h : (env.state n).Halted) :
    env.final = env.state n :=
  env.program.final_eq_of_halted h

end PqtlsLab
