import PqtlsLab.Client.ExchangeInvariant
import PqtlsLab.Server.LoopInvariant
import Mathlib.Logic.Relation

/-!
# Client and server over two byte streams

The exchange of the client and the loop of the server take their steps in any order.
What one side has written is delivered to the other in order and in pieces of any size;
the end of a stream is only reported after everything has been delivered and the peer
has ended, and every call may fail at any time for another reason.
-/

namespace PqtlsLab

/-- The settings of the two sides, which are built with the same JSON library. -/
structure SessionSetting where
  client : ClientSetting
  server : ServerSetting
  sameLibrary : server.ctx.lib = client.lib

/-- The two sides of a connection. The bytes in flight are those that one side has sent and
the other has not received. -/
structure Session where
  client : Exchange
  server : ServerLoop

/-- One step of one of the sides, with what the environment contributes to it. -/
inductive Turn where
  | client (input : ClientInput)
  | server (input : ServerInput)

/-- What a read may return, where `sent` are the bytes that the peer has written and
`received` those that have been read. -/
def Deliverable (sent received : Bytes) (ended : Prop) : ReadResult → Prop
  | .data chunk => received ++ chunk.bytes <+: sent
  | .failed .zeroReturn => ended ∧ received = sent
  | .failed _ => True

instance (sent received : Bytes) (ended : Prop) [Decidable ended] :
    DecidablePred (Deliverable sent received ended)
  | .data chunk => inferInstanceAs (Decidable (received ++ chunk.bytes <+: sent))
  | .failed .zeroReturn => inferInstanceAs (Decidable (ended ∧ received = sent))
  | .failed .wantRead => .isTrue trivial
  | .failed .wantWrite => .isTrue trivial
  | .failed .syscallAgain => .isTrue trivial
  | .failed .syscallOther => .isTrue trivial
  | .failed .ssl => .isTrue trivial

/-- Of the two streams, a step of the client extends the one it writes, and it advances on
the other by the chunk it reads. -/
theorem Exchange.step_io (cfg : ClientSetting) (input : ClientInput) (x : Exchange) :
    x.io.sent <+: (x.step cfg input).io.sent ∧
      ((x.step cfg input).io.received = x.io.received ∨ ∃ chunk, input.read = .data chunk ∧
        (x.step cfg input).io.received = x.io.received ++ chunk.bytes) := by
  by_cases hx : x.Halted
  · rw [step_of_halted cfg input hx]
    exact ⟨List.prefix_refl _, .inl rfl⟩
  · have hmove := step_move cfg input hx
    generalize x.step cfg input = y at hmove ⊢
    cases hmove with
    | accepted => exact ⟨List.prefix_append _ _, .inl rfl⟩
    | data chunk decoder hcontrol hread =>
      exact ⟨List.prefix_refl _, .inr ⟨chunk, hread, rfl⟩⟩
    | illegalData chunk decoder e hcontrol hread =>
      exact ⟨List.prefix_refl _, .inr ⟨chunk, hread, rfl⟩⟩
    | _ => exact ⟨List.prefix_refl _, .inl rfl⟩

namespace ServerLoop

/-- Of the two streams, a step of the server extends the one it writes, and it advances on
the other by the chunk it reads. -/
theorem step_io (cfg : ServerSetting) (input : ServerInput) (s : ServerLoop) :
    s.io.sent <+: (s.step cfg input).io.sent ∧
      ((s.step cfg input).io.received = s.io.received ∨ ∃ chunk, input.read = .data chunk ∧
        (s.step cfg input).io.received = s.io.received ++ chunk.bytes) := by
  by_cases hs : s.Halted
  · rw [step_of_halted cfg input hs]
    exact ⟨List.prefix_refl _, .inl rfl⟩
  · have hmove := step_move cfg input hs
    generalize s.step cfg input = t at hmove ⊢
    cases hmove with
    | accepted => exact ⟨List.prefix_append _ _, .inl rfl⟩
    | data chunk decoder hcontrol hread =>
      exact ⟨List.prefix_refl _, .inr ⟨chunk, hread, rfl⟩⟩
    | illegalData chunk decoder e hcontrol hread =>
      exact ⟨List.prefix_refl _, .inr ⟨chunk, hread, rfl⟩⟩
    | _ => exact ⟨List.prefix_refl _, .inl rfl⟩

/-- The decoder holds no complete frame. -/
def Starved (s : ServerLoop) : Prop :=
  Framing.front s.decoder.maxFrameSize s.decoder.remainder = .incomplete

/-- The loop reads only when the decoder holds no complete frame. -/
theorem Move.starved {cfg : ServerSetting} {input : ServerInput} {s t : ServerLoop}
    (hmove : Move cfg input s t) (ht : t.control = .reading) : t.Starved := by
  cases hmove with
  | starve hcontrol hopen hlimit hfront => exact hfront
  | _ => simp_all

/-- The ways out of the loop: by its condition, or at the end of the stream. -/
theorem Move.finished {cfg : ServerSetting} {input : ServerInput} {s t : ServerLoop}
    (hmove : Move cfg input s t) (ht : t.control = .finished) :
    (t.closing = true ∨ input.stopping = true ∨ cfg.maxMessages ≤ t.handled) ∨
      s.control = .reading ∧ input.read = .failed .zeroReturn ∧
        t = { s with control := .finished } := by
  cases hmove with
  | leave hcontrol hexit => exact .inl hexit
  | endOfStream hcontrol hread => exact .inr ⟨hcontrol, hread, rfl⟩
  | _ => simp_all

end ServerLoop

namespace Session

/-- Both sides before their first steps. -/
def start (cfg : SessionSetting) : Session where
  client := Exchange.start cfg.client
  server := ServerLoop.start cfg.server

/-- The session after a turn. -/
def turn (cfg : SessionSetting) (s : Session) : Turn → Session
  | .client input => { s with client := s.client.step cfg.client input }
  | .server input => { s with server := s.server.step cfg.server input }

/-- The environment may contribute this to a turn: the streams deliver what has been sent,
and the server is asked to stop only if it may be. -/
def Permits (mayStop : Bool) (s : Session) : Turn → Prop
  | .client input => Deliverable s.server.io.sent s.client.io.received s.server.Halted input.read
  | .server input =>
    Deliverable s.client.io.sent s.server.io.received s.client.Halted input.read ∧
      (input.stopping = true → mayStop = true)

instance (mayStop : Bool) (s : Session) : DecidablePred (s.Permits mayStop)
  | .client input => inferInstanceAs (Decidable
      (Deliverable s.server.io.sent s.client.io.received s.server.Halted input.read))
  | .server input => inferInstanceAs (Decidable
      (Deliverable s.client.io.sent s.server.io.received s.client.Halted input.read ∧
        (input.stopping = true → mayStop = true)))

/-- One step of the session. -/
def Step (cfg : SessionSetting) (mayStop : Bool) (s t : Session) : Prop :=
  ∃ next : Turn, s.Permits mayStop next ∧ t = s.turn cfg next

/-- The sessions that can be reached, in any order of turns. -/
def Reachable (cfg : SessionSetting) (mayStop : Bool) (s : Session) : Prop :=
  Relation.ReflTransGen (Step cfg mayStop) (start cfg) s

/-- The session after a list of turns. -/
def play (cfg : SessionSetting) (s : Session) (turns : List Turn) : Session :=
  turns.foldl (turn cfg) s

/-- Every turn of the list is permitted when it is taken. -/
def PermitsAll (cfg : SessionSetting) (mayStop : Bool) : Session → List Turn → Prop
  | _, [] => True
  | s, next :: turns => s.Permits mayStop next ∧ PermitsAll cfg mayStop (s.turn cfg next) turns

instance decidablePermitsAll (cfg : SessionSetting) (mayStop : Bool) :
    ∀ s turns, Decidable (PermitsAll cfg mayStop s turns)
  | _, [] => .isTrue trivial
  | s, next :: turns =>
    have := decidablePermitsAll cfg mayStop (s.turn cfg next) turns
    inferInstanceAs (Decidable (s.Permits mayStop next ∧
      PermitsAll cfg mayStop (s.turn cfg next) turns))

/-- A list of permitted turns leads to a session that can be reached. -/
theorem reachable_play {cfg : SessionSetting} {mayStop : Bool} {s : Session} {turns : List Turn}
    (hs : s.Reachable cfg mayStop) (hturns : PermitsAll cfg mayStop s turns) :
    (s.play cfg turns).Reachable cfg mayStop := by
  induction turns generalizing s with
  | nil => exact hs
  | cons next turns ih => exact ih (hs.tail ⟨next, hturns.1, rfl⟩) hturns.2

/-- What holds in every session that can be reached. -/
structure Inv (cfg : SessionSetting) (mayStop : Bool) (s : Session) : Prop where
  client : s.client.Inv cfg.client
  server : s.server.Inv cfg.server
  toServer : s.server.io.received <+: s.client.io.sent
  toClient : s.client.io.received <+: s.server.io.sent
  reading : s.server.control = .reading → s.server.Starved
  ended : s.server.control = .finished → s.server.closing = true ∨ mayStop = true ∨
    cfg.server.maxMessages ≤ s.server.handled ∨
    (s.client.Halted ∧ s.server.io.received = s.client.io.sent ∧ s.server.Starved)

/-- The invariant holds at the start. -/
theorem inv_start (cfg : SessionSetting) (mayStop : Bool) : (start cfg).Inv cfg mayStop where
  client := Exchange.inv_start cfg.client
  server := ServerLoop.inv_start cfg.server
  toServer := List.prefix_refl _
  toClient := List.prefix_refl _
  reading := by simp [start, ServerLoop.start]
  ended := by simp [start, ServerLoop.start]

/-- What is delivered has been sent. -/
theorem prefix_of_deliverable {sent received after : Bytes} {ended : Prop} {read : ReadResult}
    (h : Deliverable sent received ended read) (hold : received <+: sent)
    (hafter : after = received ∨ ∃ chunk, read = .data chunk ∧ after = received ++ chunk.bytes) :
    after <+: sent := by
  rcases hafter with rfl | ⟨chunk, rfl, rfl⟩
  · exact hold
  · exact h

/-- A turn of the client keeps the invariant. -/
theorem Inv.client_turn {cfg : SessionSetting} {mayStop : Bool} {s : Session}
    (h : s.Inv cfg mayStop) {input : ClientInput} (hpermits : s.Permits mayStop (.client input)) :
    (s.turn cfg (.client input)).Inv cfg mayStop := by
  obtain ⟨hsent, hreceived⟩ := Exchange.step_io cfg.client input s.client
  refine ⟨h.client.step input, h.server, h.toServer.trans hsent,
    prefix_of_deliverable hpermits h.toClient hreceived, h.reading, ?_⟩
  intro hfinished
  rcases h.ended hfinished with hclosing | hstop | hlimit | ⟨hhalted, hall, hstarved⟩
  · exact .inl hclosing
  · exact .inr (.inl hstop)
  · exact .inr (.inr (.inl hlimit))
  · refine .inr (.inr (.inr ?_))
    simp only [turn, Exchange.step_of_halted cfg.client input hhalted]
    exact ⟨hhalted, hall, hstarved⟩

/-- A turn of the server keeps the invariant. -/
theorem Inv.server_turn {cfg : SessionSetting} {mayStop : Bool} {s : Session}
    (h : s.Inv cfg mayStop) {input : ServerInput} (hpermits : s.Permits mayStop (.server input)) :
    (s.turn cfg (.server input)).Inv cfg mayStop := by
  obtain ⟨hdeliver, hstop⟩ := hpermits
  obtain ⟨hsent, hreceived⟩ := ServerLoop.step_io cfg.server input s.server
  by_cases hs : s.server.Halted
  · simp only [turn, ServerLoop.step_of_halted cfg.server input hs]
    exact h
  · have hmove := ServerLoop.step_move cfg.server input hs
    refine ⟨h.client, h.server.step input, prefix_of_deliverable hdeliver h.toServer hreceived,
      h.toClient.trans hsent, hmove.starved, fun hfinished => ?_⟩
    rcases hmove.finished hfinished with (hclosing | hstopping | hlimit) | ⟨hreading, hread, hsame⟩
    · exact .inl hclosing
    · exact .inr (.inl (hstop hstopping))
    · exact .inr (.inr (.inl hlimit))
    · have hstarved := h.reading hreading
      rw [hread] at hdeliver
      refine .inr (.inr (.inr ?_))
      simp only [turn, hsame]
      exact ⟨hdeliver.1, hdeliver.2, hstarved⟩

/-- The invariant holds in every session that can be reached. -/
theorem inv_of_reachable {cfg : SessionSetting} {mayStop : Bool} {s : Session}
    (h : s.Reachable cfg mayStop) : s.Inv cfg mayStop := by
  induction h with
  | refl => exact inv_start cfg mayStop
  | tail _ hstep ih =>
    obtain ⟨next, hpermits, rfl⟩ := hstep
    cases next with
    | client input => exact ih.client_turn hpermits
    | server input => exact ih.server_turn hpermits

end Session

end PqtlsLab
