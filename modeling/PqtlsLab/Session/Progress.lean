import PqtlsLab.Session.Agreement
import Mathlib.Order.GameAdd
import Mathlib.Order.WithBot

/-!
# A session neither blocks nor goes on forever

Both sides block in `SSL_read` while they wait for the other. The client waits only for the
reply to a request that it has written completely, and the server waits only after it has
answered everything that it has received, so they never wait for each other. Every step of
a side that has not ended brings it closer to its end, whatever the other side does.
-/

namespace PqtlsLab

/-- A decoder that asks for more bytes although it has received the whole stream has taken all
frames of the stream. -/
theorem Framing.frames_eq_of_incomplete {frames payloads : List Bytes} {remainder : Bytes}
    {maxFrameSize : ℕ} (hframes : ∀ frame ∈ frames, Legal kAbsoluteMaxFrameSize frame)
    (hpayloads : ∀ payload ∈ payloads, Legal kAbsoluteMaxFrameSize payload)
    (hbytes : frames.flatMap frame ++ remainder = payloads.flatMap frame)
    (hstarved : front maxFrameSize remainder = .incomplete) : frames = payloads := by
  obtain ⟨rest, hrest, hremainder⟩ :=
    absolute_prefixCode.eq_append_of_flatMap hframes hpayloads hbytes
  cases rest with
  | nil => rw [hrest, List.append_nil]
  | cons payload rest =>
    rw [hremainder, List.flatMap_cons] at hstarved
    exact absurd hstarved (front_frame_ne_incomplete (hpayloads payload (by simp [hrest])) _ _)

namespace Exchange

/-- The decoder holds no complete frame. -/
def Starved (x : Exchange) : Prop :=
  Framing.front x.decoder.maxFrameSize x.decoder.remainder = .incomplete

/-- The client reads only when the decoder holds no complete frame. -/
theorem Move.starved {cfg : ClientSetting} {input : ClientInput} {x y : Exchange}
    (hmove : Move cfg input x y) (hy : y.control = .reading) : y.Starved := by
  cases hmove with
  | starve hcontrol hfront => exact hfront
  | _ => simp_all

/-- What remains to be done, unless the exchange has ended. -/
def clock (x : Exchange) : WithBot (ℕ ×ₗ ℕ ×ₗ ℕ ×ₗ ℕ) := if x.Halted then ⊥ else x.rank

/-- Every step of a running exchange leaves less to be done. -/
theorem clock_step_lt (cfg : ClientSetting) (input : ClientInput) {x : Exchange}
    (hx : ¬ x.Halted) : (x.step cfg input).clock < x.clock := by
  have hrank := (step_move cfg input hx).rank
  unfold clock
  rw [if_neg hx]
  split
  · exact WithBot.bot_lt_coe _
  · rename_i hrunning
    exact WithBot.coe_lt_coe.mpr (hrank.resolve_left hrunning)

end Exchange

namespace ServerLoop

/-- What remains to be done, unless the loop has been left. -/
def clock (cfg : ServerSetting) (s : ServerLoop) : WithBot (ℕ ×ₗ ℕ ×ₗ ℕ ×ₗ ℕ) :=
  if s.Halted then ⊥ else s.rank cfg

/-- Every step of a running loop leaves less to be done. -/
theorem clock_step_lt (cfg : ServerSetting) (input : ServerInput) {s : ServerLoop}
    (hs : ¬ s.Halted) : (s.step cfg input).clock cfg < s.clock cfg := by
  have hrank := (step_move cfg input hs).rank
  unfold clock
  rw [if_neg hs]
  split
  · exact WithBot.bot_lt_coe _
  · rename_i hrunning
    exact WithBot.coe_lt_coe.mpr (hrank.resolve_left hrunning)

/-- While the loop goes on, every frame has been answered. -/
theorem Inv.length_payloads {cfg : ServerSetting} {s : ServerLoop} (h : s.Inv cfg)
    (hopen : s.closing = false) (hs : ¬ s.Failing) : s.payloads.length = s.frames.length := by
  have hanswered : ∀ entry ∈ s.history, (entry.outcome.payload?).isSome := by
    intro entry hentry
    obtain ⟨message, payload, wire, houtcome⟩ := h.all_continue hopen hs entry hentry
    rw [houtcome]
    rfl
  rw [payloads, frames, List.length_map, List.length_filterMap_eq_countP, List.countP_eq_length]
  exact hanswered

end ServerLoop

/-- The call has not been disturbed: it delivers bytes or reports the end of the stream. -/
def ReadResult.undisturbed : ReadResult → Bool
  | .data _ | .failed .zeroReturn => true
  | .failed _ => false

/-- The call has not been disturbed: it takes some bytes. -/
def WriteResult.undisturbed : WriteResult → Bool
  | .accepted _ => true
  | .failed _ => false

namespace Session

/-- The side whose turn it is has not ended. -/
def Able (s : Session) : Turn → Prop
  | .client _ => ¬ s.client.Halted
  | .server _ => ¬ s.server.Halted

instance (s : Session) : DecidablePred s.Able
  | .client _ => inferInstanceAs (Decidable (¬ s.client.Halted))
  | .server _ => inferInstanceAs (Decidable (¬ s.server.Halted))

/-- The call that the side makes, if it makes one, is not disturbed. -/
def undisturbed (s : Session) : Turn → Bool
  | .client input =>
    match s.client.control with
    | .reading => input.read.undisturbed
    | .writing _ => input.write.undisturbed
    | _ => true
  | .server input =>
    match s.server.control with
    | .reading => input.read.undisturbed
    | .writing _ => input.write.undisturbed
    | _ => true

/-- One step of a side that has not ended, over a transport that does not fail. -/
def CleanStep (cfg : SessionSetting) (mayStop : Bool) (s t : Session) : Prop :=
  ∃ next : Turn, s.Permits mayStop next ∧
    s.Able next ∧ s.undisturbed next = true ∧ t = s.turn cfg next

/-- Both sides have ended. -/
def Ended (s : Session) : Prop := s.client.Halted ∧ s.server.Halted

variable {cfg : SessionSetting} {mayStop : Bool} {s : Session}

/-- The steps of sides that have not ended are well-founded: no schedule goes on forever. -/
theorem wellFounded_able (cfg : SessionSetting) :
    WellFounded fun t s : Session => ∃ next : Turn, s.Able next ∧ t = s.turn cfg next := by
  have hclocks := (wellFounded_lt (α := WithBot (ℕ ×ₗ ℕ ×ₗ ℕ ×ₗ ℕ))).prod_gameAdd
    (wellFounded_lt (α := WithBot (ℕ ×ₗ ℕ ×ₗ ℕ ×ₗ ℕ)))
  refine Subrelation.wf ?_ (InvImage.wf
    (fun s : Session => (s.client.clock, s.server.clock cfg.server)) hclocks)
  rintro t s ⟨next, hable, rfl⟩
  cases next with
  | client input => exact .fst (Exchange.clock_step_lt cfg.client input hable)
  | server input => exact .snd (ServerLoop.clock_step_lt cfg.server input hable)

/-- Where the sides wait, and how the server ends. -/
structure Waits (s : Session) : Prop where
  client : s.client.control = .reading → s.client.Starved
  server : s.server.Ends

/-- Nobody waits at the start. -/
theorem waits_start (cfg : SessionSetting) : (start cfg).Waits where
  client := by simp [start, Exchange.start]
  server := ServerLoop.ends_start cfg.server

/-- Both sides wait only where they should in every session that can be reached. -/
theorem waits_of_reachable (h : s.Reachable cfg mayStop) : s.Waits := by
  induction h with
  | refl => exact waits_start cfg
  | @tail s _ _ hstep ih =>
    obtain ⟨next, -, rfl⟩ := hstep
    cases next with
    | client input =>
      refine ⟨fun hreading => ?_, ih.server⟩
      simp only [turn] at hreading ⊢
      by_cases hhalted : s.client.Halted
      · rw [Exchange.step_of_halted cfg.client input hhalted] at hreading ⊢
        exact ih.client hreading
      · exact (Exchange.step_move cfg.client input hhalted).starved hreading
    | server input => exact ⟨ih.client, ih.server.step cfg.server input⟩

/-- A server that has received everything and reads has answered all requests. -/
theorem Inv.payloads_of_drained (h : s.Inv cfg mayStop) (hwaits : s.Waits)
    (hclient : ¬ s.client.Failing) (hwritten : s.client.unwritten = [])
    (hreading : s.server.control = .reading) (hall : s.server.io.received = s.client.io.sent) :
    s.server.payloads.length = s.client.requests.length := by
  have hnot : ¬ s.server.Failing := by simp [ServerLoop.Failing, hreading]
  have hsent := h.client.sent hclient
  rw [hwritten, List.append_nil] at hsent
  have hframes : s.server.frames = s.client.requests := by
    refine Framing.frames_eq_of_incomplete h.legal_taken h.legal_requests ?_ (h.reading hreading)
    rw [← h.server.stream, hall, hsent]
  rw [h.server.length_payloads (hwaits.server.reading_open hreading) hnot, hframes]

/-- A client that reads although it has received everything has more requests than there are
replies. -/
theorem Inv.length_payloads_lt (h : s.Inv cfg mayStop) (hwaits : s.Waits)
    (hreading : s.client.control = .reading)
    (hsent : s.server.io.sent = s.server.payloads.flatMap Framing.frame)
    (hall : s.client.io.received = s.server.io.sent) :
    s.server.payloads.length < s.client.requests.length := by
  have hnot : ¬ s.client.Failing := by simp [Exchange.Failing, hreading]
  have hlegal : ∀ frame ∈ s.client.frames, Framing.Legal Framing.kAbsoluteMaxFrameSize frame :=
    fun frame hframe => (h.client.legal_frames frame hframe).absolute
      cfg.client.maxFrameSize_bounds.2
  have hframes : s.client.frames = s.server.payloads := by
    refine Framing.frames_eq_of_incomplete hlegal h.server.legal_payloads ?_
      (hwaits.client hreading)
    rw [← h.client.stream, hall, hsent]
  have hrequests := h.client.requests_length hnot
  simp only [Exchange.unanswered, hreading] at hrequests
  rw [← hframes, h.client.frames_length hnot]
  omega

/-- The two sides do not wait for each other. -/
theorem Inv.not_both_waiting (h : s.Inv cfg mayStop) (hwaits : s.Waits)
    (hclient : s.client.control = .reading) (hserver : s.server.control = .reading)
    (htoServer : s.server.io.received = s.client.io.sent)
    (htoClient : s.client.io.received = s.server.io.sent) : False := by
  have hanswered := h.payloads_of_drained hwaits (by simp [Exchange.Failing, hclient])
    (by simp [Exchange.unwritten, hclient]) hserver htoServer
  have hsent : s.server.io.sent = s.server.payloads.flatMap Framing.frame := by
    simpa [ServerLoop.pending, hserver] using
      h.server.sent_all (by simp [ServerLoop.Failing, hserver])
  have hlt := h.length_payloads_lt hwaits hclient hsent htoClient
  omega

/-- If not everything has been received, one more byte can be delivered. -/
theorem exists_deliverable {sent received : Bytes} (h : received <+: sent)
    (hne : received ≠ sent) (ended : Prop) :
    ∃ read, Deliverable sent received ended read ∧ read.undisturbed = true := by
  obtain ⟨rest, rfl⟩ := h
  cases rest with
  | nil => simp at hne
  | cons b rest =>
    refine ⟨.data ⟨[b], le_refl 1, (by decide : 1 ≤ kReadChunk)⟩, ?_, rfl⟩
    exact ⟨rest, by simp⟩

/-- A client that has not ended can go on, unless it waits for a server that has not ended
and from which nothing is on its way. -/
theorem exists_client_step (h : s.Inv cfg mayStop) (hrunning : ¬ s.client.Halted)
    (hgo : s.client.control = .reading → s.client.io.received = s.server.io.sent →
      s.server.Halted) : ∃ t, s.CleanStep cfg mayStop t := by
  have hread : ∃ read, Deliverable s.server.io.sent s.client.io.received s.server.Halted read ∧
      (s.client.control = .reading → read.undisturbed = true) := by
    by_cases hreading : s.client.control = .reading
    · by_cases hall : s.client.io.received = s.server.io.sent
      · exact ⟨.failed .zeroReturn, ⟨hgo hreading hall, hall⟩, fun _ => rfl⟩
      · obtain ⟨read, hdeliver, hclean⟩ := exists_deliverable h.toClient hall s.server.Halted
        exact ⟨read, hdeliver, fun _ => hclean⟩
    · exact ⟨.failed .wantRead, trivial, fun hcontrol => absurd hcontrol hreading⟩
  obtain ⟨read, hdeliver, hclean⟩ := hread
  refine ⟨_, .client ⟨read, .accepted 0⟩, hdeliver, hrunning, ?_, rfl⟩
  cases hcontrol : s.client.control with
  | reading => simpa [undisturbed, hcontrol] using hclean hcontrol
  | _ => simp [undisturbed, hcontrol, WriteResult.undisturbed]

/-- A server that has not ended can go on, unless it waits for a client that has not ended
and from which nothing is on its way. -/
theorem exists_server_step (h : s.Inv cfg mayStop) (hrunning : ¬ s.server.Halted)
    (hgo : s.server.control = .reading → s.server.io.received = s.client.io.sent →
      s.client.Halted) : ∃ t, s.CleanStep cfg mayStop t := by
  have hread : ∃ read, Deliverable s.client.io.sent s.server.io.received s.client.Halted read ∧
      (s.server.control = .reading → read.undisturbed = true) := by
    by_cases hreading : s.server.control = .reading
    · by_cases hall : s.server.io.received = s.client.io.sent
      · exact ⟨.failed .zeroReturn, ⟨hgo hreading hall, hall⟩, fun _ => rfl⟩
      · obtain ⟨read, hdeliver, hclean⟩ := exists_deliverable h.toServer hall s.client.Halted
        exact ⟨read, hdeliver, fun _ => hclean⟩
    · exact ⟨.failed .wantRead, trivial, fun hcontrol => absurd hcontrol hreading⟩
  obtain ⟨read, hdeliver, hclean⟩ := hread
  refine ⟨_, .server ⟨false, read, .accepted 0⟩, ⟨hdeliver, nofun⟩, hrunning, ?_, rfl⟩
  cases hcontrol : s.server.control with
  | reading => simpa [undisturbed, hcontrol] using hclean hcontrol
  | _ => simp [undisturbed, hcontrol, WriteResult.undisturbed]

/-- As long as one of the sides has not ended, some step is possible over a transport that does
not fail. -/
theorem Inv.exists_cleanStep (h : s.Inv cfg mayStop) (hwaits : s.Waits) (hs : ¬ s.Ended) :
    ∃ t, s.CleanStep cfg mayStop t := by
  by_cases hclient : s.client.Halted
  · have hserver : ¬ s.server.Halted := fun hserver => hs ⟨hclient, hserver⟩
    exact exists_server_step h hserver fun _ _ => hclient
  by_cases hserver : s.server.Halted
  · exact exists_client_step h hclient fun _ _ => hserver
  -- one of the two can go on, since they do not wait for each other
  by_cases hwaiting : s.client.control = .reading ∧ s.client.io.received = s.server.io.sent
  · refine exists_server_step h hserver fun hreading hall => ?_
    exact (h.not_both_waiting hwaits hwaiting.1 hreading hall hwaiting.2).elim
  · exact exists_client_step h hclient fun hreading hall => absurd ⟨hreading, hall⟩ hwaiting

end Session

/-- Whatever the messages and the limits of the two sides, in every order of their steps and
however the bytes are cut: as long as one side has not ended, some step is possible without a
failure of the transport, so that the sides never wait for each other; and no session goes on
forever. -/
theorem sessions_end (cfg : SessionSetting) (mayStop : Bool) :
    (∀ s : Session, s.Reachable cfg mayStop → ¬ s.Ended → ∃ t, s.CleanStep cfg mayStop t) ∧
      ∀ run : ℕ → Session, ∃ n, ∀ next : Turn, (run n).Able next →
        run (n + 1) ≠ (run n).turn cfg next := by
  constructor
  · intro s hs hrunning
    exact (Session.inv_of_reachable hs).exists_cleanStep (Session.waits_of_reachable hs) hrunning
  · intro run
    by_contra hforever
    push Not at hforever
    exact (wellFounded_iff_isEmpty_descending_chain.mp (Session.wellFounded_able cfg)).false
      ⟨run, hforever⟩

namespace Session.Ping

/-- A short session in which both sides are about to read. -/
def waiting : Session := (Session.start setting).play setting (turns.take 5 ++ [clientTurn])

/-- That session can be reached. -/
theorem reachable_waiting : waiting.Reachable setting false :=
  reachable_play .refl (by decide +kernel)

/-- In that session the client has not ended. -/
theorem not_ended_waiting : ¬ waiting.Ended := by
  have hclient : ¬ waiting.client.Halted := by decide +kernel
  unfold Ended
  exact not_and_of_not_left _ hclient

end Session.Ping

open Session.Ping in
/-- Both sides of a short session are about to read, and yet the session can go on. -/
theorem sessions_end_ping : ∃ t, waiting.CleanStep setting false t :=
  (sessions_end setting false).1 waiting reachable_waiting not_ended_waiting

end PqtlsLab
