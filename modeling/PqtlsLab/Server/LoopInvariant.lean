import PqtlsLab.Server.LoopRuns

/-!
# What holds in every state of the application loop

The bytes received are the frames taken so far followed by the unread remainder of
the decoder, and the bytes sent are the frames of the replies, as far as they have
been written. Every entry of the history is what the frame comes to, and only the
last one can be anything else than a reply after which the loop goes on.
-/

namespace PqtlsLab

/-- The frame has been answered and the loop goes on. -/
def FrameOutcome.Continues (o : FrameOutcome) : Prop :=
  ∃ message payload wire, o = .reply message payload wire false

/-- The frame ends the loop without an exception. -/
def FrameOutcome.Closes (o : FrameOutcome) : Prop :=
  o = .close ∨ ∃ message payload wire, o = .reply message payload wire true

namespace ServerLoop

/-- The bytes that `ssl_write_all` has not written yet. -/
def pending (s : ServerLoop) : Bytes :=
  match s.control with
  | .writing rest => rest
  | _ => []

/-- An exception is being unwound. -/
def Failing (s : ServerLoop) : Prop := ∃ e, s.control = .failed e

/-- The loop has been left by the exception of the decoder for an illegal header. -/
def DetectedIllegal (s : ServerLoop) : Prop :=
  ∃ e, s.control = .failed e ∧
    Framing.front s.decoder.maxFrameSize s.decoder.remainder = .illegal e

/-- The replies that are being written. -/
def inFlight (s : ServerLoop) : UInt32 :=
  match s.control with
  | .writing _ => 1
  | _ => 0

/-- What holds in every state. -/
structure Inv (cfg : ServerSetting) (s : ServerLoop) : Prop where
  maxFrameSize : s.decoder.maxFrameSize = cfg.ctx.maxFrameSize
  stream : s.io.received = s.frames.flatMap Framing.frame ++ s.decoder.remainder
  legal : ∀ frame ∈ s.frames, Framing.Legal cfg.ctx.maxFrameSize frame
  sent : s.io.sent ++ s.pending <+: s.payloads.flatMap Framing.frame
  sent_all : ¬ s.Failing → s.io.sent ++ s.pending = s.payloads.flatMap Framing.frame
  log : ∀ i h, s.history[i]? = some h →
    h.outcome = handleFrame cfg.ctx (cfg.labels i) h.frame
  front_continues : ∀ h ∈ s.history.dropLast, h.outcome.Continues
  all_continue : s.closing = false → ¬ s.Failing → ∀ h ∈ s.history, h.outcome.Continues
  last_closes : s.closing = true → ∃ h, s.history.getLast? = some h ∧ h.outcome.Closes
  count : ¬ s.Failing →
    s.protocolMessageCount + s.inFlight = UInt32.ofNat (s.handled + s.payloads.length)

/-- The invariant holds before the first iteration. -/
theorem inv_start (cfg : ServerSetting) : (start cfg).Inv cfg where
  maxFrameSize := rfl
  stream := rfl
  legal := by simp [start, frames]
  sent := by simp [start, pending, payloads]
  sent_all := by simp [start, pending, payloads]
  log := by simp [start]
  front_continues := by simp [start]
  all_continue := by simp [start]
  last_closes := by simp [start]
  count := by simp [start, handled, inFlight, payloads]

/-- A step that leaves history, decoder and traffic alone keeps the invariant. -/
theorem Inv.of_control {cfg : ServerSetting} {s t : ServerLoop} (h : s.Inv cfg)
    (hs : ¬ s.Failing) (hdecoder : t.decoder = s.decoder) (hclosing : t.closing = s.closing)
    (hio : t.io = s.io) (hhistory : t.history = s.history)
    (hpending : t.Failing ∨ t.pending = s.pending)
    (hcount : ¬ t.Failing →
      t.protocolMessageCount + t.inFlight = s.protocolMessageCount + s.inFlight) :
    t.Inv cfg where
  maxFrameSize := by rw [hdecoder, h.maxFrameSize]
  stream := by
    simp only [frames, hio, hhistory, hdecoder]
    exact h.stream
  legal := by
    simp only [frames, hhistory]
    exact h.legal
  sent := by
    have hsent := h.sent_all hs
    simp only [payloads, hhistory, hio]
    rcases hpending with hfail | hpending
    · obtain ⟨e, he⟩ := hfail
      have hnil : t.pending = [] := by simp [pending, he]
      rw [hnil, List.append_nil]
      exact ⟨s.pending, hsent⟩
    · rw [hpending]
      exact h.sent
  sent_all := by
    intro ht
    rcases hpending with hfail | hpending
    · exact absurd hfail ht
    · simp only [payloads, hhistory, hio, hpending]
      exact h.sent_all hs
  log := by
    rw [hhistory]
    exact h.log
  front_continues := by
    rw [hhistory]
    exact h.front_continues
  all_continue := by
    intro hopen _
    rw [hhistory]
    exact h.all_continue (hclosing ▸ hopen) hs
  last_closes := by
    intro hclosed
    rw [hhistory]
    exact h.last_closes (hclosing ▸ hclosed)
  count := by
    intro ht
    rw [hcount ht, handled, payloads, hhistory]
    exact h.count hs

/-- A step that reads keeps the invariant. -/
theorem Inv.of_read {cfg : ServerSetting} {s t : ServerLoop} (h : s.Inv cfg)
    (hs : s.control = .reading) (bytes : Bytes)
    (hremainder : t.decoder.remainder = s.decoder.remainder ++ bytes)
    (hmax : t.decoder.maxFrameSize = s.decoder.maxFrameSize) (hclosing : t.closing = s.closing)
    (hio : t.io = s.io.recordReceived bytes) (hhistory : t.history = s.history)
    (hcount : t.protocolMessageCount = s.protocolMessageCount)
    (ht : t.control = .head ∨ t.Failing) : t.Inv cfg := by
  have hnot : ¬ s.Failing := by simp [Failing, hs]
  have hpending : t.pending = [] := by
    rcases ht with ht | ⟨e, ht⟩ <;> simp [pending, ht]
  have hsent := h.sent_all hnot
  simp only [pending, hs, List.append_nil] at hsent
  refine ⟨?_, ?_, ?_, ?_, ?_, ?_, ?_, ?_, ?_, ?_⟩
  · rw [hmax, h.maxFrameSize]
  · simp only [frames, hio, hhistory, hremainder, Io.recordReceived_received]
    rw [h.stream, frames, List.append_assoc]
  · simp only [frames, hhistory]
    exact h.legal
  · simp only [payloads, hhistory, hio, hpending, Io.recordReceived_sent, List.append_nil]
    exact hsent ▸ List.prefix_refl _
  · intro _
    simp only [payloads, hhistory, hio, hpending, Io.recordReceived_sent, List.append_nil]
    exact hsent
  · rw [hhistory]
    exact h.log
  · rw [hhistory]
    exact h.front_continues
  · intro hopen _
    rw [hhistory]
    exact h.all_continue (hclosing ▸ hopen) hnot
  · intro hclosed
    rw [hhistory]
    exact h.last_closes (hclosing ▸ hclosed)
  · intro hgood
    have hhead : t.control = .head := ht.resolve_right hgood
    have hcounted := h.count hnot
    simp only [inFlight, hs] at hcounted
    simp only [inFlight, hhead, hcount, handled, payloads, hhistory]
    exact hcounted

/-- A step that takes a frame keeps the invariant, provided that what happens next is
what the outcome of the frame demands. -/
theorem Inv.of_taken {cfg : ServerSetting} {s t : ServerLoop} (h : s.Inv cfg)
    (hs : s.control = .head) (hopen : s.closing = false) {decoder : Framing.Decoder}
    {frame : Bytes} {outcome : FrameOutcome}
    (hfront : Framing.front s.decoder.maxFrameSize s.decoder.remainder =
      .complete frame decoder.remainder)
    (hmax : decoder.maxFrameSize = s.decoder.maxFrameSize)
    (houtcome : handleFrame cfg.ctx (cfg.labels s.handled) frame = outcome)
    (hdecoder : t.decoder = decoder) (hio : t.io = s.io)
    (hhistory : t.history = s.history ++ [⟨frame, outcome⟩])
    (hcount : t.protocolMessageCount = s.protocolMessageCount + 1)
    (hcontinues : t.closing = false → ¬ t.Failing → outcome.Continues)
    (hcloses : t.closing = true → outcome.Closes)
    (hpending : t.pending = outcome.payload?.toList.flatMap Framing.frame ∨ t.Failing ∧
      outcome.payload? = none)
    (hinFlight : ¬ t.Failing → t.inFlight = UInt32.ofNat outcome.payload?.toList.length) :
    t.Inv cfg := by
  have hnot : ¬ s.Failing := by simp [Failing, hs]
  have hsent := h.sent_all hnot
  simp only [pending, hs, List.append_nil] at hsent
  have hcontinue := h.all_continue hopen hnot
  have hbounds := cfg.ctx.maxFrameSize_bounds.2
  rw [h.maxFrameSize] at hfront
  obtain ⟨hlegal, hsplit⟩ := (Framing.front_eq_complete_iff hbounds).mp hfront
  have hpayloads : t.payloads = s.payloads ++ outcome.payload?.toList := by
    simp only [payloads, hhistory, List.filterMap_append]
    cases hp : outcome.payload? <;> simp [hp]
  have hall : t.io.sent ++ t.pending = t.payloads.flatMap Framing.frame := by
    rw [hpayloads, List.flatMap_append, ← hsent, hio]
    rcases hpending with hpending | ⟨⟨e, he⟩, hnone⟩
    · rw [hpending]
    · simp [pending, he, hnone]
  refine ⟨?_, ?_, ?_, hall ▸ List.prefix_refl _, fun _ => hall, ?_, ?_, ?_, ?_, ?_⟩
  · rw [hdecoder, hmax, h.maxFrameSize]
  · simp only [frames, hio, hhistory, hdecoder, List.map_append, List.flatMap_append]
    rw [h.stream, hsplit, frames]
    simp
  · intro f hf
    simp only [frames, hhistory, List.map_append, List.mem_append, List.map_cons, List.map_nil,
      List.mem_singleton] at hf
    rcases hf with hf | rfl
    · exact h.legal f hf
    · exact hlegal
  · intro i entry hentry
    rw [hhistory] at hentry
    rcases getElem?_concat_eq_some hentry with hentry | ⟨rfl, rfl⟩
    · exact h.log i entry hentry
    · exact houtcome.symm
  · rw [hhistory, List.dropLast_concat]
    exact hcontinue
  · intro hopen' hgood entry hentry
    rw [hhistory] at hentry
    rcases List.mem_append.mp hentry with hentry | hentry
    · exact hcontinue entry hentry
    · rw [List.mem_singleton] at hentry
      subst hentry
      exact hcontinues hopen' hgood
  · intro hclosed
    exact ⟨⟨frame, outcome⟩, by simp [hhistory], hcloses hclosed⟩
  · intro hgood
    have hcounted := h.count hnot
    simp only [inFlight, hs, UInt32.add_zero] at hcounted
    rw [hcount, hinFlight hgood, hcounted, hpayloads, handled, handled, hhistory]
    simp only [List.length_append, List.length_singleton, UInt32.ofNat_add]
    ac_rfl

/-- A write that is accepted keeps the invariant. -/
theorem Inv.of_write {cfg : ServerSetting} {s t : ServerLoop} (h : s.Inv cfg) {rest : Bytes}
    (hs : s.control = .writing rest) (n : ℕ) (ht : t.control = .writing (rest.drop n))
    (hio : t.io = s.io.recordSent (rest.take n)) (hdecoder : t.decoder = s.decoder)
    (hclosing : t.closing = s.closing) (hhistory : t.history = s.history)
    (hcount : t.protocolMessageCount = s.protocolMessageCount) : t.Inv cfg := by
  have hnot : ¬ s.Failing := by simp [Failing, hs]
  have hsame : t.io.sent ++ t.pending = s.io.sent ++ s.pending := by
    simp [pending, hs, ht, hio]
  refine ⟨?_, ?_, ?_, ?_, ?_, ?_, ?_, ?_, ?_, ?_⟩
  · rw [hdecoder, h.maxFrameSize]
  · simp only [frames, hio, hhistory, hdecoder, Io.recordSent_received]
    exact h.stream
  · simp only [frames, hhistory]
    exact h.legal
  · rw [hsame, payloads, hhistory]
    exact h.sent
  · intro _
    rw [hsame, payloads, hhistory]
    exact h.sent_all hnot
  · rw [hhistory]
    exact h.log
  · rw [hhistory]
    exact h.front_continues
  · intro hopen _
    rw [hhistory]
    exact h.all_continue (hclosing ▸ hopen) hnot
  · intro hclosed
    rw [hhistory]
    exact h.last_closes (hclosing ▸ hclosed)
  · intro _
    have hcounted := h.count hnot
    simp only [inFlight, hs] at hcounted
    simp only [inFlight, ht, hcount, handled, payloads, hhistory]
    exact hcounted

/-- Every move keeps the invariant. -/
theorem Move.inv {cfg : ServerSetting} {input : ServerInput} {s t : ServerLoop}
    (hmove : Move cfg input s t) (h : s.Inv cfg) : t.Inv cfg := by
  cases hmove with
  | leave hcontrol =>
    exact h.of_control (by simp [Failing, hcontrol]) rfl rfl rfl rfl
      (.inr (by simp [pending, hcontrol])) (by simp [inFlight, hcontrol])
  | illegal e hcontrol =>
    exact h.of_control (by simp [Failing, hcontrol]) rfl rfl rfl rfl
      (.inl ⟨e, rfl⟩) (by simp [Failing])
  | starve hcontrol =>
    exact h.of_control (by simp [Failing, hcontrol]) rfl rfl rfl rfl
      (.inr (by simp [pending, hcontrol])) (by simp [inFlight, hcontrol])
  | reply decoder frame message payload wire closing hcontrol hopen hgo hlimit hfront hmax
      houtcome =>
    have hwire := (handleFrame_eq_reply houtcome).2.2.1
    refine h.of_taken hcontrol hopen hfront hmax houtcome rfl rfl (by simp [taken, houtcome]) rfl
      ?_ ?_ (.inl ?_) ?_
    · rintro rfl -
      exact ⟨message, payload, wire, rfl⟩
    · rintro rfl
      exact .inr ⟨message, payload, wire, rfl⟩
    · simp [pending, FrameOutcome.payload?, hwire]
    · simp [inFlight, FrameOutcome.payload?]
  | close decoder frame hcontrol hopen hgo hlimit hfront hmax houtcome =>
    refine h.of_taken hcontrol hopen hfront hmax houtcome rfl rfl (by simp [taken, houtcome]) rfl
      (by simp) (fun _ => .inl rfl) (.inl ?_) ?_
    · simp [pending, FrameOutcome.payload?]
    · simp [inFlight, FrameOutcome.payload?]
  | thrown decoder frame e hcontrol hopen hgo hlimit hfront hmax houtcome =>
    have hfailing : Failing { s.taken cfg decoder frame with control := .failed e } := ⟨e, rfl⟩
    refine h.of_taken hcontrol hopen hfront hmax houtcome rfl rfl (by simp [taken, houtcome]) rfl
      (fun _ hgood => absurd hfailing hgood) ?_ (.inr ⟨hfailing, rfl⟩)
      (fun hgood => absurd hfailing hgood)
    intro hclosed
    simp [taken, hopen] at hclosed
  | data chunk decoder hcontrol hread hremainder hmax =>
    exact h.of_read hcontrol chunk.bytes hremainder hmax rfl rfl rfl rfl (.inl rfl)
  | illegalData chunk decoder e hcontrol hread hremainder hmax =>
    exact h.of_read hcontrol chunk.bytes hremainder hmax rfl rfl rfl rfl (.inr ⟨e, rfl⟩)
  | endOfStream hcontrol =>
    exact h.of_control (by simp [Failing, hcontrol]) rfl rfl rfl rfl
      (.inr (by simp [pending, hcontrol])) (by simp [inFlight, hcontrol])
  | readFailed failure hcontrol =>
    exact h.of_control (by simp [Failing, hcontrol]) rfl rfl rfl rfl
      (.inl ⟨_, rfl⟩) (by simp [Failing])
  | written hcontrol =>
    exact h.of_control (by simp [Failing, hcontrol]) rfl rfl rfl rfl
      (.inr (by simp [pending, hcontrol])) (by simp [inFlight, hcontrol])
  | accepted rest extra hcontrol =>
    exact h.of_write hcontrol (acceptedBytes extra rest) rfl rfl rfl rfl rfl rfl
  | writeFailed rest failure hcontrol =>
    exact h.of_control (by simp [Failing, hcontrol]) rfl rfl rfl rfl
      (.inl ⟨_, rfl⟩) (by simp [Failing])

/-- The invariant survives every step. -/
theorem Inv.step {cfg : ServerSetting} {s : ServerLoop} (h : s.Inv cfg) (input : ServerInput) :
    (s.step cfg input).Inv cfg := by
  by_cases hs : s.Halted
  · rwa [step_of_halted cfg input hs]
  · exact (step_move cfg input hs).inv h

/-- How the end of the loop comes about: a frame that ends the loop leaves a mark; while
the loop is about to end, only a write can fail; and an exception from answering a frame
is the one that is being unwound. -/
structure Ends (s : ServerLoop) : Prop where
  reading_open : s.control = .reading → s.closing = false
  closes_closing : ∀ h ∈ s.history, h.outcome.Closes → s.closing = true
  closing_failed : s.closing = true → ∀ e, s.control = .failed e →
    ∃ failure, e = throwSslError (ascii "SSL_write") failure
  thrown_failed : ∀ h ∈ s.history, ∀ e, h.outcome = .thrown e → s.control = .failed e

/-- Nothing has ended before the first iteration. -/
theorem ends_start (cfg : ServerSetting) : (start cfg).Ends where
  reading_open := by simp [start]
  closes_closing := by simp [start]
  closing_failed := by simp [start]
  thrown_failed := by simp [start]

/-- A step that takes no frame keeps track of how the loop ends, if it starts from a
running loop. -/
theorem Ends.of_control {s t : ServerLoop} (h : s.Ends) (hs : ¬ s.Failing)
    (hhistory : t.history = s.history) (hclosing : t.closing = s.closing)
    (hreading : t.control = .reading → s.closing = false)
    (hfailed : s.closing = true → ∀ e, t.control = .failed e →
      ∃ failure, e = throwSslError (ascii "SSL_write") failure) : t.Ends where
  reading_open hcontrol := hclosing.trans (hreading hcontrol)
  closes_closing := by
    rw [hhistory, hclosing]
    exact h.closes_closing
  closing_failed hclosed := hfailed (hclosing.symm.trans hclosed)
  thrown_failed := by
    intro entry hentry e he
    rw [hhistory] at hentry
    exact absurd ⟨e, h.thrown_failed entry hentry e he⟩ hs

/-- A step that takes a frame keeps track of how the loop ends, if it does what the
outcome of the frame demands. -/
theorem Ends.of_taken {s t : ServerLoop} (h : s.Ends) (hs : ¬ s.Failing)
    (hopen : s.closing = false) {entry : Handled} (hhistory : t.history = s.history ++ [entry])
    (hreading : t.control ≠ .reading) (hcloses : entry.outcome.Closes → t.closing = true)
    (hfailed : ∀ e, t.control = .failed e → t.closing = false)
    (hthrown : ∀ e, entry.outcome = .thrown e → t.control = .failed e) : t.Ends where
  reading_open hcontrol := absurd hcontrol hreading
  closes_closing := by
    intro other hother hclosed
    rw [hhistory] at hother
    rcases List.mem_append.mp hother with hother | hother
    · have hmark := h.closes_closing other hother hclosed
      rw [hopen] at hmark
      cases hmark
    · rw [List.mem_singleton] at hother
      exact hcloses (hother ▸ hclosed)
  closing_failed := by
    intro hclosed e he
    rw [hfailed e he] at hclosed
    cases hclosed
  thrown_failed := by
    intro other hother e he
    rw [hhistory] at hother
    rcases List.mem_append.mp hother with hother | hother
    · exact absurd ⟨e, h.thrown_failed other hother e he⟩ hs
    · rw [List.mem_singleton] at hother
      exact hthrown e (hother ▸ he)

/-- Every move keeps track of how the loop ends. -/
theorem Move.ends {cfg : ServerSetting} {input : ServerInput} {s t : ServerLoop}
    (hmove : Move cfg input s t) (h : s.Ends) : t.Ends := by
  cases hmove with
  | leave hcontrol =>
    exact h.of_control (by simp [Failing, hcontrol]) rfl rfl (by simp) (by simp)
  | illegal e hcontrol hopen =>
    exact h.of_control (by simp [Failing, hcontrol]) rfl rfl (by simp) (by simp [hopen])
  | starve hcontrol hopen =>
    exact h.of_control (by simp [Failing, hcontrol]) rfl rfl (fun _ => hopen) (by simp)
  | reply decoder frame message payload wire closing hcontrol hopen hgo hlimit hfront hmax
      houtcome =>
    refine h.of_taken (by simp [Failing, hcontrol]) hopen rfl (by simp) ?_ (by simp)
      (by simp [houtcome])
    simp [houtcome, FrameOutcome.Closes]
  | close decoder frame hcontrol hopen hgo hlimit hfront hmax houtcome =>
    exact h.of_taken (by simp [Failing, hcontrol]) hopen rfl (by simp) (by simp) (by simp)
      (by simp [houtcome])
  | thrown decoder frame e hcontrol hopen hgo hlimit hfront hmax houtcome =>
    exact h.of_taken (by simp [Failing, hcontrol]) hopen rfl (by simp)
      (by simp [houtcome, FrameOutcome.Closes]) (by simp [taken, hopen]) (by simp [houtcome])
  | data chunk decoder hcontrol =>
    exact h.of_control (by simp [Failing, hcontrol]) rfl rfl (by simp) (by simp)
  | illegalData chunk decoder e hcontrol =>
    have hopen := h.reading_open hcontrol
    exact h.of_control (by simp [Failing, hcontrol]) rfl rfl (by simp) (by simp [hopen])
  | endOfStream hcontrol =>
    exact h.of_control (by simp [Failing, hcontrol]) rfl rfl (by simp) (by simp)
  | readFailed failure hcontrol =>
    have hopen := h.reading_open hcontrol
    exact h.of_control (by simp [Failing, hcontrol]) rfl rfl (by simp) (by simp [hopen])
  | written hcontrol =>
    exact h.of_control (by simp [Failing, hcontrol]) rfl rfl (by simp) (by simp)
  | accepted rest extra hcontrol =>
    exact h.of_control (by simp [Failing, hcontrol]) rfl rfl (by simp) (by simp)
  | writeFailed rest failure hcontrol =>
    refine h.of_control (by simp [Failing, hcontrol]) rfl rfl (by simp) ?_
    rintro - e ⟨rfl⟩
    exact ⟨failure, rfl⟩

/-- Every step keeps track of how the loop ends. -/
theorem Ends.step {s : ServerLoop} (h : s.Ends) (cfg : ServerSetting) (input : ServerInput) :
    (s.step cfg input).Ends := by
  by_cases hs : s.Halted
  · rwa [step_of_halted cfg input hs]
  · exact (step_move cfg input hs).ends h

/-- What a step does to the loop when it takes a frame. -/
theorem step_taken {cfg : ServerSetting} {input : ServerInput} {s : ServerLoop} {frame : Bytes}
    (h : (s.step cfg input).frames = s.frames ++ [frame]) :
    (s.step cfg input).history = s.history ++
        [⟨frame, handleFrame cfg.ctx (cfg.labels s.handled) frame⟩] ∧
      match handleFrame cfg.ctx (cfg.labels s.handled) frame with
      | .reply _ _ wire closing =>
        (s.step cfg input).control = .writing wire ∧ (s.step cfg input).closing = closing
      | .close => (s.step cfg input).control = .head ∧ (s.step cfg input).closing = true
      | .thrown e => (s.step cfg input).control = .failed e := by
  have hsame {t : ServerLoop} (ht : t.frames = s.frames ++ [frame])
      (hhistory : t.history = s.history) : False := by
    have hlength := congrArg List.length ht
    simp [frames, hhistory] at hlength
  by_cases hs : s.Halted
  · rw [step_of_halted cfg input hs] at h
    exact (hsame h rfl).elim
  · have hmove := step_move cfg input hs
    generalize s.step cfg input = t at hmove h ⊢
    cases hmove with
    | reply decoder frame' message payload wire closing hcontrol hopen hgo hlimit hfront hmax
        houtcome =>
      obtain rfl : frame' = frame := by simpa [frames, taken] using h
      simp [taken, houtcome]
    | close decoder frame' hcontrol hopen hgo hlimit hfront hmax houtcome =>
      obtain rfl : frame' = frame := by simpa [frames, taken] using h
      simp [taken, houtcome]
    | thrown decoder frame' e hcontrol hopen hgo hlimit hfront hmax houtcome =>
      obtain rfl : frame' = frame := by simpa [frames, taken] using h
      simp [taken, houtcome]
    | _ => exact (hsame h rfl).elim

/-- A loop that is about to end takes no further frame. -/
theorem step_history_of_closing (cfg : ServerSetting) (input : ServerInput) {s : ServerLoop}
    (hs : s.closing = true) :
    (s.step cfg input).history = s.history ∧ (s.step cfg input).closing = true := by
  by_cases hhalt : s.Halted
  · rw [step_of_halted cfg input hhalt]
    exact ⟨rfl, hs⟩
  · have hmove := step_move cfg input hhalt
    generalize s.step cfg input = t at hmove ⊢
    cases hmove with
    | reply _ _ _ _ _ _ _ hopen => simp [hs] at hopen
    | close _ _ _ hopen => simp [hs] at hopen
    | thrown _ _ _ _ hopen => simp [hs] at hopen
    | _ => exact ⟨rfl, hs⟩

end ServerLoop

namespace ServerEnv

/-- The loop after one more step. -/
theorem state_succ (env : ServerEnv) (n : ℕ) :
    env.state (n + 1) = (env.state n).step env.setting (env.input (env.state n)) :=
  Function.iterate_succ_apply' env.program.step n (ServerLoop.start env.setting)

/-- The invariant holds in every state of every run. -/
theorem inv_state (env : ServerEnv) (n : ℕ) : (env.state n).Inv env.setting := by
  apply env.program.iterate_invariant (I := fun s => s.Inv env.setting)
  · intro s _ hinv
    exact hinv.step _
  · exact ServerLoop.inv_start env.setting

/-- The final state is one of the states of the run. -/
theorem exists_final (env : ServerEnv) : ∃ n, env.final = env.state n ∧ env.final.Halted :=
  ⟨_, rfl, env.program.halted_final _⟩

/-- The invariant holds when the loop has been left. -/
theorem inv_final (env : ServerEnv) : env.final.Inv env.setting := by
  obtain ⟨n, hn, -⟩ := env.exists_final
  rw [hn]
  exact env.inv_state n

/-- The loop has a state of its own for each outcome of a frame, and is about to end only
while a last reply is written. -/
theorem ends_state (env : ServerEnv) (n : ℕ) : (env.state n).Ends := by
  apply env.program.iterate_invariant (I := ServerLoop.Ends)
  · intro s _ hends
    exact hends.step env.setting _
  · exact ServerLoop.ends_start env.setting

/-- From the moment the loop is about to end, the history stays what it is. -/
theorem history_of_closing (env : ServerEnv) {n : ℕ} (hn : (env.state n).closing = true) (k : ℕ) :
    (env.state (n + k)).history = (env.state n).history := by
  have hboth : (env.state (n + k)).history = (env.state n).history ∧
      (env.state (n + k)).closing = true := by
    induction k with
    | zero => exact ⟨rfl, hn⟩
    | succ k ih =>
      have hstep := ServerLoop.step_history_of_closing env.setting
        (env.input (env.state (n + k))) ih.2
      rw [← Nat.add_assoc, state_succ]
      exact ⟨hstep.1.trans ih.1, hstep.2⟩
  exact hboth.1

/-- A frame whose reply ends the loop is the last one. -/
theorem history_of_closing_reply (env : ServerEnv) {n : ℕ} {h : Handled}
    (hmem : h ∈ (env.state n).history) {reply : Message} {payload wire : Bytes}
    (houtcome : h.outcome = .reply reply payload wire true) (k : ℕ) :
    (env.state (n + k)).history = (env.state n).history := by
  have hmark := (env.ends_state n).closes_closing h hmem (.inr ⟨reply, payload, wire, houtcome⟩)
  exact env.history_of_closing hmark k

end ServerEnv

end PqtlsLab
