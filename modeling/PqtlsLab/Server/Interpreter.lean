import PqtlsLab.Server.LoopInvariant
import PqtlsLab.Server.Replies

/-!
# The application loop as an interpreter of the byte stream

The reference interpreter reads the whole byte string that the client has sent and
never sees how it was cut into reads: it takes one frame after the other off the
front, answers it, and stops at the message limit, after a `close` and after a frame
that is rejected. The loop computes the same replies from every way of cutting the
string, and fails because of the framing exactly when the interpreter meets an illegal
header.
-/

namespace PqtlsLab

open Message

/-- What a frame is answered with, and whether the next frame is looked at. -/
def answerFrame (ctx : ServerContext) (labels : FrameLabels) (frame : Bytes) :
    Option Message × Bool :=
  match Message.parse ctx.lib labels.request frame with
  | .ok request =>
    match handleMessage labels.reply request ctx.profile ctx.outcome with
    | some reply => (some reply, true)
    | none => (none, false)
  | .error e => (some (makeError labels.reply none e.message), false)

/-- What the interpreter makes of a byte string: the frames it handles, the replies, and
whether it meets an illegal header. -/
structure Interpretation where
  frames : List Bytes
  replies : List Message
  illegal : Bool

namespace Interpretation

/-- The interpreter stops. -/
def stop : Interpretation := ⟨[], [], false⟩

/-- The interpreter meets an illegal header. -/
def reject : Interpretation := ⟨[], [], true⟩

/-- Frames that have been handled and replies that have been given before. -/
def after (frames : List Bytes) (replies : List Message) (rest : Interpretation) :
    Interpretation :=
  ⟨frames ++ rest.frames, replies ++ rest.replies, rest.illegal⟩

/-- What has been handled before can be split. -/
theorem after_append (fs gs : List Bytes) (rs ss : List Message) (rest : Interpretation) :
    after (fs ++ gs) (rs ++ ss) rest = after fs rs (after gs ss rest) := by
  simp [after]

end Interpretation

/-- The reference interpreter: `budget` is the number of frames it may still handle and
`handled` the number of those it has handled. -/
def interpret (cfg : ServerSetting) : (budget handled : ℕ) → Bytes → Interpretation
  | 0, _, _ => .stop
  | budget + 1, handled, stream =>
    match Framing.front cfg.ctx.maxFrameSize stream with
    | .incomplete => .stop
    | .illegal _ => .reject
    | .complete frame rest =>
      let answer := answerFrame cfg.ctx (cfg.labels handled) frame
      .after [frame] answer.1.toList
        (if answer.2 then interpret cfg budget (handled + 1) rest else .stop)

/-- What is assumed of answering a frame: parsing it fails with a `ProtocolError` only, and
its reply can be serialised and framed. -/
structure Sendable (ctx : ServerContext) (labels : FrameLabels) (frame : Bytes) : Prop where
  protocolOnly : ∀ e, Message.parse ctx.lib labels.request frame = .error e →
    ∃ reason, e = protocolError reason
  sends : ∀ reply, (answerFrame ctx labels frame).1 = some reply →
    ∃ payload wire, reply.serialize ctx.lib = .ok payload ∧
      Framing.encode payload ctx.maxFrameSize = .ok wire

/-- Under these assumptions the body of the loop comes to what the interpreter answers. -/
theorem answerFrame_of_sendable {ctx : ServerContext} {labels : FrameLabels} {frame : Bytes}
    (h : Sendable ctx labels frame) :
    match handleFrame ctx labels frame with
    | .reply reply _ _ closing => answerFrame ctx labels frame = (some reply, !closing)
    | .close => answerFrame ctx labels frame = (none, false)
    | .thrown _ => False := by
  have hsends := h.sends
  unfold answerFrame handleFrame at *
  cases hparse : Message.parse ctx.lib labels.request frame with
  | ok request =>
    simp only [hparse] at hsends ⊢
    cases hreply : handleMessage labels.reply request ctx.profile ctx.outcome with
    | none => rfl
    | some reply =>
      simp only [hreply] at hsends
      obtain ⟨payload, wire, hserialize, hencode⟩ := hsends reply rfl
      simp [sendReply, hserialize, hencode]
  | error e =>
    simp only [hparse] at hsends
    obtain ⟨reason, rfl⟩ := h.protocolOnly e hparse
    obtain ⟨payload, wire, hserialize, hencode⟩ := hsends _ rfl
    change (makeError labels.reply none reason).serialize ctx.lib = .ok payload at hserialize
    simp only [protocolError, sendReply, hserialize, hencode]
    rfl

/-- A request that is answered meets the assumptions. -/
theorem sendable_of_reply {ctx : ServerContext} {labels : FrameLabels} {frame : Bytes}
    {reply : Message} {payload wire : Bytes}
    (h : handleFrame ctx labels frame = .reply reply payload wire false) :
    Sendable ctx labels frame := by
  obtain ⟨hserialize, hlegal, rfl, hway⟩ := handleFrame_eq_reply h
  obtain ⟨-, request, hparse, hhandle⟩ := hway.resolve_right (by simp)
  constructor
  · intro e herror
    rw [hparse] at herror
    cases herror
  · intro message hmessage
    simp only [answerFrame, hparse, hhandle, Option.some.injEq] at hmessage
    subst hmessage
    exact ⟨payload, _, hserialize,
      (Framing.encode_eq_ok_iff ctx.maxFrameSize_bounds.2).mpr ⟨hlegal, rfl⟩⟩

/-- One round of the interpreter, below the message limit. -/
theorem interpret_of_lt {cfg : ServerSetting} {handled : ℕ} (h : handled < cfg.maxMessages)
    (stream : Bytes) :
    interpret cfg (cfg.maxMessages - handled) handled stream =
      match Framing.front cfg.ctx.maxFrameSize stream with
      | .incomplete => .stop
      | .illegal _ => .reject
      | .complete frame rest =>
        .after [frame] (answerFrame cfg.ctx (cfg.labels handled) frame).1.toList
          (if (answerFrame cfg.ctx (cfg.labels handled) frame).2 then
            interpret cfg (cfg.maxMessages - (handled + 1)) (handled + 1) rest else .stop) := by
  have hbudget : cfg.maxMessages - handled = cfg.maxMessages - (handled + 1) + 1 := by omega
  rw [hbudget, interpret]

namespace ServerLoop

/-- The bytes from which no frame has been taken: what the decoder holds, and the chunks
that have not been read. -/
def ahead (chunks : List Chunk) (s : ServerLoop) : Bytes :=
  s.decoder.remainder ++ (chunks.drop s.io.reads).flatMap Chunk.bytes

/-- What the interpreter still has to do where the loop is. -/
def remaining (cfg : ServerSetting) (chunks : List Chunk) (s : ServerLoop) : Interpretation :=
  match s.control with
  | .finished => .stop
  | .failed _ => .reject
  | _ =>
    if s.closing then .stop
    else interpret cfg (cfg.maxMessages - s.handled) s.handled (s.ahead chunks)

/-- The loop has done a part of what the interpreter does, and the rest is what the
interpreter still has to do. -/
structure Follows (cfg : ServerSetting) (chunks : List Chunk) (s : ServerLoop) : Prop where
  whole : interpret cfg cfg.maxMessages 0 (chunks.flatMap Chunk.bytes) =
    .after s.frames s.replies (s.remaining cfg chunks)
  reading : s.control = .reading → s.closing = false ∧ s.handled < cfg.maxMessages ∧
    Framing.front cfg.ctx.maxFrameSize s.decoder.remainder = .incomplete
  failed : ∀ e, s.control = .failed e →
    Framing.front s.decoder.maxFrameSize s.decoder.remainder = .illegal e

/-- Before the first iteration everything remains to be done. -/
theorem follows_start (cfg : ServerSetting) (chunks : List Chunk) :
    (start cfg).Follows cfg chunks where
  whole := by
    simp [start, remaining, frames, replies, handled, ahead, Interpretation.after, Io.start,
      Framing.Decoder.remainder, Framing.Decoder.fresh]
  reading := by simp [start]
  failed := by simp [start]

/-- As long as the loop goes on, the interpreter has to read what is ahead. -/
theorem remaining_of_open {cfg : ServerSetting} (chunks : List Chunk) {s : ServerLoop}
    (hcontrol : s.control = .head ∨ s.control = .reading) (hopen : s.closing = false) :
    s.remaining cfg chunks =
      interpret cfg (cfg.maxMessages - s.handled) s.handled (s.ahead chunks) := by
  rcases hcontrol with hcontrol | hcontrol
  · simp [remaining, hcontrol, hopen]
  · simp [remaining, hcontrol, hopen]

/-- A step that takes no frame follows the interpreter, if it leaves the same to be done. -/
theorem Follows.of_control {cfg : ServerSetting} {chunks : List Chunk} {s t : ServerLoop}
    (h : s.Follows cfg chunks) (hhistory : t.history = s.history)
    (hremaining : t.remaining cfg chunks = s.remaining cfg chunks)
    (hreading : t.control = .reading → t.closing = false ∧ t.handled < cfg.maxMessages ∧
      Framing.front cfg.ctx.maxFrameSize t.decoder.remainder = .incomplete)
    (hfailed : ∀ e, t.control = .failed e →
      Framing.front t.decoder.maxFrameSize t.decoder.remainder = .illegal e) :
    t.Follows cfg chunks where
  whole := by
    rw [hremaining, frames, replies, hhistory]
    exact h.whole
  reading := hreading
  failed := hfailed

/-- What the interpreter does with the next frame. -/
theorem Follows.whole_taken {cfg : ServerSetting} {chunks : List Chunk} {s : ServerLoop}
    (h : s.Follows cfg chunks) (hmax : s.decoder.maxFrameSize = cfg.ctx.maxFrameSize)
    (hcontrol : s.control = .head) (hopen : s.closing = false)
    (hlimit : s.handled < cfg.maxMessages) {frame rest : Bytes}
    (hfront : Framing.front s.decoder.maxFrameSize s.decoder.remainder = .complete frame rest) :
    interpret cfg cfg.maxMessages 0 (chunks.flatMap Chunk.bytes) =
      .after (s.frames ++ [frame])
        (s.replies ++ (answerFrame cfg.ctx (cfg.labels s.handled) frame).1.toList)
        (if (answerFrame cfg.ctx (cfg.labels s.handled) frame).2 then
          interpret cfg (cfg.maxMessages - (s.handled + 1)) (s.handled + 1)
            (rest ++ (chunks.drop s.io.reads).flatMap Chunk.bytes)
        else .stop) := by
  rw [hmax] at hfront
  have hahead := Framing.front_append_of_complete cfg.ctx.maxFrameSize_bounds.2 hfront
    ((chunks.drop s.io.reads).flatMap Chunk.bytes)
  rw [h.whole, remaining_of_open chunks (.inl hcontrol) hopen, interpret_of_lt hlimit, ahead,
    hahead, Interpretation.after_append]

/-- The interpreter takes the frame that the loop takes next. -/
theorem Follows.getElem?_frames {cfg : ServerSetting} {chunks : List Chunk} {s : ServerLoop}
    (h : s.Follows cfg chunks) (hmax : s.decoder.maxFrameSize = cfg.ctx.maxFrameSize)
    (hcontrol : s.control = .head) (hopen : s.closing = false)
    (hlimit : s.handled < cfg.maxMessages) {frame rest : Bytes}
    (hfront : Framing.front s.decoder.maxFrameSize s.decoder.remainder = .complete frame rest) :
    (interpret cfg cfg.maxMessages 0 (chunks.flatMap Chunk.bytes)).frames[s.handled]? =
      some frame := by
  rw [h.whole_taken hmax hcontrol hopen hlimit hfront]
  simp [Interpretation.after, frames, handled]

/-- A step that takes a frame follows the interpreter, if it answers as the interpreter
does. -/
theorem Follows.of_taken {cfg : ServerSetting} {chunks : List Chunk} {s t : ServerLoop}
    (h : s.Follows cfg chunks) (hmax : s.decoder.maxFrameSize = cfg.ctx.maxFrameSize)
    (hcontrol : s.control = .head) (hopen : s.closing = false)
    (hlimit : s.handled < cfg.maxMessages) {frame : Bytes}
    (hfront : Framing.front s.decoder.maxFrameSize s.decoder.remainder =
      .complete frame t.decoder.remainder)
    (hframes : t.frames = s.frames ++ [frame]) (hreads : t.io.reads = s.io.reads)
    (hreplies : t.replies =
      s.replies ++ (answerFrame cfg.ctx (cfg.labels s.handled) frame).1.toList)
    (hclosing : t.closing = !(answerFrame cfg.ctx (cfg.labels s.handled) frame).2)
    (hnext : t.control = .head ∨ ∃ wire, t.control = .writing wire) : t.Follows cfg chunks where
  whole := by
    have hhandled : t.handled = s.handled + 1 := by
      simpa [frames, handled] using congrArg List.length hframes
    have hremaining : t.remaining cfg chunks =
        if t.closing then .stop
        else interpret cfg (cfg.maxMessages - t.handled) t.handled (t.ahead chunks) := by
      rcases hnext with hhead | ⟨wire, hwriting⟩
      · simp [remaining, hhead]
      · simp [remaining, hwriting]
    rw [h.whole_taken hmax hcontrol hopen hlimit hfront, hremaining, hframes, hreplies, hhandled,
      ahead, hreads, hclosing]
    cases (answerFrame cfg.ctx (cfg.labels s.handled) frame).2 <;> rfl
  reading := by
    rcases hnext with hhead | ⟨wire, hwriting⟩
    · simp [hhead]
    · simp [hwriting]
  failed := by
    rcases hnext with hhead | ⟨wire, hwriting⟩
    · simp [hhead]
    · simp [hwriting]

/-- A chunk that is read moves from the chunks to come into the decoder. -/
theorem ahead_of_read {chunks : List Chunk} {s t : ServerLoop} {chunk : Chunk}
    (hchunk : chunks[s.io.reads]? = some chunk)
    (hremainder : t.decoder.remainder = s.decoder.remainder ++ chunk.bytes)
    (hreads : t.io.reads = s.io.reads + 1) : t.ahead chunks = s.ahead chunks := by
  have hdrop : chunks.drop s.io.reads = chunk :: chunks.drop (s.io.reads + 1) := by
    obtain ⟨hlt, rfl⟩ := List.getElem?_eq_some_iff.mp hchunk
    exact List.drop_eq_getElem_cons hlt
  rw [ahead, ahead, hremainder, hreads, hdrop, List.flatMap_cons, List.append_assoc]

/-- Where the loop meets an illegal header, so does the interpreter. -/
theorem remaining_of_illegal {cfg : ServerSetting} {chunks : List Chunk} {s : ServerLoop}
    (hcontrol : s.control = .head ∨ s.control = .reading) (hopen : s.closing = false)
    (hlimit : s.handled < cfg.maxMessages) {stream : Bytes} (hstream : stream <+: s.ahead chunks)
    {e : Thrown} (hfront : Framing.front cfg.ctx.maxFrameSize stream = .illegal e) :
    s.remaining cfg chunks = .reject := by
  obtain ⟨rest, hrest⟩ := hstream
  have hahead := Framing.front_append_of_illegal hfront rest
  rw [hrest] at hahead
  rw [remaining_of_open chunks hcontrol hopen, interpret_of_lt hlimit, hahead]

/-- Where the stream ends, the interpreter stops. -/
theorem remaining_of_end {cfg : ServerSetting} {chunks : List Chunk} {s : ServerLoop}
    (hcontrol : s.control = .reading) (hopen : s.closing = false)
    (hlimit : s.handled < cfg.maxMessages) (hnone : chunks[s.io.reads]? = none)
    (hfront : Framing.front cfg.ctx.maxFrameSize s.decoder.remainder = .incomplete) :
    s.remaining cfg chunks = .stop := by
  have hsame : s.ahead chunks = s.decoder.remainder := by
    rw [ahead, List.drop_eq_nil_of_le (List.getElem?_eq_none_iff.mp hnone), List.flatMap_nil,
      List.append_nil]
  rw [remaining_of_open chunks (.inr hcontrol) hopen, interpret_of_lt hlimit, hsame, hfront]

/-- Every move of a loop that is fed with the chunks follows the interpreter. -/
theorem Move.follows {cfg : ServerSetting} {chunks : List Chunk} {input : ServerInput}
    {s t : ServerLoop} (hmove : Move cfg input s t)
    (hread : input.read = deliver chunks s.io.reads)
    (hwrite : ∀ failure, input.write ≠ .failed failure) (hstop : input.stopping = false)
    (hsendable : ∀ i frame, (interpret cfg cfg.maxMessages 0
      (chunks.flatMap Chunk.bytes)).frames[i]? = some frame →
        Sendable cfg.ctx (cfg.labels i) frame)
    (hinv : s.Inv cfg) (h : s.Follows cfg chunks) : t.Follows cfg chunks := by
  have hmax := hinv.maxFrameSize
  have hanswer {frame rest : Bytes} (hcontrol : s.control = .head) (hopen : s.closing = false)
      (hlimit : s.handled < cfg.maxMessages)
      (hfront : Framing.front s.decoder.maxFrameSize s.decoder.remainder =
        .complete frame rest) :=
    answerFrame_of_sendable
      (hsendable _ _ (h.getElem?_frames hmax hcontrol hopen hlimit hfront))
  cases hmove with
  | leave hcontrol hexit =>
    refine h.of_control rfl ?_ (by simp) (by simp)
    rcases hexit with hclosing | hstopping | hlimit
    · simp [remaining, hcontrol, hclosing]
    · rw [hstop] at hstopping
      cases hstopping
    · have hnone : cfg.maxMessages - s.handled = 0 := by omega
      simp [remaining, hcontrol, hnone, interpret]
  | illegal e hcontrol hopen hlimit hfront =>
    refine h.of_control rfl ?_ (by simp) ?_
    · exact (remaining_of_illegal (.inl hcontrol) hopen hlimit (List.prefix_append _ _)
        (hmax ▸ hfront)).symm
    · rintro _ ⟨rfl⟩
      exact hfront
  | starve hcontrol hopen hlimit hfront =>
    refine h.of_control rfl ?_ ?_ (by simp)
    · simp only [remaining, hcontrol]
      rfl
    · rintro -
      exact ⟨hopen, hlimit, hmax ▸ hfront⟩
  | reply decoder frame message payload wire closing hcontrol hopen hgo hlimit hfront hdecoder
      houtcome =>
    have hanswered := hanswer hcontrol hopen hlimit hfront
    simp only [houtcome] at hanswered
    refine h.of_taken hmax hcontrol hopen hlimit hfront (by simp [frames, taken]) rfl ?_ ?_
      (.inr ⟨wire, rfl⟩)
    · simp [replies, taken, houtcome, hanswered, FrameOutcome.message?]
    · simp [hanswered]
  | close decoder frame hcontrol hopen hgo hlimit hfront hdecoder houtcome =>
    have hanswered := hanswer hcontrol hopen hlimit hfront
    simp only [houtcome] at hanswered
    refine h.of_taken hmax hcontrol hopen hlimit hfront (by simp [frames, taken]) rfl ?_ ?_
      (.inl rfl)
    · simp [replies, taken, houtcome, hanswered, FrameOutcome.message?]
    · simp [hanswered]
  | thrown decoder frame e hcontrol hopen hgo hlimit hfront hdecoder houtcome =>
    have hanswered := hanswer hcontrol hopen hlimit hfront
    simp only [houtcome] at hanswered
  | data chunk decoder hcontrol hdata hremainder =>
    have hchunk := deliver_eq_data_iff.mp (hread.symm.trans hdata)
    refine h.of_control rfl ?_ (by simp) (by simp)
    simp only [remaining, hcontrol]
    rw [ahead_of_read hchunk hremainder (Io.recordReceived_reads _ _)]
    rfl
  | illegalData chunk decoder e hcontrol hdata hremainder hdecoder hfront =>
    have hchunk := deliver_eq_data_iff.mp (hread.symm.trans hdata)
    obtain ⟨hopen, hlimit, -⟩ := h.reading hcontrol
    have hsame : s.ahead chunks =
        decoder.remainder ++ (chunks.drop (s.io.reads + 1)).flatMap Chunk.bytes :=
      (@ahead_of_read chunks s { s with
        io := s.io.recordReceived chunk.bytes, decoder := decoder } chunk hchunk hremainder
        rfl).symm
    refine h.of_control rfl ?_ (by simp) ?_
    · rw [hdecoder, hmax] at hfront
      exact (remaining_of_illegal (.inr hcontrol) hopen hlimit
        (hsame ▸ List.prefix_append _ _) hfront).symm
    · rintro _ ⟨rfl⟩
      exact hfront
  | endOfStream hcontrol hdata =>
    have hnone := (deliver_eq_failed_iff.mp (hread.symm.trans hdata)).1
    obtain ⟨hopen, hlimit, hfront⟩ := h.reading hcontrol
    refine h.of_control rfl ?_ (by simp) (by simp)
    exact (remaining_of_end hcontrol hopen hlimit hnone hfront).symm
  | readFailed failure hcontrol hdata hfailure =>
    exact absurd (deliver_eq_failed_iff.mp (hread.symm.trans hdata)).2 hfailure
  | written hcontrol =>
    refine h.of_control rfl ?_ (by simp) (by simp)
    simp only [remaining, hcontrol]
    rfl
  | accepted rest extra hcontrol =>
    refine h.of_control rfl ?_ (by simp) (by simp)
    simp only [remaining, hcontrol]
    rfl
  | writeFailed rest failure hcontrol hrest hfailed => exact absurd hfailed (hwrite failure)

/-- As long as no write fails, every reply but the one being written has been sent. -/
theorem Move.sent_all {cfg : ServerSetting} {input : ServerInput} {s t : ServerLoop}
    (hmove : Move cfg input s t) (hwrite : ∀ failure, input.write ≠ .failed failure)
    (hinv : s.Inv cfg) : t.io.sent ++ t.pending = t.payloads.flatMap Framing.frame := by
  by_cases ht : t.Failing
  · cases hmove with
    | illegal e hcontrol =>
      simpa [pending, hcontrol, payloads] using hinv.sent_all (by simp [Failing, hcontrol])
    | thrown decoder frame e hcontrol hopen hgo hlimit hfront hmax houtcome =>
      have hsent := hinv.sent_all (by simp [Failing, hcontrol])
      simpa [pending, hcontrol, payloads, taken, houtcome, FrameOutcome.payload?] using hsent
    | illegalData chunk decoder e hcontrol =>
      simpa [pending, hcontrol, payloads] using hinv.sent_all (by simp [Failing, hcontrol])
    | readFailed failure hcontrol =>
      simpa [pending, hcontrol, payloads] using hinv.sent_all (by simp [Failing, hcontrol])
    | writeFailed rest failure hcontrol hrest hfailed => exact absurd hfailed (hwrite failure)
    | _ => simp_all [Failing]
  · exact (hmove.inv hinv).sent_all ht

/-- The texts of the replies are the payloads. -/
theorem Inv.serialize_replies {cfg : ServerSetting} {s : ServerLoop} (h : s.Inv cfg) :
    List.Forall₂ (fun reply payload => Message.serialize cfg.ctx.lib reply = .ok payload)
      s.replies s.payloads := by
  have hentries : ∀ entry ∈ s.history, ∀ reply payload wire closing,
      entry.outcome = .reply reply payload wire closing →
        Message.serialize cfg.ctx.lib reply = .ok payload := by
    intro entry hentry reply payload wire closing houtcome
    obtain ⟨i, hi⟩ := List.getElem?_of_mem hentry
    rw [h.log i entry hi] at houtcome
    exact (handleFrame_eq_reply houtcome).1
  unfold replies payloads
  generalize s.history = history at hentries
  induction history with
  | nil => exact .nil
  | cons entry history ih =>
    have hrest := ih fun other hother => hentries other (by simp [hother])
    cases houtcome : entry.outcome with
    | reply reply payload wire closing =>
      have hfirst := hentries entry (by simp) reply payload wire closing houtcome
      simpa [houtcome, FrameOutcome.message?, FrameOutcome.payload?] using And.intro hfirst hrest
    | close => simpa [houtcome, FrameOutcome.message?, FrameOutcome.payload?] using hrest
    | thrown e => simpa [houtcome, FrameOutcome.message?, FrameOutcome.payload?] using hrest

end ServerLoop

namespace ServerEnv

variable (setting : ServerSetting) (chunks : List Chunk) (extras : ℕ → ℕ)

/-- A loop that is fed with the chunks follows the interpreter to its end. -/
theorem follows_final
    (hsendable : ∀ i frame, (interpret setting setting.maxMessages 0
      (chunks.flatMap Chunk.bytes)).frames[i]? = some frame →
        Sendable setting.ctx (setting.labels i) frame) :
    let s := (delivering setting chunks extras).final
    s.Follows setting chunks ∧ s.io.sent ++ s.pending = s.payloads.flatMap Framing.frame := by
  let env := delivering setting chunks extras
  refine (env.program.final_invariant (I := fun s => s.Inv setting ∧ s.Follows setting chunks ∧
    s.io.sent ++ s.pending = s.payloads.flatMap Framing.frame) ?_ ⟨ServerLoop.inv_start setting,
      ServerLoop.follows_start setting chunks, by simp [ServerLoop.start, ServerLoop.pending,
        ServerLoop.payloads]⟩).2
  rintro s hs ⟨hinv, hfollows, -⟩
  have hmove := ServerLoop.step_move setting (env.input s) hs
  have hwrite : ∀ failure, (env.input s).write ≠ .failed failure := by
    rintro failure ⟨⟩
  exact ⟨hinv.step _, hmove.follows rfl hwrite rfl hsendable hinv hfollows,
    hmove.sent_all hwrite hinv⟩

/-- For every byte string and every way of cutting it into reads, the loop gives the replies
of the reference interpreter and sends their frames, and it fails exactly when the
interpreter meets an illegal header. -/
theorem loop_refines_interpreter
    (hsendable : ∀ i frame, (interpret setting setting.maxMessages 0
      (chunks.flatMap Chunk.bytes)).frames[i]? = some frame →
        Sendable setting.ctx (setting.labels i) frame) :
    let env := delivering setting chunks extras
    let reference := interpret setting setting.maxMessages 0 (chunks.flatMap Chunk.bytes)
    env.final.replies = reference.replies ∧
      (∃ payloads, List.Forall₂
          (fun reply payload => Message.serialize setting.ctx.lib reply = .ok payload)
          reference.replies payloads ∧
        env.final.io.sent = payloads.flatMap Framing.frame) ∧
      (env.final.DetectedIllegal ↔ reference.illegal = true) ∧
      (env.final.control = .finished ↔ reference.illegal = false) := by
  intro env reference
  obtain ⟨hfollows, hsent⟩ := follows_final setting chunks extras hsendable
  obtain ⟨_, -, hhalted⟩ := env.exists_final
  have hserialize := env.inv_final.serialize_replies
  have hwhole : reference = .after env.final.frames env.final.replies
      (env.final.remaining setting chunks) := hfollows.whole
  change env.final.io.sent ++ env.final.pending = _ at hsent
  cases hcontrol : env.final.control with
  | finished =>
    simp only [ServerLoop.remaining, hcontrol, Interpretation.after, Interpretation.stop,
      List.append_nil] at hwhole
    simp only [ServerLoop.pending, hcontrol, List.append_nil] at hsent
    refine ⟨by rw [hwhole], ⟨_, by rwa [hwhole], hsent⟩, ?_, by rw [hwhole]; simp⟩
    rw [hwhole]
    simp [ServerLoop.DetectedIllegal, hcontrol]
  | failed e =>
    simp only [ServerLoop.remaining, hcontrol, Interpretation.after, Interpretation.reject,
      List.append_nil] at hwhole
    simp only [ServerLoop.pending, hcontrol, List.append_nil] at hsent
    refine ⟨by rw [hwhole], ⟨_, by rwa [hwhole], hsent⟩, ?_, by rw [hwhole]; simp⟩
    rw [hwhole]
    exact iff_of_true ⟨e, hcontrol, hfollows.failed e hcontrol⟩ rfl
  | _ => simp [ServerLoop.Halted, hcontrol] at hhalted

/-- A request and an illegal header behind it, cut in the middle of the request: the request
is answered, and then the loop fails because of the framing. -/
theorem loop_refines_interpreter_cut :
    let stream := Framing.frame (minimalText .ping) ++ [0, 0, 0, 0]
    let env := delivering (.sample minimalLibrary)
      [⟨stream.take 10, by decide, by decide⟩, ⟨stream.drop 10, by decide, by decide⟩]
      fun _ => 1000
    env.final.replies.map Message.type = [.pong] ∧ env.final.DetectedIllegal := by
  intro stream env
  obtain ⟨request, hparse, htype, hid⟩ := parse_minimal_ping
  obtain ⟨reply, payload, hreply⟩ : ∃ reply payload,
      handleFrame (.sample minimalLibrary) ⟨Label.sample, Label.sample⟩ (minimalText .ping) =
        .reply reply payload (Framing.frame payload) false := by
    rw [handleFrame_answers_iff minimalLibrary_readsUtf8 hparse (by simp [htype])]
    simp only [replyLength, htype, hid]
    exact ⟨by decide, by simp⟩
  have hframes : (interpret (.sample minimalLibrary) 1024 0 stream).frames =
      [minimalText .ping] := by decide +kernel
  obtain ⟨hreplies, -, hillegal, -⟩ := loop_refines_interpreter (.sample minimalLibrary)
    [⟨stream.take 10, by decide, by decide⟩, ⟨stream.drop 10, by decide, by decide⟩]
    (fun _ => 1000) (by
      intro i frame hi
      have hmem := List.mem_of_getElem? hi
      change frame ∈ (interpret (.sample minimalLibrary) 1024 0 stream).frames at hmem
      rw [hframes, List.mem_singleton] at hmem
      subst hmem
      exact sendable_of_reply hreply)
  refine ⟨?_, hillegal.mpr (by decide +kernel)⟩
  rw [hreplies]
  decide +kernel

end ServerEnv

end PqtlsLab
