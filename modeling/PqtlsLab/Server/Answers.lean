import PqtlsLab.Policy.Config
import PqtlsLab.Server.LoopInvariant
import PqtlsLab.Server.Replies

/-!
# Whether a frame is answered

The step that takes a frame hands the reply to `ssl_write_all`, unless serialising or
framing the reply throws. When that happens is decided by the request for a frame
that is accepted, and by the reader's complaint for a frame that is rejected; the
limit on the frames is the same in both directions, and no room is set aside for what
a reply adds to a request.
-/

namespace PqtlsLab

open Message

/-- The setting of the application loop under a validated configuration. -/
def ServerConfig.setting {production : Bool} (config : ServerConfig)
    (h : config.validate production = .ok ()) (lib : JsonLibrary) (profile : SecurityProfile)
    (outcome : HandshakeOutcome) (labels : ℕ → FrameLabels) : ServerSetting where
  ctx := {
    lib := lib
    profile := profile
    outcome := outcome
    maxFrameSize := config.common.maxFrameSize.toNat
    maxFrameSize_bounds := config.bounds_of_validate h }
  maxMessages := config.maxMessagesPerConnection.toNat
  labels := labels

/-- A configuration that differs from the sample in the limit on the frames only. -/
theorem ServerConfig.validate_sample {maxFrameSize : UInt32} (hlow : 1 ≤ maxFrameSize.toNat)
    (hhigh : maxFrameSize.toNat ≤ Framing.kAbsoluteMaxFrameSize) :
    (ServerConfig.sample maxFrameSize).validate false = .ok () := by
  have hpositive : (maxFrameSize.toNat == 0) = false := by simp; omega
  rw [validate, firstViolation_eq_ok_iff]
  simp [commonChecks, insecureModeChecks, ServerConfig.sample, hpositive, hhigh]
  decide

/-- A request in one chunk. -/
def Chunk.ping : Chunk where
  bytes := Framing.frame (minimalText .ping)
  length_pos := by decide
  length_le := by decide

/-- A client that sends a `ping` to the sample server with some limit on the frames. -/
def ServerEnv.pinging (maxFrameSize : UInt32) (hlow : 1 ≤ maxFrameSize.toNat)
    (hhigh : maxFrameSize.toNat ≤ Framing.kAbsoluteMaxFrameSize) : ServerEnv :=
  .delivering ((ServerConfig.sample maxFrameSize).setting
    (ServerConfig.validate_sample hlow hhigh) minimalLibrary .hybrid (inspect .sample)
    (ServerSetting.sample minimalLibrary).labels) [Chunk.ping] fun _ => 1000

namespace ServerLoop

/-- A step that takes a frame hands its reply to `ssl_write_all` exactly when the frame
comes to that reply. -/
theorem step_replies_iff {cfg : ServerSetting} {input : ServerInput} {s : ServerLoop}
    {frame : Bytes} (htaken : (s.step cfg input).frames = s.frames ++ [frame]) (reply : Message)
    (payload wire : Bytes) (closing : Bool) :
    ((s.step cfg input).history = s.history ++ [⟨frame, .reply reply payload wire closing⟩] ∧
        (s.step cfg input).control = .writing wire) ↔
      handleFrame cfg.ctx (cfg.labels s.handled) frame = .reply reply payload wire closing := by
  obtain ⟨hhistory, hnext⟩ := step_taken htaken
  constructor
  · rintro ⟨hreplied, -⟩
    rw [hhistory] at hreplied
    simpa using hreplied
  · intro houtcome
    rw [houtcome] at hhistory
    simp only [houtcome] at hnext
    exact ⟨hhistory, hnext.1⟩

/-- Under a validated configuration, the step that takes an accepted request other than a
`close` hands one reply to `ssl_write_all` exactly when that reply fits into a frame and,
for capabilities, its texts are UTF-8. -/
theorem request_answered_iff {config : ServerConfig} {production : Bool}
    (hconfig : config.validate production = .ok ()) {lib : JsonLibrary} (hlib : lib.ReadsUtf8)
    (profile : SecurityProfile) (outcome : HandshakeOutcome) (labels : ℕ → FrameLabels)
    (s : ServerLoop) (input : ServerInput) {frame : Bytes} {request : Message}
    (htaken : (s.step (config.setting hconfig lib profile outcome labels) input).frames =
      s.frames ++ [frame])
    (hparse : Message.parse lib (labels s.handled).request frame = .ok request)
    (htype : request.type ≠ .close) :
    (∃ reply payload,
        (s.step (config.setting hconfig lib profile outcome labels) input).history =
            s.history ++ [⟨frame, .reply reply payload (Framing.frame payload) false⟩] ∧
          (s.step (config.setting hconfig lib profile outcome labels) input).control =
            .writing (Framing.frame payload)) ↔
      replyLength (config.setting hconfig lib profile outcome labels).ctx request ≤
          config.common.maxFrameSize.toNat ∧
        (request.type = .capabilities →
          CapabilitiesValid (config.setting hconfig lib profile outcome labels).ctx) := by
  simp only [step_replies_iff htaken]
  exact handleFrame_answers_iff hlib hparse htype

/-- The default configuration answers a `ping`. -/
theorem request_answered_ping :
    let env := ServerEnv.pinging 1048576 (by decide) (by decide)
    ∃ reply payload, (env.state 3).history = (env.state 2).history ++
      [⟨minimalText .ping, .reply reply payload (Framing.frame payload) false⟩] := by
  intro env
  obtain ⟨request, hparse, htype, hid⟩ := parse_minimal_ping
  have htaken : ((env.state 2).step env.setting (env.input (env.state 2))).frames =
      (env.state 2).frames ++ [minimalText .ping] := by decide +kernel
  have hiff := request_answered_iff (ServerConfig.validate_sample (by decide) (by decide))
    minimalLibrary_readsUtf8 .hybrid (inspect .sample) (ServerSetting.sample minimalLibrary).labels
    (env.state 2) (env.input (env.state 2)) htaken hparse (by simp [htype])
  have hlength (ctx : ServerContext) : replyLength ctx request = 147 := by
    simp only [replyLength, htype, hid]
  obtain ⟨reply, payload, hhistory, -⟩ := hiff.mpr ⟨by rw [hlength]; decide, by simp [htype]⟩
  rw [env.state_succ 2]
  exact ⟨reply, payload, hhistory⟩

/-- With frames limited to 64 bytes, which the validation accepts, a `ping` of 35 bytes is
taken and not answered. -/
theorem request_not_answered :
    ¬ ∀ (config : ServerConfig) (production : Bool)
      (hconfig : config.validate production = .ok ()) (lib : JsonLibrary) (_ : lib.ReadsUtf8)
      (profile : SecurityProfile) (outcome : HandshakeOutcome) (labels : ℕ → FrameLabels)
      (s : ServerLoop) (input : ServerInput) (frame : Bytes) (request : Message),
      (s.step (config.setting hconfig lib profile outcome labels) input).frames =
        s.frames ++ [frame] →
      Message.parse lib (labels s.handled).request frame = .ok request →
      request.type ≠ .close →
      ∃ reply payload,
        (s.step (config.setting hconfig lib profile outcome labels) input).history =
            s.history ++ [⟨frame, .reply reply payload (Framing.frame payload) false⟩] ∧
          (s.step (config.setting hconfig lib profile outcome labels) input).control =
            .writing (Framing.frame payload) := by
  intro h
  let env := ServerEnv.pinging 64 (by decide) (by decide)
  obtain ⟨request, hparse, htype, hid⟩ := parse_minimal_ping
  have hclose : request.type ≠ .close := by simp [htype]
  have htaken : ((env.state 2).step env.setting (env.input (env.state 2))).frames =
      (env.state 2).frames ++ [minimalText .ping] := by decide +kernel
  obtain ⟨reply, payload, hreply⟩ := h (ServerConfig.sample 64) false
    (ServerConfig.validate_sample (by decide) (by decide)) minimalLibrary minimalLibrary_readsUtf8
    .hybrid (inspect .sample) (ServerSetting.sample minimalLibrary).labels (env.state 2)
    (env.input (env.state 2)) (minimalText .ping) request htaken hparse hclose
  have houtcome := (step_replies_iff htaken reply payload (Framing.frame payload) false).mp hreply
  have hfits := ((handleFrame_answers_iff minimalLibrary_readsUtf8 hparse hclose).mp
    ⟨reply, payload, houtcome⟩).1
  simp only [replyLength, htype, hid] at hfits
  exact absurd hfits (by decide)

end ServerLoop

/-- A frame that is not JSON, in one chunk. -/
def Chunk.malformed : Chunk where
  bytes := Framing.frame (ascii "x")
  length_pos := by decide
  length_le := by decide

/-- The text in one chunk. -/
def Chunk.accented : Chunk where
  bytes := Framing.frame Message.accented
  length_pos := by decide
  length_le := by decide

namespace ServerEnv

/-- A frame of the default size that is rejected gets exactly one structured error, after
which nothing is handled or sent any more, if and only if the reader's complaint is UTF-8
and, like the name of an unknown type, leaves room for the rest of the reply. -/
theorem rejection_answered_iff (env : ServerEnv) (hlib : env.setting.ctx.lib.ReadsUtf8)
    (hmax : env.setting.ctx.maxFrameSize = Framing.kDefaultMaxFrameSize) (n : ℕ) {frame : Bytes}
    {e : Thrown} (htaken : (env.state (n + 1)).frames = (env.state n).frames ++ [frame])
    (hparse : Message.parse env.setting.ctx.lib
      (env.setting.labels (env.state n).handled).request frame = .error e) :
    (∃ reply payload,
        (env.state (n + 1)).history = (env.state n).history ++
            [⟨frame, .reply reply payload (Framing.frame payload) true⟩] ∧
          (env.state (n + 1)).control = .writing (Framing.frame payload) ∧
          reply.type = .error ∧ reply.status = some (ascii "rejected") ∧
          ∀ k, (env.state (n + 1 + k)).history = (env.state (n + 1)).history) ↔
      Answerable env.setting.ctx.lib env.setting.ctx.maxFrameSize frame := by
  rw [env.state_succ n] at htaken
  rw [← handleFrame_rejects_iff hlib hmax hparse]
  constructor
  · rintro ⟨reply, payload, hhistory, hcontrol, htype, hstatus, -⟩
    rw [env.state_succ n] at hhistory hcontrol
    exact ⟨reply, payload,
      (ServerLoop.step_replies_iff htaken _ _ _ _).mp ⟨hhistory, hcontrol⟩, htype, hstatus⟩
  · rintro ⟨reply, payload, houtcome, htype, hstatus⟩
    obtain ⟨hhistory, hcontrol⟩ := (ServerLoop.step_replies_iff htaken _ _ _ _).mpr houtcome
    rw [← env.state_succ n] at hhistory hcontrol
    refine ⟨reply, payload, hhistory, hcontrol, htype, hstatus, fun k => ?_⟩
    have hlast : ⟨frame, .reply reply payload (Framing.frame payload) true⟩ ∈
        (env.state (n + 1)).history := by simp [hhistory]
    exact env.history_of_closing_reply hlast rfl k

/-- A frame that is not JSON and complained about in plain text gets its error. -/
theorem rejection_answered_plain :
    let env := ServerEnv.delivering (.sample minimalLibrary) [Chunk.malformed] fun _ => 1000
    ∃ reply payload,
      (env.state 3).history = (env.state 2).history ++
          [⟨ascii "x", .reply reply payload (Framing.frame payload) true⟩] ∧
        reply.type = .error ∧ reply.status = some (ascii "rejected") ∧
        ∀ k, (env.state (3 + k)).history = (env.state 3).history := by
  intro env
  obtain ⟨e, hparse⟩ : ∃ e,
      Message.parse minimalLibrary Label.sample (ascii "x") = .error e := ⟨_, rfl⟩
  have htaken : (env.state 3).frames = (env.state 2).frames ++ [ascii "x"] := by decide +kernel
  have hanswerable : Answerable minimalLibrary Framing.kDefaultMaxFrameSize (ascii "x") := by
    rintro -
    exact ⟨by decide +kernel, by decide +kernel⟩
  obtain ⟨reply, payload, hhistory, -, hrest⟩ :=
    (env.rejection_answered_iff minimalLibrary_readsUtf8 rfl 2 htaken hparse).mpr hanswerable
  exact ⟨reply, payload, hhistory, hrest⟩

/-- The error reply to a frame whose complaint is not UTF-8 cannot be serialised. -/
theorem rejection_not_answered :
    ¬ ∀ env : ServerEnv, env.setting.ctx.lib.ReadsUtf8 →
      env.setting.ctx.maxFrameSize = Framing.kDefaultMaxFrameSize →
      ∀ (n : ℕ) (frame : Bytes) (e : Thrown),
      (env.state (n + 1)).frames = (env.state n).frames ++ [frame] →
      Message.parse env.setting.ctx.lib (env.setting.labels (env.state n).handled).request
        frame = .error e →
      ∃ reply payload,
        (env.state (n + 1)).history = (env.state n).history ++
            [⟨frame, .reply reply payload (Framing.frame payload) true⟩] ∧
          (env.state (n + 1)).control = .writing (Framing.frame payload) ∧
          reply.type = .error ∧ reply.status = some (ascii "rejected") ∧
          ∀ k, (env.state (n + 1 + k)).history = (env.state (n + 1)).history := by
  intro h
  let env := ServerEnv.delivering (.sample accentedLibrary) [Chunk.accented] fun _ => 1000
  obtain ⟨e, hparse⟩ : ∃ e,
      Message.parse accentedLibrary Label.sample accented = .error e := ⟨_, rfl⟩
  have htaken : (env.state 3).frames = (env.state 2).frames ++ [accented] := by decide +kernel
  obtain ⟨reply, payload, hhistory, hcontrol, htype, hstatus, -⟩ :=
    h env accentedLibrary_readsUtf8 rfl 2 accented e htaken hparse
  rw [env.state_succ 2] at hhistory hcontrol htaken
  have houtcome := (ServerLoop.step_replies_iff htaken _ _ _ _).mp ⟨hhistory, hcontrol⟩
  have hanswerable := (handleFrame_rejects_iff accentedLibrary_readsUtf8 rfl hparse).mp
    ⟨reply, payload, houtcome, htype, hstatus⟩
  exact absurd (hanswerable ⟨by decide, by decide⟩).1 (by decide +kernel)

end ServerEnv

end PqtlsLab
