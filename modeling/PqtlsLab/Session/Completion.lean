import PqtlsLab.Server.ReplyRoundTrip
import PqtlsLab.Session.Progress

/-!
# A session completes

If the messages of the client travel, if they and the replies to them fit into the frames of
both sides, and if there are not too many of them, then nothing but the transport can make a
session fail. Over a transport that does not fail, every session ends with both sides
satisfied, and the client has received the server's reply to each of its messages.
-/

namespace PqtlsLab

open Message

/-- Streams of legal frames never show an illegal header. -/
theorem Framing.front_ne_illegal {frames payloads : List Bytes} {remainder : Bytes}
    {maxFrameSize : ℕ} (hmax : maxFrameSize ≤ kAbsoluteMaxFrameSize)
    (hframes : ∀ frame ∈ frames, Legal maxFrameSize frame)
    (hpayloads : ∀ payload ∈ payloads, Legal maxFrameSize payload)
    (hbytes : frames.flatMap frame ++ remainder <+: payloads.flatMap frame) (e : Thrown) :
    front maxFrameSize remainder ≠ .illegal e := by
  intro hillegal
  obtain ⟨more, hmore⟩ := hbytes
  rw [List.append_assoc] at hmore
  have hcode : PrefixCode frame (Legal maxFrameSize) :=
    frame_prefixCode (lt_of_le_of_lt hmax (by decide))
  obtain ⟨rest, rfl, hrest⟩ := hcode.eq_append_of_flatMap hframes hpayloads hmore
  have hstill := front_append_of_illegal hillegal more
  rw [hrest] at hstill
  cases rest with
  | nil => cases hstill
  | cons payload rest =>
    have hcomplete : front maxFrameSize ((payload :: rest).flatMap frame) =
        .complete payload (rest.flatMap frame) :=
      (front_eq_complete_iff hmax).mpr ⟨hpayloads payload (by simp), (List.flatMap_cons ..)⟩
    rw [hcomplete] at hstill
    cases hstill

/-- The library writes and reads the texts of a conversation faithfully. -/
structure JsonLibrary.Conveys (lib : JsonLibrary) (messages : List Message) : Prop where
  readsUtf8 : lib.ReadsUtf8
  writesUtf8 : lib.WritesUtf8
  inverts : ∀ m ∈ messages, lib.InvertsDump m.toJson

namespace SessionSetting

/-- The replies of the server to the messages of the client. -/
def replies (cfg : SessionSetting) : List Message :=
  cfg.client.messages.zipIdx.filterMap fun entry =>
    handleMessage (cfg.server.labels entry.2).reply entry.1 cfg.server.ctx.profile
      cfg.server.ctx.outcome

/-- Nothing about the messages and the limits keeps the session from completing. -/
structure Fits (cfg : SessionSetting) : Prop where
  onWire : ∀ m ∈ cfg.client.messages, m.OnWire
  library : cfg.client.lib.Conveys (cfg.client.messages ++ cfg.replies)
  request : ∀ m ∈ cfg.client.messages,
    (m.toJson.val.render cfg.client.lib.floatText).length ≤
      min cfg.client.maxFrameSize cfg.server.ctx.maxFrameSize
  reply : ∀ m ∈ cfg.client.messages, m.type ≠ .close → replyLength cfg.server.ctx m ≤
    min cfg.client.maxFrameSize cfg.server.ctx.maxFrameSize
  count : cfg.client.messages.length ≤ cfg.server.maxMessages
  capabilities : CapabilitiesValid cfg.server.ctx

variable {cfg : SessionSetting}

/-- What the client sends for a message that fits, and what it gets for it. -/
structure Served (cfg : SessionSetting) (i : ℕ) (m : Message) (text : Bytes) : Prop where
  serialize : m.serialize cfg.client.lib = .ok text
  toClient : Framing.Legal cfg.client.maxFrameSize text
  toServer : Framing.Legal cfg.server.ctx.maxFrameSize text
  close : m.type = .close → handleFrame cfg.server.ctx (cfg.server.labels i) text = .close
  reply : m.type ≠ .close → ∃ reply payload,
    handleMessage (cfg.server.labels i).reply m cfg.server.ctx.profile cfg.server.ctx.outcome =
        some reply ∧
      handleFrame cfg.server.ctx (cfg.server.labels i) text =
        .reply reply payload (Framing.frame payload) false ∧
      Framing.Legal cfg.client.maxFrameSize payload ∧
      ∀ label, parse cfg.client.lib label payload = .ok reply

/-- Every message that fits is served. -/
theorem Fits.served (h : cfg.Fits) {i : ℕ} {m : Message} (hm : cfg.client.messages[i]? = some m) :
    ∃ text, cfg.Served i m text := by
  have hmem := List.mem_of_getElem? hm
  have hlib := cfg.sameLibrary
  obtain ⟨text, hserialize, hparse⟩ := (h.onWire m hmem).parse_serialize_eq h.library.writesUtf8
    (h.library.inverts m (List.mem_append_left _ hmem))
  obtain ⟨-, rfl⟩ := (serialize_eq_ok_iff _ _ _).mp hserialize
  have hpositive := m.one_le_length_render cfg.client.lib.floatText
  have hlength := h.request m hmem
  have hparsed := hparse (cfg.server.labels i).request
  rw [← hlib] at hparsed
  refine ⟨_, hserialize, ⟨hpositive, by omega⟩, ⟨hpositive, by omega⟩, fun hclose => ?_,
    fun hopen => ?_⟩
  · rw [← hlib]
    exact (handleFrame_eq_close_iff _ _ _).mpr ⟨m, hparsed, hclose⟩
  · have hutf8 : cfg.server.ctx.lib.ReadsUtf8 := hlib ▸ h.library.readsUtf8
    have hroom := h.reply m hmem hopen
    obtain ⟨reply, payload, hanswer⟩ := (handleFrame_answers_iff hutf8 hparsed hopen).mpr
      ⟨by omega, fun _ => h.capabilities⟩
    obtain ⟨hwritten, -, -, hways⟩ := handleFrame_eq_reply hanswer
    rw [hparsed] at hways
    obtain ⟨request, hrequest, hreply⟩ : ∃ request, Except.ok m = .ok request ∧
        handleMessage (cfg.server.labels i).reply request cfg.server.ctx.profile
          cfg.server.ctx.outcome = some reply := by
      rcases hways with ⟨-, hanswered⟩ | ⟨-, _, herror, -⟩
      · exact hanswered
      · cases herror
    cases hrequest
    have hknown : reply ∈ cfg.replies := by
      refine List.mem_filterMap.mpr ⟨(m, i), ?_, hreply⟩
      exact List.mem_zipIdx_iff_getElem?.mpr hm
    obtain ⟨text', hserialize', hback⟩ := ((h.onWire m hmem).reply h.capabilities
      hreply).parse_serialize_eq h.library.writesUtf8
        (h.library.inverts reply (List.mem_append_right _ hknown))
    rw [hlib, hserialize', Except.ok.injEq] at hwritten
    subst hwritten
    obtain ⟨-, htext⟩ := (serialize_eq_ok_iff _ _ _).mp hserialize'
    have hvalid := textValid_of_parse hutf8 hparsed
    have hsize := (handleMessage_reply hvalid hreply).1
    rw [hlib, ← htext] at hsize
    refine ⟨reply, text', hreply, hlib ▸ hanswer, ⟨?_, by omega⟩, hback⟩
    rw [htext]
    exact reply.one_le_length_render cfg.client.lib.floatText

end SessionSetting

namespace Session

variable {cfg : SessionSetting} {s : Session}

/-- The sessions that can be reached over a transport that does not fail, without a request to
stop. -/
def CleanReachable (cfg : SessionSetting) (s : Session) : Prop :=
  Relation.ReflTransGen (CleanStep cfg false) (start cfg) s

/-- Such a session is one that can be reached. -/
theorem reachable_of_clean (h : s.CleanReachable cfg) : s.Reachable cfg false := by
  refine Relation.ReflTransGen.mono ?_ _ _ h
  rintro s t ⟨next, hpermits, -, -, rfl⟩
  exact ⟨next, hpermits, rfl⟩

/-- Every request is the text of the message in its place. -/
theorem Inv.served_request (h : s.Inv cfg false) (hfits : cfg.Fits) {i : ℕ} {text : Bytes}
    (hi : s.client.requests[i]? = some text) :
    ∃ m, cfg.client.messages[i]? = some m ∧ cfg.Served i m text := by
  obtain ⟨m, hm, hserialize⟩ := h.client.requests i text hi
  obtain ⟨text', hserved⟩ := hfits.served hm
  have hsame := hserved.serialize
  rw [hserialize, Except.ok.injEq] at hsame
  subst hsame
  exact ⟨m, hm, hserved⟩

/-- Every frame that the server has taken is the text of the message in its place. -/
theorem Inv.served_frame (h : s.Inv cfg false) (hfits : cfg.Fits) (hclient : ¬ s.client.Failing)
    {i : ℕ} {entry : Handled} (hi : s.server.history[i]? = some entry) :
    ∃ m, cfg.client.messages[i]? = some m ∧ cfg.Served i m entry.frame := by
  have hframe : s.server.frames[i]? = some entry.frame := by
    rw [ServerLoop.frames, List.getElem?_map, hi, Option.map_some]
  exact h.served_request hfits (getElem?_mono (h.frames_prefix hclient) hframe)

/-- The requests are legal for the server as well. -/
theorem Inv.requests_toServer (h : s.Inv cfg false) (hfits : cfg.Fits) :
    ∀ text ∈ s.client.requests, Framing.Legal cfg.server.ctx.maxFrameSize text := by
  intro text htext
  obtain ⟨i, hi⟩ := List.getElem?_of_mem htext
  obtain ⟨m, -, hserved⟩ := h.served_request hfits hi
  exact hserved.toServer

/-- Every reply is the text of the server's answer to the message in its place, which the client
can read. -/
theorem Inv.served_payload (h : s.Inv cfg false) (hfits : cfg.Fits) (hclient : ¬ s.client.Failing)
    {i : ℕ} {payload : Bytes} (hi : s.server.payloads[i]? = some payload) :
    Framing.Legal cfg.client.maxFrameSize payload ∧ ∃ m reply,
      cfg.client.messages[i]? = some m ∧
        handleMessage (cfg.server.labels i).reply m cfg.server.ctx.profile
          cfg.server.ctx.outcome = some reply ∧
        ∀ label, parse cfg.client.lib label payload = .ok reply := by
  obtain ⟨entry, reply, wire, closing, hentry, houtcome⟩ := h.server.history_of_payload hi
  obtain ⟨m, hm, hserved⟩ := h.served_frame hfits hclient hentry
  by_cases hclose : m.type = .close
  · rw [hserved.close hclose] at houtcome
    cases houtcome
  · obtain ⟨reply', payload', hreply, hanswer, hlegal, hparse⟩ := hserved.reply hclose
    rw [hanswer] at houtcome
    cases houtcome
    exact ⟨hlegal, m, reply, hm, hreply, hparse⟩

/-- The replies are legal for the client as well. -/
theorem Inv.payloads_toClient (h : s.Inv cfg false) (hfits : cfg.Fits)
    (hclient : ¬ s.client.Failing) :
    ∀ payload ∈ s.server.payloads, Framing.Legal cfg.client.maxFrameSize payload := by
  intro payload hpayload
  obtain ⟨i, hi⟩ := List.getElem?_of_mem hpayload
  exact (h.served_payload hfits hclient hi).1

/-- The client never sees an illegal header if the replies are legal. -/
theorem Inv.client_front (h : s.Inv cfg false)
    (hlegal : ∀ payload ∈ s.server.payloads, Framing.Legal cfg.client.maxFrameSize payload)
    (e : Thrown) :
    Framing.front cfg.client.maxFrameSize s.client.decoder.remainder ≠ .illegal e := by
  refine Framing.front_ne_illegal cfg.client.maxFrameSize_bounds.2 h.client.legal_frames
    hlegal ?_ e
  calc s.client.frames.flatMap Framing.frame ++ s.client.decoder.remainder
      = s.client.io.received := h.client.stream.symm
    _ <+: s.server.io.sent := h.toClient
    _ <+: s.server.io.sent ++ s.server.pending := List.prefix_append _ _
    _ <+: s.server.payloads.flatMap Framing.frame := h.server.sent

/-- The server never sees an illegal header. -/
theorem Inv.server_front (h : s.Inv cfg false) (hfits : cfg.Fits) (hclient : ¬ s.client.Failing)
    (e : Thrown) :
    Framing.front cfg.server.ctx.maxFrameSize s.server.decoder.remainder ≠ .illegal e := by
  refine Framing.front_ne_illegal cfg.server.ctx.maxFrameSize_bounds.2 h.server.legal
    (h.requests_toServer hfits) ?_ e
  calc s.server.frames.flatMap Framing.frame ++ s.server.decoder.remainder
      = s.server.io.received := h.server.stream.symm
    _ <+: s.client.io.sent := h.toServer
    _ <+: s.client.requests.flatMap Framing.frame := ⟨_, h.client.sent hclient⟩

/-- Neither side is unwinding an exception. -/
structure Unfailing (s : Session) : Prop where
  client : ¬ s.client.Failing
  server : ¬ s.server.Failing

/-- A client that waits for a response has not asked the server to close. -/
theorem Inv.type_of_waiting (h : s.Inv cfg false) (hreading : s.client.control = .reading)
    {i : ℕ} (hi : i < s.client.requests.length) {m : Message}
    (hm : cfg.client.messages[i]? = some m) : m.type ≠ .close := by
  have hlength := h.client.requests_length (by simp [Exchange.Failing, hreading])
  simp only [Exchange.unanswered, hreading] at hlength
  by_cases hanswered : i < s.client.responses.length
  · refine h.client.answered m (List.mem_of_getElem? (i := i) ?_)
    rw [List.getElem?_take_of_lt hanswered, hm]
  · obtain rfl : i = s.client.responses.length := by omega
    have hopen := h.client.waiting (.inr hreading)
    simpa [Exchange.Closing, h.client.pending, List.head?_drop, hm] using hopen

/-- The server does not end as long as the client waits for a response. -/
theorem Inv.not_cut_off (h : s.Inv cfg false) (hwaits : s.Waits) (hfits : cfg.Fits)
    (hs : s.Unfailing) (hreading : s.client.control = .reading) (hhalted : s.server.Halted)
    (hall : s.client.io.received = s.server.io.sent) : False := by
  have hfinished : s.server.control = .finished := by
    cases hcontrol : s.server.control with
    | finished => rfl
    | failed e => exact absurd ⟨e, hcontrol⟩ hs.server
    | _ => simp [ServerLoop.Halted, hcontrol] at hhalted
  have hsent : s.server.io.sent = s.server.payloads.flatMap Framing.frame := by
    simpa [ServerLoop.pending, hfinished] using h.server.sent_all hs.server
  have hlt := h.length_payloads_lt hwaits hreading hsent hall
  have hframes := (h.frames_prefix hs.client).length_le
  have hopen : s.server.closing = false := by
    by_contra hclosing
    obtain ⟨entry, hlast, hcloses⟩ := h.server.last_closes (by simpa using hclosing)
    rw [List.getLast?_eq_getElem?] at hlast
    have hlog := h.server.log _ entry hlast
    obtain ⟨m, hm, hserved⟩ := h.served_frame hfits hs.client hlast
    have hplace : s.server.history.length - 1 < s.client.requests.length := by
      have hpos := (List.getElem?_eq_some_iff.mp hlast).1
      rw [ServerLoop.frames, List.length_map] at hframes
      omega
    obtain ⟨reply, payload, -, hanswer, -⟩ :=
      hserved.reply (h.type_of_waiting hreading hplace hm)
    rw [hlog, hanswer] at hcloses
    rcases hcloses with hclose | ⟨_, _, _, hreject⟩
    · cases hclose
    · cases hreject
  have hanswered := h.server.length_payloads hopen hs.server
  rcases h.ended hfinished with hclosing | hstop | hlimit | ⟨hclient, -⟩
  · rw [hopen] at hclosing
    cases hclosing
  · cases hstop
  · have hcount := hfits.count
    have hrequests := h.client.length_requests_le
    rw [ServerLoop.frames, List.length_map] at hanswered
    rw [ServerLoop.handled] at hlimit
    omega
  · simp [Exchange.Halted, hreading] at hclient

/-- A turn of the client does not make it fail. -/
theorem Inv.client_unfailing (h : s.Inv cfg false) (hwaits : s.Waits) (hfits : cfg.Fits)
    (hs : s.Unfailing) {input : ClientInput} (hpermits : s.Permits false (.client input))
    (hable : s.Able (.client input)) (hclean : s.undisturbed (.client input) = true) :
    ¬ (s.client.step cfg.client input).Failing := by
  have hlegal := h.payloads_toClient hfits hs.client
  have hmove := Exchange.step_move cfg.client input hable
  have ht : Inv cfg false { s with client := s.client.step cfg.client input } :=
    h.client_turn hpermits
  generalize s.client.step cfg.client input = x at hmove ht ⊢
  rintro ⟨e, he⟩
  cases hmove with
  | unsendable message rest e' hcontrol hpending herror =>
    have hm : cfg.client.messages[s.client.responses.length]? = some message := by
      rw [← List.head?_drop, ← h.client.pending, hpending, List.head?_cons]
    obtain ⟨text, hserved⟩ := hfits.served hm
    rcases herror with hserialize | ⟨payload, hserialize, hencode⟩
    · rw [hserved.serialize] at hserialize
      cases hserialize
    · rw [hserved.serialize, Except.ok.injEq] at hserialize
      subst hserialize
      have hok := (Framing.encode_eq_ok_iff cfg.client.maxFrameSize_bounds.2).mpr
        ⟨hserved.toClient, rfl⟩
      rw [hencode] at hok
      cases hok
  | writeFailed rest failure hcontrol hrest hwrite =>
    simp [undisturbed, hcontrol, hwrite, WriteResult.undisturbed] at hclean
  | illegal e' hcontrol hfront =>
    rw [h.client.maxFrameSize] at hfront
    exact h.client_front hlegal e' hfront
  | reject decoder text e' hcontrol hfront hmax hparse =>
    have hplace : s.server.payloads[s.client.frames.length]? = some text :=
      getElem?_mono ht.responses_prefix (by simp)
    obtain ⟨-, m, reply, -, -, hok⟩ := h.served_payload hfits hs.client hplace
    rw [hok] at hparse
    cases hparse
  | illegalData chunk decoder e' hcontrol hread hremainder hmax hfront =>
    rw [hmax, h.client.maxFrameSize] at hfront
    exact ht.client_front hlegal e' hfront
  | endOfStream hcontrol hread =>
    have hend := hpermits
    simp only [Permits, hread] at hend
    exact h.not_cut_off hwaits hfits hs hcontrol hend.1 hend.2
  | readFailed failure hcontrol hread hfailure =>
    simp only [undisturbed, hcontrol, hread] at hclean
    cases failure with
    | zeroReturn => exact hfailure rfl
    | _ => cases hclean
  | done | send | sentClose | sent | accepted | starve | receive | data => cases he

/-- A turn of the server does not make it fail. -/
theorem Inv.server_unfailing (h : s.Inv cfg false) (hfits : cfg.Fits) (hs : s.Unfailing)
    {input : ServerInput} (hpermits : s.Permits false (.server input))
    (hable : s.Able (.server input)) (hclean : s.undisturbed (.server input) = true) :
    ¬ (s.server.step cfg.server input).Failing := by
  have hmove := ServerLoop.step_move cfg.server input hable
  have ht : Inv cfg false { s with server := s.server.step cfg.server input } :=
    h.server_turn hpermits
  generalize s.server.step cfg.server input = t at hmove ht ⊢
  rintro ⟨e, he⟩
  cases hmove with
  | illegal e' hcontrol hopen hlimit hfront =>
    rw [h.server.maxFrameSize] at hfront
    exact h.server_front hfits hs.client e' hfront
  | thrown decoder frame e' hcontrol hopen hgo hlimit hfront hmax houtcome =>
    let entry : Handled :=
      ⟨frame, handleFrame cfg.server.ctx (cfg.server.labels s.server.handled) frame⟩
    obtain ⟨m, -, hserved⟩ := @Inv.served_frame _ _ ht hfits hs.client s.server.handled entry
      (by simp [entry, ServerLoop.taken, ServerLoop.handled])
    by_cases hclose : m.type = .close
    · rw [hserved.close hclose] at houtcome
      cases houtcome
    · obtain ⟨reply, payload, -, hanswer, -⟩ := hserved.reply hclose
      rw [hanswer] at houtcome
      cases houtcome
  | illegalData chunk decoder e' hcontrol hread hremainder hmax hfront =>
    rw [hmax, h.server.maxFrameSize] at hfront
    exact ht.server_front hfits hs.client e' hfront
  | readFailed failure hcontrol hread hfailure =>
    simp only [undisturbed, hcontrol, hread] at hclean
    cases failure with
    | zeroReturn => exact hfailure rfl
    | _ => cases hclean
  | writeFailed rest failure hcontrol hrest hwrite =>
    simp [undisturbed, hcontrol, hwrite, WriteResult.undisturbed] at hclean
  | leave | starve | reply | close | data | endOfStream | written | accepted => cases he

/-- Neither side fails in a session over a transport that does not fail. -/
theorem unfailing_of_clean (hfits : cfg.Fits) (h : s.CleanReachable cfg) : s.Unfailing := by
  induction h with
  | refl =>
    exact ⟨by simp [start, Exchange.start, Exchange.Failing],
      by simp [start, ServerLoop.start, ServerLoop.Failing]⟩
  | @tail s _ hs hstep ih =>
    have hreachable := reachable_of_clean hs
    have hinv := inv_of_reachable hreachable
    obtain ⟨next, hpermits, hable, hclean, rfl⟩ := hstep
    cases next with
    | client input =>
      exact ⟨hinv.client_unfailing (waits_of_reachable hreachable) hfits ih hpermits hable hclean,
        ih.server⟩
    | server input => exact ⟨ih.client, hinv.server_unfailing hfits ih hpermits hable hclean⟩

/-- A side that has ended without an exception has finished. -/
theorem Unfailing.finished (h : s.Unfailing) (hs : s.Ended) :
    s.client.control = .finished ∧ s.server.control = .finished := by
  obtain ⟨hclient, hserver⟩ := hs
  constructor
  · cases hcontrol : s.client.control with
    | finished => rfl
    | failed e => exact absurd ⟨e, hcontrol⟩ h.client
    | _ => simp [Exchange.Halted, hcontrol] at hclient
  · cases hcontrol : s.server.control with
    | finished => rfl
    | failed e => exact absurd ⟨e, hcontrol⟩ h.server
    | _ => simp [ServerLoop.Halted, hcontrol] at hserver

/-- Every response is the server's reply to the message in its place. -/
theorem Inv.response_eq (h : s.Inv cfg false) (hfits : cfg.Fits) (hclient : ¬ s.client.Failing)
    {i : ℕ} {m response : Message} (hm : cfg.client.messages[i]? = some m)
    (hi : s.client.responses[i]? = some response) :
    handleMessage (cfg.server.labels i).reply m cfg.server.ctx.profile cfg.server.ctx.outcome =
      some response := by
  obtain ⟨text, htext⟩ : ∃ text, s.client.frames[i]? = some text := by
    have hlt := (List.getElem?_eq_some_iff.mp hi).1
    rw [← h.client.frames_length hclient] at hlt
    exact ⟨_, List.getElem?_eq_getElem hlt⟩
  obtain ⟨response', hresponse, hread⟩ := h.client.parsed_of_running hclient htext
  obtain ⟨-, m', reply, hm', hreply, hparse⟩ :=
    h.served_payload hfits hclient (getElem?_mono h.responses_prefix htext)
  rw [hm, Option.some.injEq] at hm'
  subst hm'
  rw [hi, Option.some.injEq] at hresponse
  subst hresponse
  rw [hparse, Except.ok.injEq] at hread
  rwa [← hread]

/-- All turns of the list are steps over a transport that does not fail. -/
def CleanAll (cfg : SessionSetting) : Session → List Turn → Prop
  | _, [] => True
  | s, next :: turns => (s.Permits false next ∧ s.Able next ∧ s.undisturbed next = true) ∧
    CleanAll cfg (s.turn cfg next) turns

instance decidableCleanAll (cfg : SessionSetting) :
    ∀ s turns, Decidable (CleanAll cfg s turns)
  | _, [] => .isTrue trivial
  | s, next :: turns =>
    have := decidableCleanAll cfg (s.turn cfg next) turns
    inferInstanceAs (Decidable ((s.Permits false next ∧ s.Able next ∧ s.undisturbed next = true) ∧
      CleanAll cfg (s.turn cfg next) turns))

/-- Such a list leads to a session that can be reached in this way. -/
theorem clean_play {turns : List Turn} (hs : s.CleanReachable cfg) (hturns : CleanAll cfg s turns) :
    (s.play cfg turns).CleanReachable cfg := by
  induction turns generalizing s with
  | nil => exact hs
  | cons next turns ih =>
    obtain ⟨⟨hpermits, hable, hclean⟩, hrest⟩ := hturns
    exact ih (hs.tail ⟨next, hpermits, hable, hclean, rfl⟩) hrest

end Session

/-- Total correctness of a session. If the messages of the client travel, if they and the replies
fit into the frames of both sides and there are not more than the server takes, and if the JSON
library conveys their texts, then over a transport that does not fail, in every order of the steps
and however the bytes are cut: every session ends, it can always go on until it does, and then the
client returns the server's reply to each of its messages up to the one that asks the server to
close, and the record of the server is one of success. -/
theorem session_completes (a : ClientAttempt) (b : ServerAttempt) (peer : PeerName)
    (clientDecoder serverDecoder : Framing.Decoder) (hlib : b.lib = a.lib)
    (hfits : (SessionSetting.between a b clientDecoder serverDecoder hlib).Fits) :
    let cfg := SessionSetting.between a b clientDecoder serverDecoder hlib
    (WellFounded fun t s : Session => s.CleanStep cfg false t) ∧
      ∀ s : Session, s.CleanReachable cfg →
        (¬ s.Ended → ∃ t, s.CleanStep cfg false t) ∧
        (s.Ended → ∃ r, a.exchangeResult peer s.client = .ok r ∧
          r.responses.length = (a.messages.takeWhile fun m => m.type ≠ .close).length ∧
          (∀ (i : ℕ) (m response : Message), a.messages[i]? = some m →
            r.responses[i]? = some response →
            handleMessage (b.labels i).reply m b.profile (inspect b.ssl) = some response) ∧
          (b.conclude (b.loopRecord s.server)).success = true) := by
  intro cfg
  constructor
  · refine Subrelation.wf ?_ (Session.wellFounded_able cfg)
    rintro t s ⟨next, -, hable, -, rfl⟩
    exact ⟨next, hable, rfl⟩
  intro s hs
  have hreachable := Session.reachable_of_clean hs
  have hinv := Session.inv_of_reachable hreachable
  have hunfailing := Session.unfailing_of_clean hfits hs
  refine ⟨hinv.exists_cleanStep (Session.waits_of_reachable hreachable), fun hended => ?_⟩
  obtain ⟨hclient, hserver⟩ := hunfailing.finished hended
  obtain ⟨r, hr⟩ : ∃ r, a.exchangeResult peer s.client = .ok r := by
    simp [ClientAttempt.exchangeResult, hclient]
  have hresponses := (ClientAttempt.finished_of_result hended.1 hr).2.1
  refine ⟨r, hr, ?_, ?_, ?_⟩
  · rw [hresponses]
    exact hinv.client.length_responses hclient
  · intro i m response hm hi
    rw [hresponses] at hi
    exact hinv.response_eq hfits hunfailing.client hm hi
  · simp only [ServerAttempt.loopRecord, hserver]
    rfl

namespace Session.PingClose

open Session.Ping (request reply wire clientTurn serverTurn requestChunk replyChunk)

/-- The message with which the client asks the server to close the connection. -/
def closing : Message := Message.makeRequest Label.sample .close JsonValue.emptyObject

/-- A library that knows the texts of the session. -/
def library : JsonLibrary := .ofMessages [request, closing, reply]

/-- A client with a request, and with nothing to wait for after it. -/
def client : ClientAttempt :=
  { ClientAttempt.sample library SslView.sample [] with messages := [request, closing] }

/-- The server of the session. -/
def server : ServerAttempt := ServerAttempt.sample library []

/-- A decoder with the default limit. -/
def decoder : Framing.Decoder := .fresh _ (ServerContext.sample library).maxFrameSize_bounds

/-- The setting of the session. -/
def setting : SessionSetting := .between client server decoder decoder rfl

/-- The frame of the second message, as one chunk. -/
def closingChunk : Chunk := ⟨wire closing, by decide +kernel, by decide +kernel⟩

/-- The request is written in two pieces and answered; then the client asks to close the
connection. -/
def turns : List Turn :=
  [clientTurn, clientTurn, serverTurn, clientTurn, clientTurn,
    .server ⟨false, .data requestChunk, .accepted 0⟩, serverTurn, clientTurn, serverTurn,
    serverTurn, serverTurn, .client ⟨.data replyChunk, .accepted 0⟩, clientTurn, clientTurn,
    clientTurn, serverTurn, clientTurn, clientTurn,
    .server ⟨false, .data closingChunk, .accepted 0⟩, serverTurn, serverTurn]

/-- The session when both sides have ended. -/
def final : Session := (Session.start setting).play setting turns

/-- The whole session is one over a transport that does not fail. -/
theorem cleanReachable_final : final.CleanReachable setting :=
  clean_play .refl (by decide +kernel)

/-- Both sides have ended. -/
theorem ended_final : final.Ended := by
  unfold Ended
  exact And.intro (by decide +kernel) (by decide +kernel)

/-- The library of the session conveys its texts. -/
theorem library_conveys : library.Conveys [request, closing, reply] where
  readsUtf8 := by
    intro text j h
    have hmem := JsonLibrary.mem_of_parse_ofTable h
    simp only [List.map_cons, List.map_nil, List.mem_cons, List.not_mem_nil, or_false,
      Prod.mk.injEq, Except.ok.injEq] at hmem
    rcases hmem with ⟨-, rfl⟩ | ⟨-, rfl⟩ | ⟨-, rfl⟩
    · decide +kernel
    · decide +kernel
    · decide +kernel
  writesUtf8 := by
    intro bits _
    have hzero : Utf8.valid (ascii "0.0") = true := by decide
    exact hzero
  inverts := by
    intro m hm htext _ text hdump
    rw [JsonLibrary.dump, if_pos htext, Except.ok.injEq] at hdump
    subst hdump
    simp only [List.mem_cons, List.not_mem_nil, or_false] at hm
    rcases hm with rfl | rfl | rfl
    · rfl
    · rfl
    · rfl

/-- The session fits. -/
theorem fits_setting : setting.Fits := by
  have hmessages (m : Message) (hm : m ∈ setting.client.messages) : m = request ∨ m = closing := by
    rcases List.mem_cons.mp hm with hm | hm
    · exact .inl hm
    · exact .inr (List.mem_singleton.mp hm)
  refine ⟨?_, library_conveys, ?_, ?_, by decide, ⟨by decide, by decide, by decide, by decide⟩⟩
  · intro m hm
    rcases hmessages m hm with rfl | rfl
    · exact ⟨rfl, by decide +kernel, by decide +kernel, by decide +kernel, rfl, by decide +kernel,
        by rintro ⟨⟩⟩
    · exact ⟨rfl, by decide +kernel, by decide +kernel, by decide +kernel, rfl, by decide +kernel,
        by rintro ⟨⟩⟩
  · intro m hm
    rcases hmessages m hm with rfl | rfl
    · decide +kernel
    · decide +kernel
  · intro m hm hopen
    rcases hmessages m hm with rfl | rfl
    · decide +kernel
    · exact absurd rfl hopen

end Session.PingClose

open Session.PingClose in
/-- A session of a request and the message that closes it ends with one response and a record of
success. -/
theorem session_completes_ping :
    ∃ r, client.exchangeResult .unavailable final.client = .ok r ∧ r.responses.length = 1 ∧
      (server.conclude (server.loopRecord final.server)).success = true := by
  obtain ⟨r, hr, hlength, -, hsuccess⟩ :=
    ((session_completes client server .unavailable decoder decoder rfl fits_setting).2 final
      cleanReachable_final).2 ended_final
  exact ⟨r, hr, hlength, hsuccess⟩

end PqtlsLab
