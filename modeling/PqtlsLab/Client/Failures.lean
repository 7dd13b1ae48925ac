import PqtlsLab.Client.Connection
import PqtlsLab.Client.ExchangeInvariant
import PqtlsLab.Protocol.MessageReject

/-!
# The texts of the client's exceptions

The messages of the exceptions are composed of constants, of settings, of texts that
OpenSSL and the operating system provide, and of what the peer has sent. The latter
enters only when a response is rejected. As long as the former are UTF-8, an
exception whose message is not can only come from a response that the JSON reader
rejects, quoting it.
-/

namespace PqtlsLab

open Message

/-- What the JSON library guarantees: its reader delivers UTF-8, and the texts of its
exceptions are UTF-8 except for those of `parse_error`, which quote the input. -/
structure JsonLibrary.Documented (lib : JsonLibrary) : Prop where
  readsUtf8 : lib.ReadsUtf8
  typeErrorText : ∀ j, Utf8.valid (lib.typeErrorText j) = true
  otherText : ∀ text x, lib.parse text = .error x → (∀ what, x ≠ .parseError what) →
    Utf8.valid x.toThrown.message = true

/-- A table of valid documents and of complaints makes a documented library. -/
theorem JsonLibrary.ofTable_documented {known : List (Bytes × Except JsonException JsonValue)}
    (hok : ∀ entry ∈ known, ∀ j, entry.2 = .ok j → j.val.textValid = true)
    (herror : ∀ entry ∈ known, ∀ x, entry.2 = .error x → ∃ what, x = .parseError what) :
    (JsonLibrary.ofTable known).Documented where
  readsUtf8 := JsonLibrary.ofTable_readsUtf8 hok
  typeErrorText _ := by
    change Utf8.valid (ascii _) = true
    decide
  otherText := by
    intro text x hparse hx
    unfold JsonLibrary.ofTable at hparse
    simp only at hparse
    cases hlookup : known.lookup text with
    | none =>
      simp only [hlookup, Option.getD_none, Except.error.injEq] at hparse
      exact absurd hparse.symm (hx _)
    | some result =>
      simp only [hlookup, Option.getD_some] at hparse
      obtain ⟨before, after, rfl, -⟩ := List.lookup_eq_some_iff.mp hlookup
      obtain ⟨what, rfl⟩ := herror (text, result) (by simp) x hparse
      exact absurd rfl (hx what)

/-- The texts in the report of OpenSSL are UTF-8. -/
structure SslView.TextValid (ssl : SslView) : Prop where
  version : Utf8.valid (ssl.version.getD []) = true
  cipherName : Utf8.valid (ssl.cipherName.getD []) = true
  groupName : Utf8.valid (ssl.groupName.getD []) = true
  peerSignature : Utf8.valid (ssl.peerSignature.getD []) = true
  verifyText : ∀ text, ssl.verifyText = some text → Utf8.valid text = true

/-- The text that the operating system reports for an attempt to connect is UTF-8. -/
def ConnectAttempt.TextValid : ConnectAttempt → Prop
  | .socketFailed text => Utf8.valid text = true
  | .timeoutFailed => True
  | .connectFailed text => Utf8.valid text = true
  | .connected peer => Utf8.valid peer.address = true

/-- The texts of `getaddrinfo` and of the attempts that follow are UTF-8. -/
def Resolution.TextValid : Resolution → Prop
  | .unresolved text => Utf8.valid text = true
  | .addresses attempts => ∀ attempt ∈ attempts, attempt.TextValid

namespace ClientAttempt

/-- The settings and the texts of OpenSSL and of the operating system are UTF-8. -/
structure TextValid (a : ClientAttempt) : Prop where
  profileId : Utf8.valid a.config.common.profileId = true
  experimentId : Utf8.valid a.config.common.experimentId = true
  host : Utf8.valid a.config.host = true
  serverName : Utf8.valid a.config.serverName = true
  profile : Utf8.valid a.profile.id = true
  groups : ∀ group ∈ a.profile.groups, Utf8.valid group = true
  resolution : a.resolution.TextValid
  receiveTimeout : ∀ text, a.timeouts.receive = some text → Utf8.valid text = true
  sendTimeout : ∀ text, a.timeouts.send = some text → Utf8.valid text = true
  ssl : a.ssl.TextValid

end ClientAttempt

/-- The computation returns something good or throws an exception described in UTF-8. -/
def Described {α : Type} (Good : α → Prop) : Except Thrown α → Prop
  | .ok a => Good a
  | .error e => Utf8.valid e.message = true

/-- A sequence of described computations is described. -/
theorem Described.bind {α β : Type} {Good : α → Prop} {Better : β → Prop} {x : Except Thrown α}
    {f : α → Except Thrown β} (hx : Described Good x)
    (hf : ∀ a, Good a → Described Better (f a)) : Described Better (x >>= f) := by
  cases x with
  | ok a => exact hf a hx
  | error e => exact hx

/-- The first connection has a name that is UTF-8, and so is the last error. -/
theorem firstConnection_textValid {attempts : List ConnectAttempt} {lastError : Bytes}
    (hattempts : ∀ attempt ∈ attempts, attempt.TextValid) (hlast : Utf8.valid lastError = true) :
    match firstConnection lastError attempts with
    | .ok peer => Utf8.valid peer.address = true
    | .error text => Utf8.valid text = true := by
  induction attempts generalizing lastError with
  | nil => exact hlast
  | cons attempt attempts ih =>
    simp only [List.mem_cons, forall_eq_or_imp] at hattempts
    obtain ⟨hfirst, hrest⟩ := hattempts
    cases attempt with
    | socketFailed text => exact ih hrest hfirst
    | timeoutFailed => exact ih hrest (by decide)
    | connectFailed text => exact ih hrest hfirst
    | connected peer => exact hfirst

/-- `tcp_connect` is described. -/
theorem described_tcpConnect {host : Bytes} (port : UInt16) {resolution : Resolution}
    (hhost : Utf8.valid host = true) (h : resolution.TextValid) :
    Described (fun peer => Utf8.valid peer.address = true) (tcpConnect host port resolution) := by
  cases resolution with
  | unresolved text =>
    exact Utf8.valid_append (Utf8.valid_append (Utf8.valid_append (by decide) hhost) (by decide)) h
  | addresses attempts =>
    have hfirst :=
      @firstConnection_textValid attempts (ascii "no addresses were returned") h (by decide)
    unfold tcpConnect
    split at hfirst
    · rename_i peer heq
      simp only [heq]
      exact hfirst
    · rename_i text heq
      simp only [heq]
      exact Utf8.valid_append (Utf8.valid_append (Utf8.valid_append (Utf8.valid_append
        (Utf8.valid_append (by decide) hhost) (by decide)) (Utf8.valid_decimal _)) (by decide))
        hfirst

/-- `set_timeouts` is described. -/
theorem described_setTimeouts {calls : TimeoutCalls}
    (hreceive : ∀ text, calls.receive = some text → Utf8.valid text = true)
    (hsend : ∀ text, calls.send = some text → Utf8.valid text = true) :
    Described (fun _ => True) (setTimeouts calls) := by
  unfold setTimeouts
  split
  · rename_i text htext
    exact Utf8.valid_append (by decide) (hreceive text htext)
  · split
    · rename_i text htext
      exact Utf8.valid_append (by decide) (hsend text htext)
    · trivial

/-- The description of a verification result is UTF-8. -/
theorem valid_describeVerifyResult {ssl : SslView} (h : ssl.TextValid) :
    Utf8.valid (describeVerifyResult ssl) = true := by
  apply Utf8.valid_append
  · cases htext : ssl.verifyText with
    | none => decide
    | some text => exact h.verifyText text htext
  · unfold verifyHint
    split
    · decide
    split
    · decide
    split
    · decide
    split
    · decide
    · rfl

/-- Joined texts are UTF-8. -/
theorem valid_join {items : List Bytes} (h : ∀ item ∈ items, Utf8.valid item = true) :
    Utf8.valid (join items 0x20) = true := by
  unfold join
  induction items with
  | nil => rfl
  | cons item items ih =>
    simp only [List.mem_cons, forall_eq_or_imp] at h
    cases items with
    | nil => simpa using h.1
    | cons next rest =>
      rw [List.intercalate_cons_cons]
      exact Utf8.valid_append (Utf8.valid_append h.1 (by decide)) (ih h.2)

/-- The explanation of a rejected group is UTF-8. -/
theorem SecurityProfile.valid_explainGroupRejection {p : SecurityProfile} {group : Bytes}
    (hid : Utf8.valid p.id = true) (hgroups : ∀ g ∈ p.groups, Utf8.valid g = true)
    (hgroup : Utf8.valid group = true) : Utf8.valid (p.explainGroupRejection group) = true := by
  have hjoin := valid_join hgroups
  unfold explainGroupRejection
  split
  · exact Utf8.valid_append (Utf8.valid_append (Utf8.valid_append (Utf8.valid_append (by decide)
      hid) (by decide)) hjoin) (by decide)
  split
  · exact Utf8.valid_append (Utf8.valid_append (Utf8.valid_append (Utf8.valid_append
      (Utf8.valid_append (Utf8.valid_append (by decide) hgroup) (by decide)) hid) (by decide))
      hjoin) (by decide)
  · exact Utf8.valid_append (Utf8.valid_append (Utf8.valid_append (Utf8.valid_append (by decide)
      hgroup) (by decide)) hid) (by decide)

/-- The check of the peer is described. -/
theorem described_enforcePeerVerification {ssl : SslView} (h : ssl.TextValid)
    (config : CommonConfig) (required : Bool) :
    Described (fun _ => True) (enforcePeerVerification ssl config required) := by
  unfold enforcePeerVerification
  split
  · trivial
  split
  · exact Utf8.valid_append (by decide) (valid_describeVerifyResult h)
  split
  · exact Utf8.valid_append (Utf8.valid_append (by decide) (by decide)) (by decide)
  · trivial

namespace ClientAttempt

variable {a : ClientAttempt}

/-- What precedes the handshake is described. -/
theorem described_setUp (h : a.TextValid) :
    Described (fun peer => Utf8.valid peer.address = true) a.setUp := by
  have hname : Utf8.valid a.config.effectiveServerName = true := by
    unfold ClientConfig.effectiveServerName
    split
    · exact h.host
    · exact h.serverName
  refine (described_tcpConnect a.config.port h.host h.resolution).bind fun peer hpeer => ?_
  refine (described_setTimeouts h.receiveTimeout h.sendTimeout).bind fun _ _ => ?_
  split
  · change Utf8.valid (ascii "SSL_new failed") = true
    decide
  split
  · change Utf8.valid (ascii "SSL_set_fd failed") = true
    decide
  split
  · exact Utf8.valid_append (Utf8.valid_append (by decide) hname) (by decide)
  split
  · exact Utf8.valid_append (Utf8.valid_append (by decide) hname) (by decide)
  · exact hpeer

/-- The exception for a handshake that failed is described in UTF-8. -/
theorem valid_handshakeFailure (h : a.TextValid) (failure : SslFailure) :
    Utf8.valid (a.handshakeFailure failure).message = true := by
  unfold handshakeFailure
  split
  · exact Utf8.valid_append (by decide) (valid_describeVerifyResult h.ssl)
  split
  all_goals first
    | exact Utf8.valid_append (Utf8.valid_append (Utf8.valid_append (by decide) h.host)
        (by decide)) (Utf8.valid_decimal _)
    | (change Utf8.valid (ascii _) = true; decide)

/-- The checks between the handshake and the exchange are described. -/
theorem described_checkPolicy (h : a.TextValid) :
    Described (fun _ => True) a.checkPolicy := by
  refine (described_enforcePeerVerification h.ssl a.config.common true).bind fun _ _ => ?_
  have hgroup : Described (fun _ => True) (enforceGroupPolicy a.profile (inspect a.ssl)) := by
    unfold enforceGroupPolicy
    split
    · trivial
    · exact Utf8.valid_append (by decide)
        (a.profile.valid_explainGroupRejection h.profile h.groups h.ssl.groupName)
  refine hgroup.bind fun _ _ => ?_
  unfold Framing.Decoder.create
  split
  · trivial
  · exact Utf8.valid_append (Utf8.valid_append (Utf8.valid_append (Utf8.valid_append (by decide)
      (Utf8.valid_decimal _)) (by decide)) (Utf8.valid_decimal _)) (by decide)

end ClientAttempt

/-- `framing::encode` is described. -/
theorem Framing.described_encode (payload : Bytes) (maxFrameSize : ℕ) :
    Described (fun _ => True) (Framing.encode payload maxFrameSize) := by
  unfold Framing.encode
  split
  · exact Utf8.valid_append (Utf8.valid_append (by decide) (Utf8.valid_decimal _)) (by decide)
  split
  · change Utf8.valid (ascii "refusing to encode a zero-length frame") = true
    decide
  split
  · exact Utf8.valid_append (Utf8.valid_append (Utf8.valid_append (Utf8.valid_append (by decide)
      (Utf8.valid_decimal _)) (by decide)) (Utf8.valid_decimal _)) (by decide)
  · trivial

/-- `framing::decode_length` is described. -/
theorem Framing.described_decodeLength (header : Bytes) (maxFrameSize : ℕ) :
    Described (fun _ => True) (Framing.decodeLength header maxFrameSize) := by
  unfold Framing.decodeLength
  split
  · simp only
    split
    · change Utf8.valid (ascii "frame announces a zero-length payload, which is never valid") = true
      decide
    split
    · exact Utf8.valid_append (Utf8.valid_append (Utf8.valid_append (Utf8.valid_append (by decide)
        (Utf8.valid_decimal _)) (by decide)) (Utf8.valid_decimal _)) (by decide)
    · trivial
  · exact Utf8.valid_append (Utf8.valid_append (Utf8.valid_append (by decide)
      (Utf8.valid_decimal _)) (by decide)) (Utf8.valid_decimal _)

/-- An illegal header is described in UTF-8. -/
theorem Framing.valid_of_illegal {maxFrameSize : ℕ} {stream : Bytes} {e : Thrown}
    (h : Framing.front maxFrameSize stream = .illegal e) : Utf8.valid e.message = true := by
  unfold Framing.front at h
  split at h
  · cases h
  · have hlength := Framing.described_decodeLength (stream.take Framing.kHeaderSize) maxFrameSize
    split at h
    · rename_i hdecode
      cases h
      rwa [hdecode] at hlength
    · split at h <;> cases h

/-- A transport failure is described in UTF-8, if the operation is. -/
theorem valid_throwSslError {operation : Bytes} (h : Utf8.valid operation = true)
    (failure : SslFailure) : Utf8.valid (throwSslError operation failure).message = true := by
  cases failure <;> exact Utf8.valid_append h (by decide)

/-- The reader rejects the text with a complaint that is not UTF-8. -/
def JsonLibrary.Misquotes (lib : JsonLibrary) (text : Bytes) : Prop :=
  Offered text ∧ ∃ what, lib.parse text = .error (.parseError what) ∧ Utf8.valid what = false

/-- The rejection of a text is described in UTF-8 unless the reader's complaint is not. -/
theorem valid_parse_error_iff {lib : JsonLibrary} (hlib : lib.Documented) {label : Label}
    {text : Bytes} {e : Thrown} (h : Message.parse lib label text = .error e) :
    Utf8.valid e.message = true ↔ ¬ lib.Misquotes text := by
  rcases parse_eq_error h with ⟨hoffered, what, hparse, rfl⟩ | ⟨hoffered, x, hparse, hx, rfl⟩ |
    ⟨hoffered, doc, name, hparse, hshaped, hname, rfl⟩ | ⟨hother, reason, hshort, rfl⟩
  · have hvalid : Utf8.valid (malformedReason what) = Utf8.valid what :=
      Utf8.valid_append_of_valid (by decide) what
    change Utf8.valid (malformedReason what) = true ↔ _
    rw [hvalid]
    constructor
    · rintro hwhat ⟨-, what', hparse', hinvalid⟩
      rw [hparse] at hparse'
      cases hparse'
      rw [hwhat] at hinvalid
      cases hinvalid
    · intro hnot
      by_contra hinvalid
      exact hnot ⟨hoffered, what, hparse, by simpa using hinvalid⟩
  · refine iff_of_true (hlib.otherText text x hparse hx) ?_
    rintro ⟨-, what, hparse', -⟩
    rw [hparse] at hparse'
    cases hparse'
    exact hx what rfl
  · refine iff_of_true ?_ ?_
    · have hmember := Json.textValid_of_get? (hlib.readsUtf8 text doc hparse) hname.2.1
      rw [Json.textValid] at hmember
      exact Utf8.valid_append (Utf8.valid_append (by decide) hmember) (by decide)
    · rintro ⟨-, what, hparse', -⟩
      rw [hparse] at hparse'
      cases hparse'
  · refine iff_of_true hshort.plain.valid ?_
    rintro ⟨hoffered, what, hparse', -⟩
    obtain ⟨doc, hparse, -⟩ := hother hoffered
    rw [hparse] at hparse'
    cases hparse'

namespace Exchange

/-- An exception of the exchange is described in UTF-8, unless it comes from a response
with which the reader has trouble. -/
theorem Origin.valid {cfg : ClientSetting} (hlib : cfg.lib.Documented) {x : Exchange} {e : Thrown}
    (h : x.Origin cfg e) (hframes : ∀ frame ∈ x.frames, ¬ cfg.lib.Misquotes frame) :
    Utf8.valid e.message = true := by
  cases h with
  | serialize message h =>
    rw [serialize_eq_error h]
    exact hlib.typeErrorText _
  | encode payload h =>
    have hencode := Framing.described_encode payload cfg.maxFrameSize
    rwa [h] at hencode
  | write failure h =>
    rw [h]
    exact valid_throwSslError (by decide) failure
  | read failure h =>
    rw [h]
    exact valid_throwSslError (by decide) failure
  | header maxFrameSize stream h => exact Framing.valid_of_illegal h
  | closedEarly h =>
    rw [h]
    decide
  | parse i frame hframe h =>
    exact (valid_parse_error_iff hlib h).mpr (hframes frame (List.mem_of_getElem? hframe))

/-- A response with which the reader has trouble ends the exchange with an exception that
is not described in UTF-8. -/
theorem Inv.failed_of_misquotes {cfg : ClientSetting} (hlib : cfg.lib.Documented) {x : Exchange}
    (h : x.Inv cfg) {frame : Bytes} (hframe : frame ∈ x.frames)
    (hquotes : cfg.lib.Misquotes frame) :
    ∃ e, x.control = .failed e ∧ Utf8.valid e.message = false := by
  obtain ⟨i, hi⟩ := List.getElem?_of_mem hframe
  rcases h.parsed i frame hi with ⟨r, -, hok⟩ | ⟨e, he, herror⟩
  · obtain ⟨hoffered, what, hparse, -⟩ := hquotes
    obtain ⟨doc, hdoc, -⟩ := parse_eq_ok hok
    rw [hparse] at hdoc
    cases hdoc
  · refine ⟨e, he, ?_⟩
    rw [Bool.eq_false_iff, ne_eq, valid_parse_error_iff hlib herror, not_not]
    exact hquotes

end Exchange

end PqtlsLab
