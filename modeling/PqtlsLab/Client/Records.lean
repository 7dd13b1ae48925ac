import PqtlsLab.Client.Failures
import PqtlsLab.Connection.RecordText

/-!
# What the client records

`run_once` catches the exceptions of `connect_and_exchange` and then completes and
writes the record, which throws if a text in it is not UTF-8. The record of a failure
consists of the exception and of what `run_once` itself knows; what had been observed
of the connection is gone with the local result of `connect_and_exchange`.
-/

namespace PqtlsLab

open Message

/-- A response in one chunk. -/
def Chunk.pong : Chunk where
  bytes := Framing.frame (minimalText .pong)
  length_pos := by decide
  length_le := by decide

/-- The library that complains about one text is documented. -/
theorem accentedLibrary_documented : accentedLibrary.Documented := by
  apply JsonLibrary.ofTable_documented
  · intro entry hentry j hj
    rw [List.mem_singleton.mp hentry] at hj
    cases hj
  · intro entry hentry x hx
    rw [List.mem_singleton.mp hentry] at hx
    cases hx
    exact ⟨accentedComplaint, rfl⟩

/-- The library of the shortest messages is documented. -/
theorem minimalLibrary_documented : minimalLibrary.Documented := by
  apply JsonLibrary.ofTable_documented
  · intro entry hentry j hj
    obtain ⟨type, -, rfl⟩ := List.mem_map.mp hentry
    cases hj
    cases type <;> decide
  · intro entry hentry x hx
    obtain ⟨type, -, rfl⟩ := List.mem_map.mp hentry
    cases hx

namespace ClientAttempt

variable {a : ClientAttempt}

/-- The record of an exception can be written exactly when its message is UTF-8. -/
theorem textValid_withError_iff (h : a.TextValid) (e : Thrown) :
    (a.completeRecord (({} : ConnectionMetrics).withError e)).TextValid ↔
      Utf8.valid e.message = true := by
  constructor
  · exact fun hvalid => hvalid.errorMessage e.message rfl
  · intro hmessage
    refine ⟨h.experimentId, (plain_generateUuidV4 _).valid, h.profileId, rfl, rfl, rfl, rfl, rfl,
      ?_, rfl, (plain_iso8601Now _).valid⟩
    rintro _ ⟨rfl⟩
    exact hmessage

/-- The record of a successful exchange can be written. -/
theorem textValid_completeRecord (h : a.TextValid) {peer : PeerName}
    (hpeer : Utf8.valid peer.address = true) {x : Exchange} {r : ClientResult}
    (hr : a.exchangeResult peer x = .ok r) : (a.completeRecord r.metrics).TextValid := by
  unfold exchangeResult at hr
  split at hr
  · cases hr
  · cases hr
    have hauth : Utf8.valid (a.negotiatedRecord peer).authentication = true := by
      unfold negotiatedRecord
      simp only
      split
      · exact a.profile.authentication.plain_toText.valid
      · exact h.ssl.peerSignature
    have hid : Utf8.valid (a.negotiatedRecord peer).connectionId = true :=
      (plain_generateUuidV4 _).valid
    have htime : Utf8.valid (a.negotiatedRecord peer).timestamp = true := (plain_iso8601Now _).valid
    refine ⟨h.experimentId, ?_, h.profileId, h.profile, h.ssl.version, h.ssl.groupName,
      h.ssl.cipherName, hauth, ?_, hpeer, ?_⟩
    · simp only [completeRecord]
      split
      · exact (plain_generateUuidV4 _).valid
      · exact hid
    · rintro _ ⟨⟩
    · simp only [completeRecord]
      split
      · exact (plain_iso8601Now _).valid
      · exact htime

/-- Without the exchange, the exception is described in UTF-8. -/
theorem error_of_no_exchange (h : a.TextValid) (hnone : a.connectAndExchange.exchange = none) :
    ∃ e, a.connectAndExchange.result = .error e ∧ Utf8.valid e.message = true := by
  have hsetup := described_setUp h
  have hpolicy := described_checkPolicy h
  unfold connectAndExchange at hnone ⊢
  cases hpeer : a.setUp with
  | error e =>
    rw [hpeer] at hsetup
    exact ⟨e, rfl, hsetup⟩
  | ok peer =>
    simp only [hpeer] at hnone ⊢
    cases hconnect : a.connectFailure with
    | some failure => exact ⟨_, rfl, valid_handshakeFailure h failure⟩
    | none =>
      simp only [hconnect] at hnone ⊢
      cases hchecked : a.checkPolicy with
      | error e =>
        rw [hchecked] at hpolicy
        exact ⟨e, rfl, hpolicy⟩
      | ok decoder => simp [hchecked] at hnone

/-- An attempt that is not successful has ended with an exception. -/
theorem error_of_not_ok (h : a.clientResult.ok = false) :
    ∃ e, a.connectAndExchange.result = .error e := by
  cases hresult : a.connectAndExchange.result with
  | error e => exact ⟨e, rfl⟩
  | ok r =>
    obtain ⟨x, hx⟩ := exchange_of_result hresult
    obtain ⟨peer, _, -, -, -, -, hexchange⟩ := policy_of_exchange hx
    rw [hresult] at hexchange
    unfold exchangeResult at hexchange
    split at hexchange
    · cases hexchange
    · cases hexchange
      simp [clientResult, outcomeOrError, hresult] at h

/-- The record can be written unless the client has taken a response with which the reader
has trouble. -/
theorem textValid_record_iff (h : a.TextValid) (hlib : a.lib.Documented) :
    a.clientResult.metrics.TextValid ↔
      ∀ x, a.connectAndExchange.exchange = some x →
        ∀ frame ∈ x.frames, ¬ a.lib.Misquotes frame := by
  have herror {e : Thrown} (he : a.connectAndExchange.result = .error e) :
      a.clientResult.metrics.TextValid ↔ Utf8.valid e.message = true := by
    rw [← textValid_withError_iff h e]
    simp only [clientResult, outcomeOrError, he]
  cases hentered : a.connectAndExchange.exchange with
  | none =>
    obtain ⟨e, he, hvalid⟩ := error_of_no_exchange h hentered
    rw [herror he]
    exact iff_of_true hvalid (by simp)
  | some x =>
    obtain ⟨peer, decoder, hsetup, -, -, rfl, hresult⟩ := policy_of_exchange hentered
    obtain ⟨hinv, horigin⟩ := (a.exchangeEnv decoder).inv_final
    have hpeer := described_setUp h
    rw [hsetup] at hpeer
    constructor
    · rintro hvalid x ⟨rfl⟩ frame hframe hquotes
      obtain ⟨e, hcontrol, hinvalid⟩ := hinv.failed_of_misquotes hlib hframe hquotes
      rw [exchangeResult_eq_error_iff.mpr hcontrol] at hresult
      rw [(herror hresult).mp hvalid] at hinvalid
      cases hinvalid
    · intro hframes
      cases hend : a.exchangeResult peer (a.exchangeEnv decoder).final with
      | ok r =>
        simp only [clientResult, outcomeOrError, hresult, hend]
        exact textValid_completeRecord h hpeer hend
      | error e =>
        rw [herror (hresult.trans hend)]
        exact (horigin e (exchangeResult_eq_error_iff.mp hend)).valid hlib (hframes _ rfl)

/-- A failure is recorded as one. -/
theorem failure_recorded (h : a.clientResult.ok = false) :
    a.clientResult.metrics.success = false ∧ a.clientResult.metrics.errorCategory ≠ .none := by
  obtain ⟨e, he⟩ := error_of_not_ok h
  simp only [clientResult, outcomeOrError, he]
  exact ⟨rfl, e.category_ne_none⟩

/-- `run_once` returns exactly when the writer does. -/
theorem runOnce_eq_ok_iff (a : ClientAttempt) (writer : MetricsWriter) (r : ClientResult) :
    (a.runOnce writer).2 = .ok r ↔
      (writer.write a.lib a.clientResult.metrics).2 = .ok () ∧ r = a.clientResult := by
  unfold runOnce
  split
  · rename_i hwrite
    simp [hwrite, eq_comm]
  · rename_i hwrite
    simp [hwrite]

/-- The records after `run_once` are those after the writer. -/
theorem runOnce_writer (a : ClientAttempt) (writer : MetricsWriter) :
    (a.runOnce writer).1 = (writer.write a.lib a.clientResult.metrics).1 := by
  unfold runOnce
  split
  · rename_i hwrite
    rw [hwrite]
  · rename_i hwrite
    rw [hwrite]

/-- `run_once` returns and leaves exactly one record, one of a failure unless the exchange
has succeeded, if and only if the writer is not enabled or the client has not taken a
response about which the JSON reader complains in text that is not UTF-8. -/
theorem run_once_leaves_record_iff (a : ClientAttempt) (writer : MetricsWriter)
    (h : a.TextValid) (hlib : a.lib.Documented) :
    (∃ r, (a.runOnce writer).2 = .ok r ∧
        (writer.enabled = true → (a.runOnce writer).1.records = writer.records ++ [r.metrics] ∧
          (r.ok = false → r.metrics.success = false ∧ r.metrics.errorCategory ≠ .none))) ↔
      (writer.enabled = true → ∀ x, a.connectAndExchange.exchange = some x →
        ∀ frame ∈ x.frames, ¬ a.lib.Misquotes frame) := by
  rw [← textValid_record_iff h hlib, ← writer.write_eq_ok_iff a.lib]
  constructor
  · rintro ⟨r, hr, -⟩
    exact ((a.runOnce_eq_ok_iff writer r).mp hr).1
  · intro hwrite
    refine ⟨a.clientResult, (a.runOnce_eq_ok_iff writer _).mpr ⟨hwrite, rfl⟩, fun henabled => ?_⟩
    rw [runOnce_writer]
    exact ⟨MetricsWriter.records_of_write henabled hwrite, failure_recorded⟩

/-- The texts of the sample attempt are UTF-8. -/
theorem textValid_sample (lib : JsonLibrary) (chunks : List Chunk) :
    (ClientAttempt.sample lib SslView.sample chunks).TextValid where
  profileId := rfl
  experimentId := rfl
  host := rfl
  serverName := rfl
  profile := rfl
  groups := by
    change ∀ group ∈ SecurityProfile.hybrid.groups, Utf8.valid group = true
    decide
  resolution := by
    intro attempt hattempt
    rw [List.mem_singleton.mp hattempt]
    change Utf8.valid (_ ++ _ ++ _) = true
    decide
  receiveTimeout := by rintro _ ⟨⟩
  sendTimeout := by rintro _ ⟨⟩
  ssl := ⟨rfl, rfl, rfl, rfl, by rintro _ ⟨rfl⟩; decide⟩

/-- A response that is not JSON is complained about in plain text, and there is a record. -/
theorem run_once_leaves_record_plain :
    let a := ClientAttempt.sample minimalLibrary SslView.sample
      [⟨Framing.frame (ascii "x"), by decide, by decide⟩]
    ∃ r, (a.runOnce ⟨true, [], []⟩).2 = .ok r ∧
      (a.runOnce ⟨true, [], []⟩).1.records = [r.metrics] := by
  intro a
  let env := a.exchangeEnv .standard
  have hexchange : a.connectAndExchange.exchange = some env.final := rfl
  have hfinal : env.final = env.state 6 := env.final_eq_state (by decide +kernel)
  have hframes : ∀ x, a.connectAndExchange.exchange = some x →
      ∀ frame ∈ x.frames, ¬ a.lib.Misquotes frame := by
    rintro x hx frame hframe ⟨-, what, hparse, hinvalid⟩
    rw [hexchange, Option.some.injEq] at hx
    subst hx
    have hone : env.final.frames = [ascii "x"] := by
      rw [hfinal]
      decide +kernel
    rw [hone, List.mem_singleton] at hframe
    subst hframe
    have hcomplaint : ∃ what, minimalLibrary.parse (ascii "x") = .error (.parseError what) ∧
        Utf8.valid what = true := ⟨_, rfl, by decide⟩
    obtain ⟨what', hparse', hvalid⟩ := hcomplaint
    rw [show a.lib.parse (ascii "x") = _ from hparse'] at hparse
    cases hparse
    rw [hvalid] at hinvalid
    cases hinvalid
  have hiff := a.run_once_leaves_record_iff ⟨true, [], []⟩ (textValid_sample _ _)
    minimalLibrary_documented
  obtain ⟨r, hr, hrecord⟩ := hiff.mpr fun _ => hframes
  exact ⟨r, hr, (hrecord rfl).1⟩

/-- A response about which the reader complains in text that is not UTF-8 makes `run_once`
throw. -/
theorem run_once_throws :
    ¬ ∀ (a : ClientAttempt) (writer : MetricsWriter), a.TextValid → a.lib.Documented →
      ∃ r, (a.runOnce writer).2 = .ok r ∧
        (writer.enabled = true → (a.runOnce writer).1.records = writer.records ++ [r.metrics] ∧
          (r.ok = false → r.metrics.success = false ∧ r.metrics.errorCategory ≠ .none)) := by
  intro h
  let a := ClientAttempt.sample accentedLibrary SslView.sample
    [⟨Framing.frame accented, by decide, by decide⟩]
  let env := a.exchangeEnv .standard
  have hvalid : a.TextValid := textValid_sample _ _
  have hlib : a.lib.Documented := accentedLibrary_documented
  obtain ⟨r, hr, -⟩ := h a ⟨true, [], []⟩ hvalid hlib
  have hwrite := ((a.runOnce_eq_ok_iff _ r).mp hr).1
  have hrecord := (MetricsWriter.write_eq_ok_iff _ _ _).mp hwrite rfl
  have hexchange : a.connectAndExchange.exchange = some env.final := rfl
  have hframes : accented ∈ env.final.frames := by
    rw [env.final_eq_state (n := 6) (by decide +kernel)]
    decide +kernel
  refine (textValid_record_iff hvalid hlib).mp hrecord env.final hexchange accented hframes ?_
  exact ⟨⟨by decide, by decide⟩, accentedComplaint, rfl, by decide⟩

/-- The record carries what has been observed of the handshake. -/
structure Observed (a : ClientAttempt) (peer : PeerName) (m : ConnectionMetrics) : Prop where
  tlsVersion : m.tlsVersion = (inspect a.ssl).tlsVersion
  negotiatedGroup : m.negotiatedGroup = (inspect a.ssl).negotiatedGroup
  cipherSuite : m.cipherSuite = (inspect a.ssl).cipherSuite
  sessionReused : m.sessionReused = (inspect a.ssl).sessionReused
  peerAddress : m.peerAddress = peer.address
  handshakeMs : m.handshakeMs = a.handshakeMs

/-- A record of a failure after a completed handshake never carries what has been observed:
it has no address of the peer, and every peer has one. -/
theorem failed_record_not_observed (a : ClientAttempt) {peer : PeerName}
    (_hsetup : a.setUp = .ok peer) (_hconnect : a.connectFailure = none)
    (hfailed : a.clientResult.ok = false) : ¬ a.Observed peer a.clientResult.metrics := by
  obtain ⟨e, he⟩ := error_of_not_ok hfailed
  intro hobserved
  have haddress := hobserved.peerAddress
  simp only [clientResult, outcomeOrError, he] at haddress
  exact peer.address_ne_nil haddress.symm

/-- The record of a rejected downgrade does not carry the group that was rejected. -/
theorem failed_record_not_observed_downgrade :
    let a := ClientAttempt.sample minimalLibrary
      { SslView.sample with groupName := some (ascii "x25519") } []
    a.clientResult.ok = false ∧ a.clientResult.metrics.negotiatedGroup = [] ∧
      ¬ a.Observed (.inet (ascii "127.0.0.1") 8443) a.clientResult.metrics := by
  intro a
  have hfailed : a.clientResult.ok = false := by decide +kernel
  exact ⟨hfailed, by decide +kernel, a.failed_record_not_observed rfl rfl hfailed⟩

/-- The record of a rejected downgrade has lost the handshake. -/
theorem failed_record_loses_handshake :
    ¬ ∀ (a : ClientAttempt) (peer : PeerName), a.setUp = .ok peer → a.connectFailure = none →
      a.clientResult.ok = false → a.Observed peer a.clientResult.metrics := by
  intro h
  let a := ClientAttempt.sample minimalLibrary
    { SslView.sample with groupName := some (ascii "x25519") } []
  have hobserved := h a (.inet (ascii "127.0.0.1") 8443) rfl rfl (by decide +kernel)
  exact absurd hobserved.negotiatedGroup (by decide +kernel)

end ClientAttempt

end PqtlsLab
