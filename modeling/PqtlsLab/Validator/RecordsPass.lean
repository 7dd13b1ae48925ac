import PqtlsLab.Connection.DowngradeSafety
import PqtlsLab.Connection.ObservedFlags
import PqtlsLab.Policy.ProfileRegistry
import PqtlsLab.Validator.RecordRead

/-!
# Every record passes the validator

Whatever becomes of a connection, the record that client or server make of it has the required
fields and claims nothing that its group and its authentication do not support. What the
validator wants of a record is stated once for the fields of a record, and shown for the records
of both roles.
-/

namespace PqtlsLab

/-- A time that a clock can measure: a finite number that is not negative. -/
def IsDuration (bits : UInt64) : Prop :=
  Json.finiteBits bits = true ∧ Json.negativeBits bits = false

/-- What OpenSSL reports of a completed handshake: TLS 1.3, and ASCII names. -/
structure HandshakeOutcome.Reported (o : HandshakeOutcome) : Prop where
  tlsVersion : o.tlsVersion = ascii "TLSv1.3"
  negotiatedGroup : IsAscii o.negotiatedGroup
  peerSignatureAlgorithm : IsAscii o.peerSignatureAlgorithm

namespace Validator

/-- Both checks find no problem with a JSON value, as it is read. -/
def Passes (python : Python) (j : Json) : Prop :=
  ∃ record, j.loaded = .object record ∧ builtinStructuralCheck python record = .ok [] ∧
    semanticCheck python record = []

/-- What the validator wants of a record, in terms of its fields. -/
structure Acceptable (m : ConnectionMetrics) : Prop where
  schemaVersion : m.schemaVersion = kMetricsSchemaVersion
  connectionId : matchesUuidV4 m.connectionId = true
  handshakeMs : IsDuration m.handshakeMs
  connectionMs : IsDuration m.connectionMs
  negotiatedGroup : IsAscii m.negotiatedGroup
  pq : m.pqKeyEstablishment = isPostQuantumGroup m.negotiatedGroup
  hybrid : m.hybridKeyEstablishment = isHybridGroup m.negotiatedGroup
  pqAuthentication : m.pqAuthentication = true → IsAscii m.authentication ∧
    hasSignatureMarker (m.authentication.map asciiLower) = true
  success : m.success = true → m.errorCategory = .none ∧ m.tlsVersion = ascii "TLSv1.3" ∧
    m.negotiatedGroup ≠ []

/-- A success under a profile that announces post-quantum key establishment has it. -/
def KeepsPromise (m : ConnectionMetrics) : Prop :=
  m.success = true → announcesPostQuantum m.requestedProfile = true →
    isPostQuantumGroup m.negotiatedGroup = true

variable {python : Python} {m : ConnectionMetrics}

/-- The category of a record is one that the validator knows. -/
theorem isElementOf_errorCategories (m : ConnectionMetrics) :
    (m.loadedRecord.get (ascii "error_category")).isElementOf errorCategories = .ok true := by
  rw [ConnectionMetrics.get_loadedRecord rfl]
  cases m.errorCategory <;> decide

/-- The role of a record is one that the validator knows. -/
theorem isElementOf_roles (m : ConnectionMetrics) :
    (m.loadedRecord.get (ascii "role")).isElementOf
      [some (ascii "client"), some (ascii "server")] = .ok true := by
  rw [ConnectionMetrics.get_loadedRecord rfl]
  cases m.role <;> decide

/-- A duration is read as it was written. -/
theorem loaded_float {bits : UInt64} (h : IsDuration bits) :
    (JsonValue.float bits).val.loaded = .float bits := by
  simp [JsonValue.float, Json.loaded, h.1]

/-- An acceptable record has no structural problem. -/
theorem builtinStructuralCheck_of_acceptable (h : Acceptable m) :
    builtinStructuralCheck python m.loadedRecord = .ok [] := by
  have hfield {key : Bytes} {v : JsonValue} {expected : FieldType}
      (hkey : m.fields.lookup key = some v) (htype : expected.isInstance v.val.loaded = true)
      (hbool : expected = .int → FieldType.bool.isInstance v.val.loaded = false) :
      fieldProblem m.loadedRecord key expected = [] :=
    fieldProblem_eq_nil_iff.mpr ⟨_, ConnectionMetrics.lookup_loadedRecord hkey, htype, hbool⟩
  have hduration {bits : UInt64} (hbits : IsDuration bits) :
      FieldType.number.isInstance (JsonValue.float bits).val.loaded = true := by
    rw [loaded_float hbits]
    rfl
  rw [builtinStructuralCheck_eq_nil_iff]
  refine ⟨?_, ?_, ?_, isElementOf_roles m, isElementOf_errorCategories m, ?_, ?_⟩
  · simp only [requiredFields, List.forall_mem_cons, List.not_mem_nil, false_imp_iff, implies_true,
      and_true]
    exact ⟨hfield rfl rfl (fun _ => rfl), hfield rfl rfl nofun, hfield rfl rfl nofun,
      hfield rfl rfl nofun, hfield rfl rfl nofun, hfield rfl rfl nofun, hfield rfl rfl nofun,
      hfield rfl (hduration h.handshakeMs) nofun, hfield rfl (hduration h.connectionMs) nofun,
      hfield rfl rfl nofun, hfield rfl rfl nofun⟩
  · rw [ConnectionMetrics.get_loadedRecord rfl, h.schemaVersion]
    rfl
  · rw [ConnectionMetrics.get_loadedRecord rfl]
    change problemIf (!matchesUuidV4 m.connectionId) _ = []
    rw [problemIf_eq_nil_iff, h.connectionId, Bool.not_true]
  · rw [ConnectionMetrics.get_loadedRecord rfl, loaded_float h.handshakeMs]
    exact h.handshakeMs.2
  · rw [ConnectionMetrics.get_loadedRecord rfl, loaded_float h.connectionMs]
    exact h.connectionMs.2

/-- A text of a record is read in lower case. -/
theorem loweredText_loadedRecord {key text : Bytes}
    (h : m.fields.lookup key = some (.string text)) :
    loweredText python m.loadedRecord key = python.lower text := by
  rw [loweredText, ConnectionMetrics.lookup_loadedRecord h]
  rfl

/-- A truth value of a record is read as it is. -/
theorem isTrue_loadedRecord {key : Bytes} {b : Bool}
    (h : m.fields.lookup key = some (.bool b)) : (m.loadedRecord.get key).isTrue = b := by
  rw [ConnectionMetrics.get_loadedRecord h]
  rfl

/-- An acceptable record of success has what the validator wants of one. -/
theorem successProblems_of_acceptable (h : Acceptable m) (hok : m.success = true) :
    successProblems python m.loadedRecord = [] := by
  obtain ⟨hcategory, hversion, hne⟩ := h.success hok
  have hgroup : loweredText python m.loadedRecord (ascii "negotiated_group") =
      python.lower m.negotiatedGroup := loweredText_loadedRecord rfl
  have hget : m.loadedRecord.get (ascii "tls_version") = .string (ascii "TLSv1.3") := by
    rw [ConnectionMetrics.get_loadedRecord rfl, hversion]
    rfl
  have herror : m.loadedRecord.get (ascii "error_category") = .null := by
    rw [ConnectionMetrics.get_loadedRecord rfl, hcategory]
    rfl
  rw [successProblems_eq_nil_iff, hget, herror, hgroup]
  exact ⟨by decide, python.lower_ne_nil _ hne, by decide, fun _ => by decide⟩

/-- An acceptable record that keeps the promise of its profile has no semantic problem. -/
theorem semanticCheck_of_acceptable (h : Acceptable m) (hpromise : KeepsPromise m) :
    semanticCheck python m.loadedRecord = [] := by
  have hgroup : loweredText python m.loadedRecord (ascii "negotiated_group") =
      python.lower m.negotiatedGroup := loweredText_loadedRecord rfl
  have hauth : loweredText python m.loadedRecord (ascii "authentication") =
      python.lower m.authentication := loweredText_loadedRecord rfl
  have hprofile : python.str
      ((m.loadedRecord.lookup (ascii "requested_profile")).getD (.string [])) =
      m.requestedProfile := by
    rw [ConnectionMetrics.lookup_loadedRecord rfl]
    rfl
  have hsuccess : (m.loadedRecord.get (ascii "success")).isTrue = m.success :=
    isTrue_loadedRecord rfl
  have hpq : (m.loadedRecord.get (ascii "pq_key_establishment")).isTrue =
      isPostQuantumGroup m.negotiatedGroup := (isTrue_loadedRecord rfl).trans h.pq
  have hhybrid : (m.loadedRecord.get (ascii "hybrid_key_establishment")).isTrue =
      isHybridGroup m.negotiatedGroup := (isTrue_loadedRecord rfl).trans h.hybrid
  have hpqAuth : (m.loadedRecord.get (ascii "pq_authentication")).isTrue = m.pqAuthentication :=
    isTrue_loadedRecord rfl
  rw [semanticCheck_eq_nil_iff, groupProblems_eq_nil_iff, hgroup, hauth, hprofile, hsuccess, hpq,
    hhybrid, hpqAuth, mem_pqGroups_iff h.negotiatedGroup, mem_hybridGroups_iff h.negotiatedGroup]
  refine ⟨successProblems_of_acceptable h,
    fun _ => ⟨fun hmem => hmem, fun hmem _ => hmem, fun hmem => hmem⟩, fun hmem => ?_,
    fun hclaim _ => ?_, fun hok hannounced _ => hpromise hok hannounced⟩
  · rw [isPostQuantumGroup, hmem, Bool.true_or]
  · obtain ⟨hascii, hmarker⟩ := h.pqAuthentication hclaim
    rw [lower_eq_map hascii]
    exact hmarker

/-- An acceptable record that keeps the promise of its profile passes. -/
theorem passes_of_acceptable (h : Acceptable m) (hpromise : KeepsPromise m) :
    Passes python m.toJson.val :=
  ⟨m.loadedRecord, m.loaded_toJson, builtinStructuralCheck_of_acceptable h,
    semanticCheck_of_acceptable h hpromise⟩

/-- What the client takes for a post-quantum signature has a marker. -/
theorem hasSignatureMarker_of_names {o : HandshakeOutcome}
    (h : o.namesPostQuantumSignature = true) :
    hasSignatureMarker (o.peerSignatureAlgorithm.map asciiLower) = true := by
  have hmarker {pattern : Bytes}
      (hin : ClientAttempt.containsText o.peerSignatureAlgorithm pattern = true)
      (hmem : pattern.map asciiLower ∈ signatureMarkers) :
      hasSignatureMarker (o.peerSignatureAlgorithm.map asciiLower) = true := by
    have hpart := (Python.isIn_iff pattern o.peerSignatureAlgorithm).mp hin
    exact List.any_eq_true.mpr ⟨_, hmem, (Python.isIn_iff _ _).mpr (hpart.map asciiLower)⟩
  simp only [HandshakeOutcome.namesPostQuantumSignature, Bool.or_eq_true] at h
  rcases h with (h | h) | h
  · exact hmarker h (by decide)
  · exact hmarker h (by decide)
  · exact hmarker h (by decide)

/-- A post-quantum signature that a profile asks for has a marker. -/
theorem hasSignatureMarker_of_profile {t : AuthenticationType}
    (h : isPostQuantumAuthentication t = true) :
    hasSignatureMarker (t.toText.map asciiLower) = true := by
  cases t with
  | ecdsaP256 => cases h
  | ecdsaP384 => cases h
  | mlDsa65 => decide

end Validator

open Validator

/-- A time that has not been measured is recorded as zero. -/
theorem isDuration_zero : IsDuration 0 := ⟨by decide, by decide⟩

/-- What a profile permits has a name. -/
theorem SecurityProfile.ne_nil_of_permits {p : SecurityProfile} {group : Bytes}
    (hpermits : p.permitsNegotiatedGroup group = true) : group ≠ [] := by
  rintro rfl
  rw [p.not_permits_nil] at hpermits
  cases hpermits

namespace ClientAttempt

variable {a : ClientAttempt}

/-- The record of an exception is acceptable. -/
theorem acceptable_withError (a : ClientAttempt) (e : Thrown) :
    Acceptable (a.completeRecord (({} : ConnectionMetrics).withError e)) where
  schemaVersion := rfl
  connectionId := matches_generateUuidV4 _
  handshakeMs := isDuration_zero
  connectionMs := isDuration_zero
  negotiatedGroup := nofun
  pq := rfl
  hybrid := rfl
  pqAuthentication := nofun
  success := nofun

/-- Completing a record keeps an identifier that matches. -/
theorem matches_completeRecord (a : ClientAttempt) {m : ConnectionMetrics}
    (h : matchesUuidV4 m.connectionId = true) :
    matchesUuidV4 (a.completeRecord m).connectionId = true := by
  unfold completeRecord
  simp only
  split
  · exact matches_generateUuidV4 _
  · exact h

/-- A claim of post-quantum authentication names the signature that it rests on. -/
theorem authentication_of_claim (peer : PeerName) (hreported : (inspect a.ssl).Reported)
    (h : (a.negotiatedRecord peer).pqAuthentication = true) :
    IsAscii (a.negotiatedRecord peer).authentication ∧
      hasSignatureMarker ((a.negotiatedRecord peer).authentication.map asciiLower) = true := by
  have hnames : (inspect a.ssl).namesPostQuantumSignature = true := h
  have hne : (inspect a.ssl).peerSignatureAlgorithm.isEmpty = false := by
    rw [List.isEmpty_eq_false_iff]
    intro hempty
    rw [HandshakeOutcome.namesPostQuantumSignature, hempty] at hnames
    exact absurd hnames (by decide)
  have hauth : (a.negotiatedRecord peer).authentication =
      (inspect a.ssl).peerSignatureAlgorithm := by
    rw [negotiatedRecord, hne]
    rfl
  rw [hauth]
  exact ⟨hreported.peerSignatureAlgorithm, hasSignatureMarker_of_names hnames⟩

/-- A record of success names the profile, which permits its group. -/
theorem permits_of_success (h : a.clientResult.metrics.success = true) :
    a.clientResult.metrics.requestedProfile = a.config.common.profileId ∧
      a.profile.permitsNegotiatedGroup a.clientResult.metrics.negotiatedGroup = true := by
  have hpermits := permits_of_traffic (.inr h)
  obtain ⟨r, hresult⟩ := result_of_success h
  obtain ⟨x, hx⟩ := exchange_of_result hresult
  obtain ⟨peer, decoder, -, -, -, -, hexchange⟩ := policy_of_exchange hx
  rw [hresult, exchangeResult] at hexchange
  split at hexchange
  · cases hexchange
  · cases hexchange
    simp only [clientResult, outcomeOrError, hresult]
    exact ⟨rfl, hpermits⟩

/-- Under a profile of an honest registry the record of a client keeps its promise. -/
theorem keepsPromise {registry : ProfileRegistry} (hnames : registry.NamesHonest)
    (hget : registry.get a.config.common.profileId = .ok a.profile) :
    KeepsPromise a.clientResult.metrics := by
  intro hok hannounced
  obtain ⟨hprofile, hpermits⟩ := permits_of_success hok
  rw [hprofile] at hannounced
  exact ProfileRegistry.isPostQuantumGroup_of_announced hnames hget hannounced hpermits

/-- The record of a client is acceptable, however the connection has ended. -/
theorem acceptable (hreported : ∀ o, a.Completes o → o.Reported)
    (hhandshake : IsDuration a.handshakeMs) (hconnection : IsDuration a.connectionMs) :
    Acceptable a.clientResult.metrics := by
  cases hresult : a.connectAndExchange.result with
  | error e =>
    simp only [clientResult, outcomeOrError, hresult]
    exact a.acceptable_withError e
  | ok r =>
    obtain ⟨x, hx⟩ := exchange_of_result hresult
    obtain ⟨peer, decoder, hsetup, hconnect, hpolicy, -, hexchange⟩ := policy_of_exchange hx
    have hcompleted := hreported _ ⟨⟨peer, hsetup⟩, hconnect, rfl⟩
    have hgroup := SecurityProfile.ne_nil_of_permits (permits_of_policy hpolicy)
    rw [hresult, exchangeResult] at hexchange
    split at hexchange
    · cases hexchange
    · cases hexchange
      simp only [clientResult, outcomeOrError, hresult]
      exact {
        schemaVersion := rfl
        connectionId := a.matches_completeRecord (matches_generateUuidV4 a.label.entropy)
        handshakeMs := hhandshake
        connectionMs := hconnection
        negotiatedGroup := hcompleted.negotiatedGroup
        pq := rfl
        hybrid := rfl
        pqAuthentication := authentication_of_claim peer hcompleted
        success := fun _ => ⟨rfl, hcompleted.tlsVersion, hgroup⟩ }

end ClientAttempt

namespace ServerAttempt

variable {a : ServerAttempt}

/-- What follows the `try` block leaves a record acceptable. -/
theorem acceptable_conclude {m : ConnectionMetrics} (h : Acceptable m)
    (hconnection : IsDuration a.connectionMs) : Acceptable (a.conclude m) :=
  { h with connectionMs := hconnection }

/-- The record without a handshake is acceptable. -/
theorem acceptable_initialRecord (a : ServerAttempt) {handshakeMs : UInt64}
    (hhandshake : IsDuration handshakeMs) :
    Acceptable { a.initialRecord with handshakeMs := handshakeMs } where
  schemaVersion := rfl
  connectionId := matches_generateUuidV4 _
  handshakeMs := hhandshake
  connectionMs := isDuration_zero
  negotiatedGroup := nofun
  pq := rfl
  hybrid := rfl
  pqAuthentication := nofun
  success := nofun

/-- The record of a completed handshake is acceptable. -/
theorem acceptable_negotiatedRecord (hreported : (inspect a.ssl).Reported)
    (hhandshake : IsDuration a.handshakeMs) : Acceptable a.negotiatedRecord where
  schemaVersion := rfl
  connectionId := matches_generateUuidV4 _
  handshakeMs := hhandshake
  connectionMs := isDuration_zero
  negotiatedGroup := hreported.negotiatedGroup
  pq := rfl
  hybrid := rfl
  pqAuthentication hpq :=
    ⟨fun b hb => (a.profile.authentication.plain_toText b hb).1, hasSignatureMarker_of_profile hpq⟩
  success := nofun

/-- The record of the application loop is acceptable. -/
theorem acceptable_loopRecord (hreported : (inspect a.ssl).Reported)
    (hhandshake : IsDuration a.handshakeMs) {decoder : Framing.Decoder}
    (hpolicy : a.checkPolicy = .ok decoder) (loop : ServerLoop) :
    Acceptable (a.loopRecord loop) := by
  have hnegotiated := acceptable_negotiatedRecord hreported hhandshake
  have hgroup := SecurityProfile.ne_nil_of_permits (permits_of_policy hpolicy)
  unfold loopRecord
  simp only
  split
  · exact { hnegotiated with success := fun hsuccess => absurd hsuccess Bool.false_ne_true }
  · exact { hnegotiated with success := fun _ => ⟨rfl, hreported.tlsVersion, hgroup⟩ }

/-- A record of success names the profile, which permits its group. -/
theorem permits_of_success (h : a.handleConnection.record.success = true) :
    a.handleConnection.record.requestedProfile = a.config.common.profileId ∧
      a.profile.permitsNegotiatedGroup a.handleConnection.record.negotiatedGroup = true := by
  have hpermits := permits_of_traffic (.inr h)
  cases hloop : a.handleConnection.loop with
  | none =>
    rw [(record_of_no_loop hloop).1] at h
    cases h
  | some loop =>
    obtain ⟨decoder, -, -, hrecord⟩ := policy_of_loop hloop
    rw [hrecord]
    unfold loopRecord
    split
    · exact ⟨rfl, hpermits⟩
    · exact ⟨rfl, hpermits⟩

/-- Under a profile of an honest registry the record of a server keeps its promise. -/
theorem keepsPromise {registry : ProfileRegistry} (hnames : registry.NamesHonest)
    (hget : registry.get a.config.common.profileId = .ok a.profile) :
    KeepsPromise a.handleConnection.record := by
  intro hok hannounced
  obtain ⟨hprofile, hpermits⟩ := permits_of_success hok
  rw [hprofile] at hannounced
  exact ProfileRegistry.isPostQuantumGroup_of_announced hnames hget hannounced hpermits

/-- The record of a server is acceptable, however the connection has ended. -/
theorem acceptable (hreported : ∀ o, a.Completes o → o.Reported)
    (hhandshake : IsDuration a.handshakeMs) (hconnection : IsDuration a.connectionMs) :
    Acceptable a.handleConnection.record := by
  unfold handleConnection
  cases hsetup : a.setUp with
  | error e =>
    have hinitial := a.acceptable_initialRecord isDuration_zero
    exact acceptable_conclude { hinitial with success := nofun } hconnection
  | ok u =>
    simp only
    cases haccepted : a.accepted with
    | false =>
      have hinitial := a.acceptable_initialRecord hhandshake
      exact acceptable_conclude { hinitial with success := nofun } hconnection
    | true =>
      have hcompleted := hreported _ ⟨hsetup, haccepted, rfl⟩
      cases hpolicy : a.checkPolicy with
      | error e =>
        have hnegotiated := acceptable_negotiatedRecord hcompleted hhandshake
        exact acceptable_conclude { hnegotiated with success := nofun } hconnection
      | ok decoder =>
        exact acceptable_conclude
          (acceptable_loopRecord hcompleted hhandshake hpolicy _) hconnection

end ServerAttempt

/-- The record of every connection of client and server passes the validator, the validator
classifies ASCII group names as the binaries do, and every identifier matches its pattern. -/
theorem records_pass_validator (python : Python) (registry : ProfileRegistry)
    (hnames : registry.NamesHonest) :
    (∀ a : ClientAttempt, registry.get a.config.common.profileId = .ok a.profile →
      (∀ o, a.Completes o → o.Reported) → IsDuration a.handshakeMs → IsDuration a.connectionMs →
      Passes python a.clientResult.metrics.toJson.val) ∧
    (∀ a : ServerAttempt, registry.get a.config.common.profileId = .ok a.profile →
      (∀ o, a.Completes o → o.Reported) → IsDuration a.handshakeMs → IsDuration a.connectionMs →
      Passes python a.handleConnection.record.toJson.val) ∧
    (∀ g : Bytes, IsAscii g →
      (isPostQuantumGroup g = true ↔ python.lower g ∈ pqGroups) ∧
        (isHybridGroup g = true ↔ python.lower g ∈ hybridGroups)) ∧
    ∀ bytes : Entropy, matchesUuidV4 (generateUuidV4 bytes) = true := by
  refine ⟨fun a hget hreported hhandshake hconnection => ?_,
    fun a hget hreported hhandshake hconnection => ?_, fun g hg => ?_, matches_generateUuidV4⟩
  · exact passes_of_acceptable (a.acceptable hreported hhandshake hconnection)
      (a.keepsPromise hnames hget)
  · exact passes_of_acceptable (a.acceptable hreported hhandshake hconnection)
      (a.keepsPromise hnames hget)
  · exact ⟨(mem_pqGroups_iff hg).symm, (mem_hybridGroups_iff hg).symm⟩

/-- With the built-in profiles, the records of an unexceptional connection pass. -/
theorem records_pass_validator_builtin :
    let client := ClientAttempt.sample Message.minimalLibrary SslView.sample []
    let server := ServerAttempt.sample Message.minimalLibrary []
    ∃ registry, ProfileRegistry.builtin = .ok registry ∧
      Passes .ofAscii client.clientResult.metrics.toJson.val ∧
      Passes .ofAscii server.handleConnection.record.toJson.val := by
  intro client server
  obtain ⟨registry, hregistry⟩ : ∃ registry, ProfileRegistry.builtin = .ok registry := ⟨_, rfl⟩
  obtain ⟨hclient, hserver, -⟩ := records_pass_validator .ofAscii registry
    (ProfileRegistry.namesHonest_builtin hregistry)
  have hget : registry.get (ascii "hybrid-x25519-mlkem768") = .ok SecurityProfile.hybrid := by
    cases hregistry
    rfl
  have hreported : (inspect SslView.sample).Reported := ⟨rfl, by decide, by decide⟩
  refine ⟨registry, hregistry, ?_, ?_⟩
  · apply hclient client hget _ isDuration_zero isDuration_zero
    rintro o ⟨-, -, rfl⟩
    exact hreported
  · apply hserver server hget _ isDuration_zero isDuration_zero
    rintro o ⟨-, -, rfl⟩
    exact hreported

end PqtlsLab
