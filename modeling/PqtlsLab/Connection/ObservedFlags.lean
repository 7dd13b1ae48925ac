import PqtlsLab.Client.Connection
import PqtlsLab.Protocol.MessageParse
import PqtlsLab.Server.Connection

/-!
# The three post-quantum flags

Every record says in three flags whether the key establishment was post-quantum, whether it
was hybrid and whether the peer authenticated with a post-quantum signature. The client
derives all three from what the handshake reports, but loses them if an exception ends the
connection later. The server derives the first two from the handshake and the third from its
own profile.
-/

namespace PqtlsLab

open Message

/-- The flags of a record: `pq_key_establishment`, `hybrid_key_establishment` and
`pq_authentication`. -/
def ConnectionMetrics.flags (m : ConnectionMetrics) : Bool × Bool × Bool :=
  (m.pqKeyEstablishment, m.hybridKeyEstablishment, m.pqAuthentication)

namespace HandshakeOutcome

/-- The signature algorithm of the peer names a post-quantum signature. -/
def namesPostQuantumSignature (o : HandshakeOutcome) : Bool :=
  ClientAttempt.containsText o.peerSignatureAlgorithm (ascii "mldsa") ||
    ClientAttempt.containsText o.peerSignatureAlgorithm (ascii "ML-DSA") ||
    ClientAttempt.containsText o.peerSignatureAlgorithm (ascii "dilithium")

/-- The flags as the handshake shows them. -/
def flags (o : HandshakeOutcome) : Bool × Bool × Bool :=
  (isPostQuantumGroup o.negotiatedGroup, isHybridGroup o.negotiatedGroup,
    o.namesPostQuantumSignature)

end HandshakeOutcome

/-- The records of two connections with the same handshake agree in their flags, and claim
post-quantum authentication only if the peer's signature shows it. -/
def FlagsObserved (o : HandshakeOutcome) (m₁ m₂ : ConnectionMetrics) : Prop :=
  m₁.flags = m₂.flags ∧ ∀ m ∈ [m₁, m₂], m.pqAuthentication = true →
    o.namesPostQuantumSignature = true

namespace ClientAttempt

/-- The handshake has been completed with some outcome. -/
def Completes (a : ClientAttempt) (o : HandshakeOutcome) : Prop :=
  (∃ peer, a.setUp = .ok peer) ∧ a.connectFailure = none ∧ inspect a.ssl = o

/-- After the handshake, one of the policy checks fails or the application exchange does. -/
def FailsLater (a : ClientAttempt) : Prop :=
  match a.checkPolicy with
  | .error _ => True
  | .ok decoder => ∃ e, (a.exchangeEnv decoder).final.control = .failed e

variable {a : ClientAttempt} {o : HandshakeOutcome}

/-- A failure after the handshake is an exception of `connect_and_exchange`. -/
theorem error_of_failsLater (h : a.Completes o) (hfails : a.FailsLater) :
    ∃ e, a.connectAndExchange.result = .error e := by
  obtain ⟨⟨peer, hsetup⟩, hconnect, -⟩ := h
  simp only [connectAndExchange, hsetup, hconnect]
  unfold FailsLater at hfails
  cases hpolicy : a.checkPolicy with
  | error e => exact ⟨e, rfl⟩
  | ok decoder =>
    simp only [hpolicy] at hfails
    obtain ⟨e, he⟩ := hfails
    exact ⟨e, exchangeResult_eq_error_iff.mpr he⟩

/-- Without such a failure, the result of the exchange is returned. -/
theorem result_of_not_failsLater (h : a.Completes o) (hfails : ¬ a.FailsLater) :
    ∃ peer r, a.connectAndExchange.result = .ok r ∧
      r.metrics.flags = (a.negotiatedRecord peer).flags := by
  obtain ⟨⟨peer, hsetup⟩, hconnect, -⟩ := h
  simp only [connectAndExchange, hsetup, hconnect]
  unfold FailsLater at hfails
  cases hpolicy : a.checkPolicy with
  | error e => simp [hpolicy] at hfails
  | ok decoder =>
    simp only [hpolicy] at hfails ⊢
    unfold exchangeResult
    split
    · rename_i e hcontrol
      exact absurd ⟨e, hcontrol⟩ hfails
    · exact ⟨peer, _, rfl, rfl⟩

/-- The record of such a failure has no flags. -/
theorem flags_of_failsLater (h : a.Completes o) (hfails : a.FailsLater) :
    a.clientResult.metrics.flags = (false, false, false) := by
  obtain ⟨e, he⟩ := error_of_failsLater h hfails
  simp only [clientResult, outcomeOrError, he]
  rfl

/-- The record of a returned result has the flags that the handshake shows. -/
theorem flags_of_not_failsLater (h : a.Completes o) (hfails : ¬ a.FailsLater) :
    a.clientResult.metrics.flags = o.flags := by
  obtain ⟨peer, r, hresult, hflags⟩ := result_of_not_failsLater h hfails
  obtain ⟨-, -, rfl⟩ := h
  simp only [clientResult, outcomeOrError, hresult]
  exact hflags

/-- The record claims post-quantum authentication only if the handshake shows it. -/
theorem pqAuthentication_observed (h : a.Completes o)
    (hpq : a.clientResult.metrics.pqAuthentication = true) :
    o.namesPostQuantumSignature = true := by
  by_cases hfails : a.FailsLater
  · have hflags := flags_of_failsLater h hfails
    simp only [ConnectionMetrics.flags, Prod.mk.injEq] at hflags
    rw [hflags.2.2] at hpq
    cases hpq
  · have hflags := flags_of_not_failsLater h hfails
    simp only [ConnectionMetrics.flags, HandshakeOutcome.flags, Prod.mk.injEq] at hflags
    rw [← hflags.2.2, hpq]

/-- Two client records agree unless exactly one of the connections fails after the handshake
and the handshake shows a flag. -/
theorem flagsObserved_iff {a₁ a₂ : ClientAttempt} (h₁ : a₁.Completes o) (h₂ : a₂.Completes o) :
    FlagsObserved o a₁.clientResult.metrics a₂.clientResult.metrics ↔
      (a₁.FailsLater ↔ a₂.FailsLater) ∨ o.flags = (false, false, false) := by
  have honly : ∀ m ∈ [a₁.clientResult.metrics, a₂.clientResult.metrics],
      m.pqAuthentication = true → o.namesPostQuantumSignature = true := by
    intro m hm
    rcases List.mem_pair.mp hm with rfl | rfl
    · exact pqAuthentication_observed h₁
    · exact pqAuthentication_observed h₂
  rw [FlagsObserved, and_iff_left honly]
  by_cases hf₁ : a₁.FailsLater
  · rw [flags_of_failsLater h₁ hf₁]
    by_cases hf₂ : a₂.FailsLater
    · simp [flags_of_failsLater h₂ hf₂, hf₁, hf₂]
    · simp [flags_of_not_failsLater h₂ hf₂, hf₁, hf₂, eq_comm]
  · rw [flags_of_not_failsLater h₁ hf₁]
    by_cases hf₂ : a₂.FailsLater
    · simp [flags_of_failsLater h₂ hf₂, hf₁, hf₂]
    · simp [flags_of_not_failsLater h₂ hf₂, hf₁, hf₂]

end ClientAttempt

namespace ServerAttempt

/-- The handshake has been completed with some outcome. -/
def Completes (a : ServerAttempt) (o : HandshakeOutcome) : Prop :=
  a.setUp = .ok () ∧ a.accepted = true ∧ inspect a.ssl = o

/-- The record has two flags from the handshake and one from the profile, however the
connection ends. -/
theorem flags_of_completes {a : ServerAttempt} {o : HandshakeOutcome} (h : a.Completes o) :
    a.handleConnection.record.flags =
      (isPostQuantumGroup o.negotiatedGroup, isHybridGroup o.negotiatedGroup,
        isPostQuantumAuthentication a.profile.authentication) := by
  obtain ⟨hsetup, haccepted, rfl⟩ := h
  obtain ⟨m, hm⟩ := record_of_accepted hsetup haccepted
  rw [hm]
  rfl

/-- Two server records agree, and claim only what the handshake shows, exactly when both
profiles ask for the same kind of signature and for a post-quantum one only if the peer has
used one. -/
theorem flagsObserved_iff {o : HandshakeOutcome} {a₁ a₂ : ServerAttempt} (h₁ : a₁.Completes o)
    (h₂ : a₂.Completes o) :
    FlagsObserved o a₁.handleConnection.record a₂.handleConnection.record ↔
      isPostQuantumAuthentication a₁.profile.authentication =
          isPostQuantumAuthentication a₂.profile.authentication ∧
        (isPostQuantumAuthentication a₁.profile.authentication = true →
          o.namesPostQuantumSignature = true) := by
  have hf₁ := flags_of_completes h₁
  have hf₂ := flags_of_completes h₂
  have hpq₁ : a₁.handleConnection.record.pqAuthentication =
      isPostQuantumAuthentication a₁.profile.authentication := congrArg (fun f => f.2.2) hf₁
  have hpq₂ : a₂.handleConnection.record.pqAuthentication =
      isPostQuantumAuthentication a₂.profile.authentication := congrArg (fun f => f.2.2) hf₂
  unfold FlagsObserved
  rw [hf₁, hf₂]
  simp only [Prod.mk.injEq, true_and, List.forall_mem_cons, hpq₁, hpq₂]
  constructor
  · rintro ⟨hsame, hfirst, -⟩
    exact ⟨hsame, hfirst⟩
  · rintro ⟨hsame, hfirst⟩
    exact ⟨hsame, hfirst, hsame ▸ hfirst, by simp⟩

end ServerAttempt

/-- The flags of two connections with the same handshake are what was observed: for the client
if and only if both connections fail after the handshake, none does, or the handshake shows no
flag; for the server if and only if both profiles ask for an ML-DSA signature or none does, and
a peer of which one is asked has used one. -/
theorem flags_observed_iff (o : HandshakeOutcome) :
    (∀ a₁ a₂ : ClientAttempt, a₁.Completes o → a₂.Completes o →
      (FlagsObserved o a₁.clientResult.metrics a₂.clientResult.metrics ↔
        (a₁.FailsLater ↔ a₂.FailsLater) ∨ o.flags = (false, false, false))) ∧
    (∀ a₁ a₂ : ServerAttempt, a₁.Completes o → a₂.Completes o →
      (FlagsObserved o a₁.handleConnection.record a₂.handleConnection.record ↔
        isPostQuantumAuthentication a₁.profile.authentication =
            isPostQuantumAuthentication a₂.profile.authentication ∧
          (isPostQuantumAuthentication a₁.profile.authentication = true →
            o.namesPostQuantumSignature = true))) :=
  ⟨fun _ _ => ClientAttempt.flagsObserved_iff, fun _ _ => ServerAttempt.flagsObserved_iff⟩

/-- The built-in definition with another signature to ask for. -/
def hybridSigned (type : AuthenticationType) : ProfileDefinition :=
  { hybridX25519MlKem768 with authentication := type, experimental := true }

/-- The profile of this definition. -/
def SecurityProfile.signed (type : AuthenticationType) : SecurityProfile where
  definition := hybridSigned type
  id_ne_nil := hybrid.id_ne_nil
  groups_ne_nil := hybrid.groups_ne_nil
  groups_nodup := hybrid.groups_nodup
  suites_ne_nil := hybrid.suites_ne_nil
  suites_named := hybrid.suites_named
  groups_named := hybrid.groups_named
  unmixed := hybrid.unmixed
  pure_experimental _ := rfl
  mldsa_experimental _ := rfl

/-- Connections under profiles that ask for different classical signatures have the same
flags. -/
theorem flags_observed_classical :
    let a := ClientAttempt.sample minimalLibrary SslView.sample []
    let s := ServerAttempt.sample minimalLibrary []
    FlagsObserved (inspect SslView.sample) a.clientResult.metrics
        { a with profile := .signed .ecdsaP384 }.clientResult.metrics ∧
      FlagsObserved (inspect SslView.sample) s.handleConnection.record
        { s with profile := .signed .ecdsaP384 }.handleConnection.record := by
  intro a s
  obtain ⟨hclient, hserver⟩ := flags_observed_iff (inspect SslView.sample)
  constructor
  · exact (hclient a _ ⟨⟨_, rfl⟩, rfl, rfl⟩ ⟨⟨_, rfl⟩, rfl, rfl⟩).mpr (.inl Iff.rfl)
  · exact (hserver s _ ⟨rfl, rfl, rfl⟩ ⟨rfl, rfl, rfl⟩).mpr ⟨rfl, by decide⟩

/-- Two servers whose profiles differ in the signature that they ask for record different flags
of the same handshake, in which the client has not used a post-quantum signature. -/
theorem flags_follow_profile :
    ¬ ∀ (o : HandshakeOutcome) (d₁ d₂ : ProfileDefinition) (a₁ a₂ : ServerAttempt),
      SecurityProfile.create d₁ = .ok a₁.profile → SecurityProfile.create d₂ = .ok a₂.profile →
      a₁.profile.permitsNegotiatedGroup o.negotiatedGroup = true →
      a₂.profile.permitsNegotiatedGroup o.negotiatedGroup = true →
      a₁.Completes o → a₂.Completes o →
      FlagsObserved o a₁.handleConnection.record a₂.handleConnection.record := by
  intro h
  let s := ServerAttempt.sample minimalLibrary []
  have hflags := h (inspect SslView.sample) hybridX25519MlKem768 (hybridSigned .mlDsa65) s
    { s with profile := .signed .mlDsa65 } rfl rfl (by decide) (by decide) ⟨rfl, rfl, rfl⟩
    ⟨rfl, rfl, rfl⟩
  rw [FlagsObserved, ServerAttempt.flags_of_completes ⟨rfl, rfl, rfl⟩,
    ServerAttempt.flags_of_completes ⟨rfl, rfl, rfl⟩] at hflags
  exact absurd hflags.1 (by decide)

end PqtlsLab
