import PqtlsLab.Client.Records
import PqtlsLab.Server.Answers
import PqtlsLab.Server.Connection

/-!
# Downgrade safety

The group policy is decided before a connection carries application data: the client
checks it after the identity of the peer and the server before it, and both enter
their application loop only afterwards. A connection that has moved a byte, or whose
record claims success, has therefore negotiated a permitted group.
-/

namespace PqtlsLab

/-- The client has moved an application byte. -/
def ClientConnection.MovedBytes (c : ClientConnection) : Prop :=
  ∃ x, c.exchange = some x ∧ (x.io.sent ≠ [] ∨ x.io.received ≠ [])

/-- The server has moved an application byte. -/
def ServerConnection.MovedBytes (c : ServerConnection) : Prop :=
  ∃ loop, c.loop = some loop ∧ (loop.io.sent ≠ [] ∨ loop.io.received ≠ [])

/-- A client record that claims success comes from a completed exchange. -/
theorem ClientAttempt.result_of_success {a : ClientAttempt}
    (h : a.clientResult.metrics.success = true) :
    ∃ r, a.connectAndExchange.result = .ok r := by
  cases hresult : a.connectAndExchange.result with
  | ok r => exact ⟨r, rfl⟩
  | error e =>
    simp [clientResult, completeRecord, outcomeOrError, hresult, ConnectionMetrics.withError] at h

/-- A client that has moved a byte or claims success has negotiated a permitted group. -/
theorem ClientAttempt.permits_of_traffic {a : ClientAttempt}
    (h : a.connectAndExchange.MovedBytes ∨ a.clientResult.metrics.success = true) :
    a.profile.permitsNegotiatedGroup (inspect a.ssl).negotiatedGroup = true := by
  have hentered : ∃ x, a.connectAndExchange.exchange = some x := by
    rcases h with ⟨x, hx, -⟩ | hsuccess
    · exact ⟨x, hx⟩
    · obtain ⟨r, hr⟩ := result_of_success hsuccess
      exact exchange_of_result hr
  obtain ⟨x, hx⟩ := hentered
  obtain ⟨_, decoder, -, -, hpolicy, -, -⟩ := policy_of_exchange hx
  exact permits_of_policy hpolicy

/-- A server that has moved a byte or claims success has negotiated a permitted group. -/
theorem ServerAttempt.permits_of_traffic {a : ServerAttempt}
    (h : a.handleConnection.MovedBytes ∨ a.handleConnection.record.success = true) :
    a.profile.permitsNegotiatedGroup (inspect a.ssl).negotiatedGroup = true := by
  have hentered : ∃ loop, a.handleConnection.loop = some loop := by
    rcases h with ⟨loop, hloop, -⟩ | hsuccess
    · exact ⟨loop, hloop⟩
    · cases hloop : a.handleConnection.loop with
      | some loop => exact ⟨loop, rfl⟩
      | none =>
        have hfailed := (record_of_no_loop hloop).1
        rw [hsuccess] at hfailed
        cases hfailed
  obtain ⟨loop, hloop⟩ := hentered
  obtain ⟨decoder, hpolicy, -, -⟩ := policy_of_loop hloop
  exact permits_of_policy hpolicy

/-- A profile permits exactly the groups it lists, up to ASCII case, and never the empty
name; a profile that forbids classical fallback and lists a post-quantum group permits
post-quantum groups only; and neither side moves an application byte or records a
success unless the negotiated group is one of them. -/
theorem downgrade_safety (d : ProfileDefinition) (p : SecurityProfile)
    (h : SecurityProfile.create d = .ok p) :
    (∀ g : Bytes, g ≠ [] → (p.permitsNegotiatedGroup g = true ↔
      ∃ entry ∈ p.groups, entry.map asciiLower = g.map asciiLower)) ∧
    p.permitsNegotiatedGroup [] = false ∧
    (p.definition.allowClassicalFallback = false →
      (∃ g ∈ p.groups, isPostQuantumGroup g = true) →
      ∀ g, p.permitsNegotiatedGroup g = true → isPostQuantumGroup g = true) ∧
    (∀ a : ClientAttempt, a.profile = p →
      (a.connectAndExchange.MovedBytes ∨ a.clientResult.metrics.success = true) →
      p.permitsNegotiatedGroup (inspect a.ssl).negotiatedGroup = true ∧
        (p.definition.allowClassicalFallback = false →
          (∃ g ∈ p.groups, isPostQuantumGroup g = true) →
          isPostQuantumGroup (inspect a.ssl).negotiatedGroup = true)) ∧
    (∀ a : ServerAttempt, a.profile = p →
      (a.handleConnection.MovedBytes ∨ a.handleConnection.record.success = true) →
      p.permitsNegotiatedGroup (inspect a.ssl).negotiatedGroup = true ∧
        (p.definition.allowClassicalFallback = false →
          (∃ g ∈ p.groups, isPostQuantumGroup g = true) →
          isPostQuantumGroup (inspect a.ssl).negotiatedGroup = true)) := by
  refine ⟨fun g hg => p.permits_iff_lists hg, p.not_permits_nil, ?_, ?_, ?_⟩
  · intro hfallback hlists g hg
    exact SecurityProfile.isPostQuantumGroup_of_permits ⟨hfallback, hlists⟩ hg
  · rintro a rfl htraffic
    have hpermits := ClientAttempt.permits_of_traffic htraffic
    exact ⟨hpermits, fun hfallback hlists =>
      SecurityProfile.isPostQuantumGroup_of_permits ⟨hfallback, hlists⟩ hpermits⟩
  · rintro a rfl htraffic
    have hpermits := ServerAttempt.permits_of_traffic htraffic
    exact ⟨hpermits, fun hfallback hlists =>
      SecurityProfile.isPostQuantumGroup_of_permits ⟨hfallback, hlists⟩ hpermits⟩

/-- The primary built-in profile permits its group in the spelling of another OpenSSL and refuses
the classical one, and a client and a server that have moved bytes under it have negotiated a
post-quantum group. -/
theorem downgrade_safety_hybrid :
    SecurityProfile.create hybridX25519MlKem768 = .ok SecurityProfile.hybrid ∧
      SecurityProfile.hybrid.permitsNegotiatedGroup (ascii "x25519mlkem768") = true ∧
      isPostQuantumGroup (ascii "x25519mlkem768") = true ∧
      SecurityProfile.hybrid.permitsNegotiatedGroup (ascii "x25519") = false ∧
      (let a := ClientAttempt.sample Message.minimalLibrary SslView.sample [Chunk.pong]
      a.connectAndExchange.MovedBytes ∧
        isPostQuantumGroup (inspect a.ssl).negotiatedGroup = true) ∧
      (let a := ServerAttempt.sample Message.minimalLibrary [Chunk.ping]
      a.handleConnection.MovedBytes ∧
        isPostQuantumGroup (inspect a.ssl).negotiatedGroup = true) := by
  have hcreate := SecurityProfile.create_hybrid
  obtain ⟨hiff, -, hpq, hclient, hserver⟩ :=
    downgrade_safety hybridX25519MlKem768 SecurityProfile.hybrid hcreate
  have hpermits :
      SecurityProfile.hybrid.permitsNegotiatedGroup (ascii "x25519mlkem768") = true := by
    rw [hiff _ (by decide)]
    decide
  have hlists : ∃ g ∈ SecurityProfile.hybrid.groups, isPostQuantumGroup g = true := by decide
  refine ⟨hcreate, hpermits, hpq rfl hlists _ hpermits, ?_, ?_, ?_⟩
  · rw [Bool.eq_false_iff, ne_eq, hiff _ (by decide)]
    decide
  · intro a
    let env := a.exchangeEnv .standard
    have hmoved : a.connectAndExchange.MovedBytes := by
      refine ⟨env.final, rfl, .inl ?_⟩
      rw [env.final_eq_state (n := 7) (by decide +kernel)]
      decide +kernel
    exact ⟨hmoved, (hclient a rfl (.inl hmoved)).2 rfl hlists⟩
  · intro a
    let env := a.loopEnv .standard
    have hmoved : a.handleConnection.MovedBytes := by
      refine ⟨env.final, rfl, .inl ?_⟩
      rw [env.final_eq_state (n := 7) (by decide +kernel)]
      decide +kernel
    exact ⟨hmoved, (hserver a rfl (.inl hmoved)).2 rfl hlists⟩

end PqtlsLab
