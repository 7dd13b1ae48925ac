import PqtlsLab.Client.BuildMessage
import PqtlsLab.Client.WarmupRecords
import PqtlsLab.Foundation.Python

/-!
# The message of a benchmark

A client is given a message on the command line or in a file. The benchmark script writes
such a file for each cell of its matrix, with a payload of the size that the cell asks for.
`command_connect` sends that message; the workers of a benchmark make their own requests
and never look at it.
-/

namespace PqtlsLab

/-- The text of the telemetry envelope of the benchmark script, with some padding. -/
def telemetryEnvelope (pad : Bytes) : Bytes :=
  ascii "\x7b\"protocol_version\": 1, \"type\": \"telemetry\", \"payload\": \x7b" ++
    ascii "\"device_id\": \"bench-001\", \"temperature\": 24.6, \"status\": \"normal\", \"pad\": \"" ++
    pad ++ ascii "\"\x7d\x7d"

/-- `"x" * padding`, on a host with memory for texts up to some length. -/
def repeatX (memory : ℕ) (padding : ℤ) : Except PythonError Bytes :=
  if 2 ^ 63 ≤ padding then .error .overflowError
  else if memory < padding then .error (.raised (ascii "MemoryError"))
  else .ok (List.replicate padding.toNat 0x78)

/-- `build_payload_message`. -/
def buildPayloadMessage (memory : ℕ) (payloadBytes : ℤ) : Except PythonError Bytes :=
  if payloadBytes ≤ 0 then .ok (ascii "\x7b\"type\":\"ping\"\x7d")
  else do
    let overhead := (telemetryEnvelope []).length
    let padding := max 0 (payloadBytes - overhead)
    let text := telemetryEnvelope (← repeatX memory padding)
    if memory < text.length then .error (.raised (ascii "MemoryError")) else .ok text

/-- The padding is as long as the message is longer than the envelope. -/
theorem length_telemetryEnvelope (pad : Bytes) :
    (telemetryEnvelope pad).length = (telemetryEnvelope []).length + pad.length := by
  simp only [telemetryEnvelope, List.length_append, List.length_nil]
  omega

/-- The message of a size that is positive. -/
theorem buildPayloadMessage_eq_ok_iff {memory : ℕ} {payloadBytes : ℤ} (hpos : 0 < payloadBytes)
    {text : Bytes} : buildPayloadMessage memory payloadBytes = .ok text ↔
      text = telemetryEnvelope
        (List.replicate (payloadBytes - (telemetryEnvelope []).length).toNat 0x78) ∧
      payloadBytes - (telemetryEnvelope []).length < 2 ^ 63 ∧ text.length ≤ memory := by
  rw [buildPayloadMessage, if_neg (by omega)]
  dsimp only
  generalize payloadBytes - (telemetryEnvelope []).length = padding
  have hmax : (max 0 padding).toNat = padding.toNat := by omega
  have hlength := length_telemetryEnvelope (List.replicate padding.toNat 0x78)
  rw [List.length_replicate] at hlength
  unfold repeatX
  split_ifs with hindex hmemory
  · refine iff_of_false nofun ?_
    rintro ⟨-, hlt, -⟩
    omega
  · refine iff_of_false nofun ?_
    rintro ⟨rfl, -, hle⟩
    omega
  · rw [hmax]
    simp only [bind, Except.bind]
    split_ifs with hlong
    · refine iff_of_false nofun ?_
      rintro ⟨rfl, -, hle⟩
      omega
    · constructor
      · rintro ⟨⟩
        exact ⟨rfl, by omega, by omega⟩
      · rintro ⟨rfl, -, -⟩
        rfl

/-- There is a message of a size exactly if its padding can be indexed and there is memory for
it. -/
theorem exists_payloadMessage_iff {memory : ℕ} {payloadBytes : ℤ} :
    (∃ text, buildPayloadMessage memory payloadBytes = .ok text) ↔ payloadBytes ≤ 0 ∨
      payloadBytes - (telemetryEnvelope []).length < 2 ^ 63 ∧
        max ((telemetryEnvelope []).length : ℤ) payloadBytes ≤ memory := by
  by_cases hpos : 0 < payloadBytes
  · have hlength := length_telemetryEnvelope
      (List.replicate (payloadBytes - (telemetryEnvelope []).length).toNat 0x78)
    rw [List.length_replicate] at hlength
    simp only [buildPayloadMessage_eq_ok_iff hpos, exists_eq_left]
    omega
  · exact iff_of_true ⟨_, if_pos (by omega)⟩ (.inl (by omega))

/-- Above the size of the envelope, the message has exactly the size that is asked for. -/
theorem length_buildPayloadMessage {memory : ℕ} {payloadBytes : ℤ}
    (h : (telemetryEnvelope []).length < payloadBytes) {text : Bytes}
    (hbuild : buildPayloadMessage memory payloadBytes = .ok text) :
    (text.length : ℤ) = payloadBytes := by
  obtain ⟨rfl, -, -⟩ := (buildPayloadMessage_eq_ok_iff (by omega)).mp hbuild
  rw [length_telemetryEnvelope, List.length_replicate]
  omega

namespace Benchmark

variable {lib : JsonLibrary} {config : ClientConfig} {writer : MetricsWriter}

/-- A connection sends the configured number of requests, each with the type and the
payload of a given message. -/
def SendsLike (config : ClientConfig) (m : Message) (attempt : BenchmarkAttempt) : Prop :=
  attempt.messages.length = config.messagesPerConnection.toNat ∧
    ∀ request ∈ attempt.messages, request.type = m.type ∧ request.payload = m.payload

/-- What a connection is given to send is always what the worker has made up itself. -/
theorem messages_of_run {actions : List (ℕ × BenchmarkInput)}
    {s : Threaded BenchmarkState BenchmarkWorker}
    (h : (machine lib config writer).run actions = some s) :
    ∀ attempt ∈ s.shared.attempts, ∃ labels,
      attempt.messages = requests config labels attempt.phase := by
  refine Machine.run_shared (I := fun s => ∀ attempt ∈ s.attempts, ∃ labels,
    attempt.messages = requests config labels attempt.phase) (by simp) ?_ h
  intro u w x u' w' hu hstep
  cases workerMove_of_step hstep with
  | claim phase positive => cases phase <;> exact hu
  | call phase labels =>
    intro attempt hattempt
    rcases List.mem_append.mp hattempt with hmem | hmem
    · exact hu attempt hmem
    · obtain rfl := List.mem_singleton.mp hmem
      exact ⟨labels, rfl⟩
  | _ => exact hu

/-- A measured connection sends pings without a payload. -/
theorem sent_of_measured {actions : List (ℕ × BenchmarkInput)}
    {s : Threaded BenchmarkState BenchmarkWorker}
    (h : (machine lib config writer).run actions = some s) {attempt : BenchmarkAttempt}
    (hattempt : attempt ∈ s.shared.attempts) (hmeasured : attempt.phase.isMeasured = true) :
    attempt.messages.map (fun request => (request.type, request.payload)) =
      List.replicate config.messagesPerConnection.toNat (.ping, JsonValue.emptyObject) := by
  obtain ⟨labels, hmessages⟩ := messages_of_run h attempt hattempt
  cases hphase : attempt.phase with
  | warmup request => simp [hphase, Phase.isMeasured] at hmeasured
  | measured =>
    rw [hmessages, hphase, requests, List.map_map, List.eq_replicate_iff]
    refine ⟨by simp, ?_⟩
    intro b hb
    obtain ⟨i, -, rfl⟩ := List.mem_map.mp hb
    rfl

/-- A measured connection sends requests like a given message exactly when that is a ping
without a payload. -/
theorem sendsLike_iff {production : Bool} (hvalid : config.validate production = .ok ())
    {actions : List (ℕ × BenchmarkInput)} {s : Threaded BenchmarkState BenchmarkWorker}
    (h : (machine lib config writer).run actions = some s) {attempt : BenchmarkAttempt}
    (hattempt : attempt ∈ s.shared.attempts) (hmeasured : attempt.phase.isMeasured = true)
    (m : Message) :
    SendsLike config m attempt ↔ m.type = .ping ∧ m.payload = JsonValue.emptyObject := by
  obtain ⟨-, -, -, hpos⟩ := ClientConfig.counts_of_validate hvalid
  have hsent := sent_of_measured h hattempt hmeasured
  have hlength : attempt.messages.length = config.messagesPerConnection.toNat := by
    simpa using congrArg List.length hsent
  have hping {request : Message} (hrequest : request ∈ attempt.messages) :
      request.type = .ping ∧ request.payload = JsonValue.emptyObject := by
    have hmem := List.mem_map_of_mem (f := fun r : Message => (r.type, r.payload)) hrequest
    rw [hsent] at hmem
    exact Prod.mk.inj (List.eq_of_mem_replicate hmem)
  constructor
  · rintro ⟨-, hall⟩
    obtain ⟨request, hrequest⟩ := List.exists_mem_of_length_pos (hlength ▸ hpos)
    obtain ⟨htype, hpayload⟩ := hall request hrequest
    rw [← htype, ← hpayload]
    exact hping hrequest
  · rintro ⟨htype, hpayload⟩
    refine ⟨hlength, fun request hrequest => ?_⟩
    rw [htype, hpayload]
    exact hping hrequest

/-- The measured connections of a benchmark send the message they were given if and only if
that is a ping without a payload. Two cells of the benchmark script that differ in their
payload sizes write messages of different sizes, but the requests that their connections
send have the same types and payloads. -/
theorem benchmark_sends_message_iff (production : Bool) (config : ClientConfig)
    (hvalid : config.validate production = .ok ()) (lib : JsonLibrary) (writer : MetricsWriter) :
    (∀ (source : MessageSource) (m : Message), source.buildMessage config = .ok m →
      ∀ (actions : List (ℕ × BenchmarkInput)) (s : Threaded BenchmarkState BenchmarkWorker),
        (machine lib config writer).run actions = some s →
        ∀ attempt ∈ s.shared.attempts, attempt.phase.isMeasured = true →
          (SendsLike config m attempt ↔ m.type = .ping ∧ m.payload = JsonValue.emptyObject)) ∧
    (∀ payloadBytes₁ payloadBytes₂ : ℤ,
      (telemetryEnvelope []).length < payloadBytes₁ → payloadBytes₁ < payloadBytes₂ →
      (∀ (memory₁ memory₂ : ℕ) (text₁ text₂ : Bytes),
        buildPayloadMessage memory₁ payloadBytes₁ = .ok text₁ →
        buildPayloadMessage memory₂ payloadBytes₂ = .ok text₂ →
        (text₂.length : ℤ) - text₁.length = payloadBytes₂ - payloadBytes₁) ∧
      ∀ (file₁ file₂ : Bytes) (actions₁ actions₂ : List (ℕ × BenchmarkInput))
        (s₁ s₂ : Threaded BenchmarkState BenchmarkWorker),
        (machine lib { config with messageFile := file₁ } writer).run actions₁ = some s₁ →
        (machine lib { config with messageFile := file₂ } writer).run actions₂ = some s₂ →
        ∀ attempt₁ ∈ s₁.shared.attempts, attempt₁.phase.isMeasured = true →
        ∀ attempt₂ ∈ s₂.shared.attempts, attempt₂.phase.isMeasured = true →
          attempt₁.messages.map (fun request => (request.type, request.payload)) =
            attempt₂.messages.map (fun request => (request.type, request.payload))) := by
  refine ⟨?_, fun payloadBytes₁ payloadBytes₂ hlow hlt => ⟨?_, ?_⟩⟩
  · intro source m _ actions s hrun attempt hattempt hmeasured
    exact sendsLike_iff hvalid hrun hattempt hmeasured m
  · intro memory₁ memory₂ text₁ text₂ htext₁ htext₂
    rw [length_buildPayloadMessage hlow htext₁, length_buildPayloadMessage (hlow.trans hlt) htext₂]
  · intro file₁ file₂ actions₁ actions₂ s₁ s₂ hrun₁ hrun₂ attempt₁ hattempt₁ hmeasured₁ attempt₂
      hattempt₂ hmeasured₂
    rw [sent_of_measured hrun₁ hattempt₁ hmeasured₁, sent_of_measured hrun₂ hattempt₂ hmeasured₂]

/-- A client without a message. -/
def silentSource : MessageSource where
  lib := .ofTable []
  readFile _ := none
  label := Label.sample
  parseLabel := Label.sample

/-- Without a message, the default ping is what the measured connection sends. -/
theorem benchmark_sends_message_default :
    ∃ m s attempt, silentSource.buildMessage {} = .ok m ∧
      (machine (.ofTable []) {} ⟨true, [], []⟩).run measuredRun = some s ∧
      attempt ∈ s.shared.attempts ∧ attempt.phase.isMeasured = true ∧ SendsLike {} m attempt := by
  obtain ⟨s, hs, hany⟩ := (machine (.ofTable []) {} ⟨true, [], []⟩).exists_of_run_any measuredRun
    (fun s => s.shared.attempts.any (fun attempt => attempt.phase.isMeasured) = true)
    (by decide +kernel)
  obtain ⟨attempt, hattempt, hmeasured⟩ := List.any_eq_true.mp hany
  refine ⟨_, s, attempt, rfl, hs, hattempt, hmeasured, ?_⟩
  exact ((benchmark_sends_message_iff false {} rfl _ _).1 silentSource _ rfl measuredRun s hs
    attempt hattempt hmeasured).mpr ⟨rfl, rfl⟩

/-- A client that is given a message to be echoed. -/
def echoConfig : ClientConfig :=
  { message := MessageSource.echoDocument.val.render fun _ => ascii "0.0" }

/-- The message that is built from the text is one to be echoed. -/
theorem build_echo :
    ∃ m, MessageSource.echoSource.buildMessage echoConfig = .ok m ∧ m.type = .echo := by
  have htype : ((MessageSource.echoSource.buildMessage echoConfig).map Message.type).toOption =
      some .echo := by
    decide +kernel
  cases hbuild : MessageSource.echoSource.buildMessage echoConfig with
  | error e => simp [hbuild, Except.map, Except.toOption] at htype
  | ok m => exact ⟨m, rfl, by simpa [hbuild, Except.map, Except.toOption] using htype⟩

/-- A benchmark that is given a message to be echoed does not send it. -/
theorem benchmark_ignores_message :
    ¬ ∀ (production : Bool) (config : ClientConfig), config.validate production = .ok () →
      ∀ (source : MessageSource) (m : Message), source.buildMessage config = .ok m →
      ∀ (writer : MetricsWriter) (actions : List (ℕ × BenchmarkInput))
        (s : Threaded BenchmarkState BenchmarkWorker),
        (machine source.lib config writer).run actions = some s →
      ∀ attempt ∈ s.shared.attempts, attempt.phase.isMeasured = true →
        SendsLike config m attempt := by
  intro h
  obtain ⟨m, hm, htype⟩ := build_echo
  obtain ⟨s, hs, hany⟩ := (machine MessageSource.echoSource.lib echoConfig
    ⟨true, [], []⟩).exists_of_run_any measuredRun
    (fun s => s.shared.attempts.any (fun attempt => attempt.phase.isMeasured) = true)
    (by decide +kernel)
  obtain ⟨attempt, hattempt, hmeasured⟩ := List.any_eq_true.mp hany
  have hvalid : ClientConfig.validate false echoConfig = .ok () := rfl
  have hsends := h false echoConfig hvalid MessageSource.echoSource m hm _ measuredRun s hs
    attempt hattempt hmeasured
  have hping := (sendsLike_iff hvalid hs hattempt hmeasured m).mp hsends
  rw [htype] at hping
  cases hping.1

end Benchmark

end PqtlsLab
