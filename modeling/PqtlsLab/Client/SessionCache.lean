import PqtlsLab.Client.BenchmarkAccounting

/-!
# Cached sessions

A client remembers the TLS session of a connection whose peer and group it has checked, if it is
configured to reuse sessions, and offers it in its next connection. Each worker of a benchmark has
a client of its own and forgets the session between its two loops. The workers with their caches
refine the workers without, and what a connection offers is determined by the connections that the
same worker has made before in the same loop. OpenSSL's sessions are values of an arbitrary type.
-/

namespace PqtlsLab

namespace ClientAttempt

variable {α : Type}

/-- The session with which the handshake begins: the cached one, if sessions are reused and
`SSL_set_session` accepts it. -/
def offered (a : ClientAttempt) (cached : Option α) (accepts : α → Bool) : Option α :=
  match a.setUp with
  | .ok _ => if a.config.reuseSession then cached.filter accepts else none
  | .error _ => none

/-- The handshake has been completed, and its peer and its group have passed their checks. -/
def Trusted (a : ClientAttempt) : Prop :=
  (∃ peer, a.setUp = .ok peer) ∧ a.connectFailure = none ∧
    enforcePeerVerification a.ssl a.config.common true = .ok () ∧
    enforceGroupPolicy a.profile (inspect a.ssl) = .ok ()

/-- The session that a connection leaves in the cache, if `SSL_get1_session` has returned one. -/
def kept (a : ClientAttempt) (session : Option α) : Option α :=
  match a.setUp, a.connectFailure, enforcePeerVerification a.ssl a.config.common true,
    enforceGroupPolicy a.profile (inspect a.ssl) with
  | .ok _, none, .ok (), .ok () => if a.config.reuseSession then session else none
  | _, _, _, _ => none

/-- Sessions are kept of trusted connections only. -/
theorem trusted_of_kept {a : ClientAttempt} {session : Option α} {kept : α}
    (h : a.kept session = some kept) :
    a.Trusted ∧ a.config.reuseSession = true ∧ session = some kept := by
  unfold ClientAttempt.kept at h
  split at h
  · rename_i peer hsetup hconnect hpeer hgroup
    split at h
    · rename_i hreuse
      exact ⟨⟨⟨peer, hsetup⟩, hconnect, hpeer, hgroup⟩, hreuse, h⟩
    · cases h
  · cases h

end ClientAttempt

/-- A call of `run_once`, as far as sessions are concerned. -/
structure SessionUse (α : Type) where
  /-- It belongs to the loop of the measured connections. -/
  measured : Bool
  attempt : ClientAttempt
  /-- `SSL_set_session` returns one. -/
  accepts : α → Bool
  /-- What `SSL_get1_session` returns. -/
  session : Option α
  /-- The session with which the handshake began. -/
  offered : Option α

/-- The session that the connection leaves in the cache, if any. -/
def SessionUse.kept {α : Type} (c : SessionUse α) : Option α := c.attempt.kept c.session

/-- A worker with the cache of its client. The last field keeps track of its connections; the code
does not have it. -/
structure CachingWorker (α : Type) where
  worker : BenchmarkWorker
  /-- The messages of the next connection. -/
  messages : List Message
  /-- `cached_session_`. -/
  cached : Option α
  uses : List (SessionUse α)

/-- What the environment supplies to a step of such a worker. -/
inductive CachingInput (α : Type) where
  /-- To a step outside of `run_once`. -/
  | plain (x : BenchmarkInput)
  /-- To `run_once`: the environment of the connection, and what OpenSSL does with sessions. -/
  | connect (env : ClientAttempt) (accepts : α → Bool) (session : Option α)

namespace Benchmark

variable {α : Type}

/-- The worker has not left the loop of the warm-up connections. -/
def inWarmup : BenchmarkWorker → Bool
  | .starting | .draining _ | .abandoning _ _ => true
  | .loading phase | .claiming phase _ _ | .claimed phase | .connecting phase | .terminated phase =>
    !phase.isMeasured
  | .recording _ | .finished => false

/-- The worker goes from one loop to the other. -/
def entersMeasured (w w' : BenchmarkWorker) : Bool :=
  inWarmup w &&
    match w' with
    | .loading .measured => true
    | _ => false

/-- One step of `worker`, with `clear_cached_session` between the loops. -/
def cachingStep (lib : JsonLibrary) (config : ClientConfig) (s : BenchmarkState)
    (w : CachingWorker α) : CachingInput α → Option (BenchmarkState × CachingWorker α)
  | .connect env accepts session =>
    match w.worker with
    | .connecting phase =>
      let a := { env with lib := lib, config := config, messages := w.messages }
      let use : SessionUse α := ⟨phase.isMeasured, a, accepts, session, a.offered w.cached accepts⟩
      (workerStep lib config s w.worker (.connect (.ok a.clientResult))).map fun next =>
        (next.1, { w with
          worker := next.2
          cached := use.kept.or w.cached
          uses := w.uses ++ [use] })
    | _ => none
  | .plain (.connect _) => none
  | .plain x =>
    (workerStep lib config s w.worker x).map fun next =>
      (next.1, { w with
        worker := next.2
        messages :=
          match w.worker, x with
          | .claimed phase, .request labels => requests config labels phase
          | _, _ => w.messages
        cached := if entersMeasured w.worker next.2 then none else w.cached })

/-- `run_benchmark` with the caches of the clients. -/
def cachingMachine (lib : JsonLibrary) (config : ClientConfig) (writer : MetricsWriter) :
    Machine (Threaded BenchmarkState (CachingWorker α)) (ℕ × CachingInput α) :=
  .ofThreads
    { shared := (machine lib config writer).start.shared
      threads := List.replicate (concurrency config) ⟨.starting, [], none, []⟩ }
    (cachingStep lib config)

/-- The session that the cache of a worker should hold, given its connections: the one that its last
connection of the same loop has left of those that have left one. -/
def lastKept (measured : Bool) (uses : List (SessionUse α)) : Option α :=
  ((uses.filter fun c => c.measured == measured).filterMap SessionUse.kept).getLast?

section Runs

variable {lib : JsonLibrary} {config : ClientConfig} {writer : MetricsWriter}
variable {s s' : BenchmarkState} {w w' : BenchmarkWorker} {x : BenchmarkInput}

/-- The worker has no client. -/
def HasNoClient : BenchmarkWorker → Prop
  | .starting | .draining _ | .abandoning _ _ => True
  | _ => False

/-- What follows a failed test leads to the other loop exactly from the loop of the warm-up
connections. -/
theorem entersMeasured_testClaim (phase : Phase) (current : UInt32)
    (hw : inWarmup w = !phase.isMeasured) :
    entersMeasured w (testClaim phase current) = true ∧ inWarmup w = true ∧
        inWarmup (testClaim phase current) = false ∨
      entersMeasured w (testClaim phase current) = false ∧
        inWarmup (testClaim phase current) = inWarmup w := by
  unfold testClaim
  by_cases hpositive : current > 0
  · rw [dif_pos hpositive]
    exact .inr ⟨by simp [entersMeasured], hw.symm⟩
  · rw [dif_neg hpositive]
    cases phase with
    | warmup request => exact .inl ⟨by simp [entersMeasured, hw, Phase.isMeasured], hw, rfl⟩
    | measured => exact .inr ⟨by simp [entersMeasured], hw.symm⟩

/-- A step leads from one loop to the other, or stays in one, or is the last one of a worker without
a client. -/
theorem loop_of_move (h : WorkerMove lib config s w x s' w') :
    entersMeasured w w' = true ∧ inWarmup w = true ∧ inWarmup w' = false ∨
      entersMeasured w w' = false ∧ (inWarmup w' = inWarmup w ∨ HasNoClient w) := by
  have hweaken {w w' : BenchmarkWorker}
      (h : entersMeasured w w' = true ∧ inWarmup w = true ∧ inWarmup w' = false ∨
        entersMeasured w w' = false ∧ inWarmup w' = inWarmup w) :
      entersMeasured w w' = true ∧ inWarmup w = true ∧ inWarmup w' = false ∨
        entersMeasured w w' = false ∧ (inWarmup w' = inWarmup w ∨ HasNoClient w) :=
    h.imp_right fun h => ⟨h.1, .inl h.2⟩
  cases h with
  | construct label => exact .inr ⟨rfl, .inl rfl⟩
  | fail what => exact .inr ⟨rfl, .inl rfl⟩
  | drain what => exact .inr ⟨rfl, .inl rfl⟩
  | abandon abandoned what => exact .inr ⟨rfl, .inr trivial⟩
  | load phase => exact hweaken (entersMeasured_testClaim phase _ rfl)
  | retry phase current positive spurious => exact hweaken (entersMeasured_testClaim phase _ rfl)
  | claim phase positive => exact .inr ⟨by simp [entersMeasured], .inl rfl⟩
  | call phase labels => exact .inr ⟨by simp [entersMeasured], .inl rfl⟩
  | throw phase outcome => exact .inr ⟨by simp [entersMeasured], .inl rfl⟩
  | complete phase result writer written =>
    cases phase with
    | warmup request => exact .inr ⟨rfl, .inl rfl⟩
    | measured => exact .inr ⟨rfl, .inl rfl⟩
  | record result => exact .inr ⟨rfl, .inl rfl⟩

/-- A worker without a client comes from one without a client. -/
theorem hasNoClient_of_move (h : WorkerMove lib config s w x s' w') (hw' : HasNoClient w') :
    HasNoClient w := by
  have htest (phase : Phase) (current : UInt32) : ¬HasNoClient (testClaim phase current) := by
    unfold testClaim
    split
    · exact id
    · cases phase <;> exact id
  cases h with
  | load phase => exact absurd hw' (htest phase _)
  | retry phase current positive spurious => exact absurd hw' (htest phase _)
  | complete phase result writer written => cases phase <;> cases hw'
  | fail what => exact trivial
  | drain what => exact trivial
  | construct label => cases hw'
  | abandon abandoned what => cases hw'
  | claim phase positive => cases hw'
  | call phase labels => cases hw'
  | throw phase outcome => cases hw'
  | record result => cases hw'

/-- What is true of a worker in every run. -/
structure SoundCache (config : ClientConfig) (w : CachingWorker α) : Prop where
  /-- The cache holds what it should. -/
  cached : w.cached = lastKept (!inWarmup w.worker) w.uses
  /-- The warm-up connections come first. -/
  warmup : inWarmup w.worker = true → ∀ c ∈ w.uses, c.measured = false
  /-- There is no connection without a client. -/
  noClient : HasNoClient w.worker → w.uses = []
  /-- All connections have the same configuration. -/
  config : ∀ c ∈ w.uses, c.attempt.config = config
  /-- Every connection has offered what the cache should have held. -/
  offered : ∀ before c after, w.uses = before ++ c :: after →
    c.offered = c.attempt.offered (lastKept c.measured before) c.accepts

/-- The last session that has been left, after one more connection of the same loop. -/
theorem lastKept_append_self (uses : List (SessionUse α)) (c : SessionUse α) :
    lastKept c.measured (uses ++ [c]) = c.kept.or (lastKept c.measured uses) := by
  unfold lastKept
  cases hkept : c.kept with
  | none => simp [List.filter_append, List.filterMap_append, hkept]
  | some kept => simp [List.filter_append, List.filterMap_append, hkept]

/-- Without a connection of a loop there is no session of that loop. -/
theorem lastKept_eq_none {measured : Bool} {uses : List (SessionUse α)}
    (h : ∀ c ∈ uses, c.measured = !measured) : lastKept measured uses = none := by
  have hnil : uses.filter (fun c => c.measured == measured) = [] := by
    rw [List.filter_eq_nil_iff]
    intro c hc
    rw [h c hc]
    cases measured <;> decide
  rw [lastKept, hnil]
  rfl

/-- A step outside of `run_once` keeps a worker sound. -/
theorem soundCache_of_move {w w' : CachingWorker α} (hw : SoundCache config w)
    (h : WorkerMove lib config s w.worker x s' w'.worker) (huses : w'.uses = w.uses)
    (hcached : w'.cached = if entersMeasured w.worker w'.worker then none else w.cached) :
    SoundCache config w' := by
  rcases loop_of_move h with ⟨henters, hin, hout⟩ | ⟨henters, hloop⟩
  · rw [henters, if_pos rfl] at hcached
    refine ⟨?_, fun hin' => ?_, fun hnone => ?_, huses ▸ hw.config, huses ▸ hw.offered⟩
    · have hfresh := @lastKept_eq_none α true w.uses fun c hc => hw.warmup hin c hc
      rw [hcached, huses, hout, Bool.not_false, hfresh]
    · rw [hout] at hin'
      cases hin'
    · rw [huses, hw.noClient (hasNoClient_of_move h hnone)]
  · rw [henters, if_neg Bool.false_ne_true] at hcached
    have hnone (hno : HasNoClient w'.worker) : w'.uses = [] := by
      rw [huses, hw.noClient (hasNoClient_of_move h hno)]
    rcases hloop with hsame | hno
    · refine ⟨?_, fun hin => ?_, hnone, huses ▸ hw.config, huses ▸ hw.offered⟩
      · rw [hcached, huses, hsame, hw.cached]
      · rw [huses]
        exact hw.warmup (hsame ▸ hin)
    · have hempty := hw.noClient hno
      refine ⟨?_, fun _ c hc => ?_, hnone, huses ▸ hw.config, huses ▸ hw.offered⟩
      · rw [hcached, huses, hw.cached, hempty]
        rfl
      · rw [huses, hempty] at hc
        cases hc

/-- After a connection a worker is in the same loop. -/
theorem inWarmup_of_connect {phase : Phase}
    (h : WorkerMove lib config s (.connecting phase) x s' w') :
    inWarmup w' = !phase.isMeasured ∧ ¬HasNoClient w' := by
  cases h with
  | throw phase outcome => exact ⟨rfl, id⟩
  | complete phase result writer written => cases phase <;> exact ⟨rfl, id⟩

/-- A connection keeps a worker sound. -/
theorem soundCache_of_connect {w w' : CachingWorker α} (hw : SoundCache config w) {phase : Phase}
    (hconnecting : w.worker = .connecting phase) {use : SessionUse α}
    (h : WorkerMove lib config s w.worker x s' w'.worker)
    (hmeasured : use.measured = phase.isMeasured)
    (hconfig : use.attempt.config = config)
    (hoffered : use.offered = use.attempt.offered w.cached use.accepts)
    (huses : w'.uses = w.uses ++ [use]) (hcached : w'.cached = use.kept.or w.cached) :
    SoundCache config w' := by
  obtain ⟨hloop, hclient⟩ := inWarmup_of_connect (hconnecting ▸ h)
  have hbefore : w.cached = lastKept use.measured w.uses := by
    rw [hw.cached, hconnecting, hmeasured, inWarmup, Bool.not_not]
  refine ⟨?_, fun hin => ?_, fun hno => absurd hno hclient, ?_, ?_⟩
  · rw [hcached, huses, hloop, Bool.not_not, ← hmeasured, lastKept_append_self, hbefore]
  · have hphase : phase.isMeasured = false := by simpa [hloop] using hin
    rw [huses, List.forall_mem_append, List.forall_mem_singleton]
    exact ⟨hw.warmup (by rw [hconnecting, inWarmup, hphase, Bool.not_false]),
      hmeasured.trans hphase⟩
  · rw [huses, List.forall_mem_append, List.forall_mem_singleton]
    exact ⟨hw.config, hconfig⟩
  · intro before c after hsplit
    rw [huses] at hsplit
    rcases List.eq_nil_or_concat after with rfl | ⟨after, last, rfl⟩
    · obtain ⟨hinit, hlast⟩ := List.append_inj' hsplit rfl
      cases hlast
      rw [hoffered, hbefore, hinit]
    · rw [List.concat_eq_append, ← List.cons_append, ← List.append_assoc] at hsplit
      obtain ⟨hinit, -⟩ := List.append_inj' hsplit rfl
      exact hw.offered before c after hinit

/-- Every step is a step of the worker without its cache, and keeps the worker sound. -/
theorem soundCache_of_step {w w' : CachingWorker α} {x : CachingInput α}
    (h : cachingStep lib config s w x = some (s', w')) :
    (∃ y, workerStep lib config s w.worker y = some (s', w'.worker)) ∧
      (SoundCache config w → SoundCache config w') := by
  unfold cachingStep at h
  split at h
  · split at h
    · rename_i env accepts session phase hconnecting
      obtain ⟨next, hnext, heq⟩ := Option.map_eq_some_iff.mp h
      cases heq
      exact ⟨⟨_, hnext⟩, fun hw =>
        soundCache_of_connect hw hconnecting (workerMove_of_step hnext) rfl rfl rfl rfl rfl⟩
    · cases h
  · cases h
  · obtain ⟨next, hnext, heq⟩ := Option.map_eq_some_iff.mp h
    cases heq
    exact ⟨⟨_, hnext⟩, fun hw => soundCache_of_move hw (workerMove_of_step hnext) rfl rfl⟩

/-- In every run all workers are sound. -/
theorem soundCache_of_run {actions : List (ℕ × CachingInput α)}
    {s : Threaded BenchmarkState (CachingWorker α)}
    (h : (cachingMachine lib config writer).run actions = some s) :
    ∀ w ∈ s.threads, SoundCache config w := by
  refine Machine.run_forall (P := fun _ => True) (J := fun _ w => SoundCache config w) ?_ ?_
    (fun _ _ => trivial) h
  · intro w hw
    rw [List.eq_of_mem_replicate hw]
    exact ⟨rfl, by simp, fun _ => rfl, by simp, by simp⟩
  · intro u w x u' w' _ hw hcall
    exact ⟨(soundCache_of_step hcall).2 hw, fun _ hv => hv⟩

/-- What is offered comes from the cache, and sessions are reused. -/
theorem mem_of_offered {a : ClientAttempt} {cached : Option α} {accepts : α → Bool} {session : α}
    (h : a.offered cached accepts = some session) :
    a.config.reuseSession = true ∧ cached = some session := by
  unfold ClientAttempt.offered at h
  split at h
  · split at h
    · rename_i hreuse
      exact ⟨hreuse, (Option.filter_eq_some_iff.mp h).1⟩
    · cases h
  · cases h

/-- The session that has been left last was left by a connection of the loop. -/
theorem exists_of_lastKept {measured : Bool} {uses : List (SessionUse α)} {session : α}
    (h : lastKept measured uses = some session) :
    ∃ c ∈ uses, c.measured = measured ∧ c.kept = some session := by
  have hmem := List.mem_of_getLast? h
  obtain ⟨c, hc, hkept⟩ := List.mem_filterMap.mp hmem
  obtain ⟨hc, hmeasured⟩ := List.mem_filter.mp hc
  exact ⟨c, hc, beq_iff_eq.mp hmeasured, hkept⟩

/-- The workers with caches refine those without. A connection offers exactly the session that the
last connection of the same worker in the same loop has left of those that have left one; so if it
offers a session at all, then sessions are reused, and an earlier connection in the same loop, whose
peer and group had passed their checks, has established it. -/
theorem offered_sessions_trusted (lib : JsonLibrary) (config : ClientConfig)
    (writer : MetricsWriter) (actions : List (ℕ × CachingInput α))
    (s : Threaded BenchmarkState (CachingWorker α))
    (h : (cachingMachine lib config writer).run actions = some s) :
    (∃ actions', (machine lib config writer).run actions' =
      some ⟨s.shared, s.threads.map CachingWorker.worker⟩) ∧
    ∀ w ∈ s.threads, ∀ before c after, w.uses = before ++ c :: after →
      c.offered = c.attempt.offered (lastKept c.measured before) c.accepts ∧
      ∀ session, c.offered = some session → config.reuseSession = true ∧
        ∃ c' ∈ before, c'.measured = c.measured ∧ c'.attempt.Trusted ∧
          c'.session = some session := by
  constructor
  · have herase := @Machine.run_erase _ _ _ (workerStep lib config) _ _ (cachingStep lib config)
      CachingWorker.worker (fun hcall => (soundCache_of_step hcall).1) _ _ _ h
    rw [List.map_replicate] at herase
    exact herase
  · intro w hw before c after hsplit
    have hsound := soundCache_of_run h w hw
    have hoffered := hsound.offered before c after hsplit
    refine ⟨hoffered, fun session hsession => ?_⟩
    obtain ⟨hreuse, hlast⟩ := mem_of_offered (hoffered ▸ hsession)
    obtain ⟨c', hc', hmeasured, hkept⟩ := exists_of_lastKept hlast
    obtain ⟨htrusted, -, hestablished⟩ := ClientAttempt.trusted_of_kept hkept
    rw [hsound.config c (by simp [hsplit])] at hreuse
    exact ⟨hreuse, c', hc', hmeasured, htrusted, hestablished⟩

end Runs

/-- A configuration with one worker that reuses sessions. -/
def reusingConfig : ClientConfig :=
  { common := { profileId := ascii "hybrid-x25519-mlkem768" }
    connections := 2
    concurrency := 1
    warmupConnections := 1
    reuseSession := true }

/-- A run with a warm-up connection and two measured ones, which establish the sessions 1, 2 and
3. -/
def reusingRun : List (ℕ × CachingInput ℕ) :=
  let connect (session : ℕ) : List (CachingInput ℕ) :=
    [.plain .proceed, .plain (.compareExchange false), .plain (.request fun _ => Label.sample),
      .connect (ClientAttempt.sample (JsonLibrary.ofTable []) SslView.sample []) (fun _ => true)
        (some session)]
  let inputs : List (CachingInput ℕ) :=
    .plain (.construct (.ok Label.sample)) :: connect 1 ++ .plain .proceed :: connect 2 ++
      .plain .proceed :: connect 3
  inputs.map fun x => (0, x)

/-- The first measured connection offers no session, and the second one offers that of the first. -/
theorem offered_sessions_trusted_reused :
    ∃ s w, (cachingMachine (JsonLibrary.ofTable []) reusingConfig ⟨false, [], []⟩).run reusingRun =
        some s ∧ w ∈ s.threads ∧ w.uses.map SessionUse.offered = [none, none, some 2] ∧
      ∃ c ∈ w.uses, c.offered = some 2 ∧ ∃ c' ∈ w.uses, c'.attempt.Trusted ∧ c'.session = some 2 := by
  have hany := (cachingMachine (JsonLibrary.ofTable []) reusingConfig ⟨false, [], []⟩).exists_of_run_any
    reusingRun (fun s => ∃ w ∈ s.threads, w.uses.map SessionUse.offered = [none, none, some 2])
    (by decide +kernel)
  obtain ⟨s, hrun, w, hw, hoffers⟩ := hany
  obtain ⟨c₁, c₂, c₃, huses⟩ : ∃ c₁ c₂ c₃, w.uses = [c₁, c₂, c₃] := by
    have hlength := congrArg List.length hoffers
    rw [List.length_map] at hlength
    exact List.length_eq_three.mp hlength
  have hc : c₃.offered = some 2 := by
    rw [huses] at hoffers
    simp only [List.map_cons, List.map_nil, List.cons.injEq] at hoffers
    exact hoffers.2.2.1
  have hsplit : w.uses = [c₁, c₂] ++ c₃ :: [] := huses
  obtain ⟨-, hcaches⟩ := offered_sessions_trusted _ _ _ _ s hrun
  obtain ⟨-, c', hc', -, htrusted, hsession⟩ := (hcaches w hw _ _ _ hsplit).2 2 hc
  have hmem : c' ∈ w.uses := hsplit ▸ List.mem_append_left _ hc'
  exact ⟨s, w, hrun, hw, hoffers, c₃, by simp [huses], hc, c', hmem, htrusted, hsession⟩

end Benchmark

end PqtlsLab
