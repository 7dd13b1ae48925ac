import PqtlsLab.Client.Records
import PqtlsLab.Server.Answers
import PqtlsLab.Server.Failures
import PqtlsLab.Server.PoolHandoff

/-!
# The server and its records

The pool of workers together with what they do for a connection: `handle_connection` with
its exchange and the record that it writes at the end. An exception that leaves it ends
the worker, so that enough of them would leave a server that accepts connections and
serves none. No client can cause one.
-/

namespace PqtlsLab

/-- A connection that has been handled. -/
structure Served where
  id : ℕ
  attempt : ServerAttempt

/-- What `handle_connection` records of it. -/
def Served.record (c : Served) : ConnectionMetrics := c.attempt.handleConnection.record

/-- A running server with its metrics writer. The last field keeps track of what the
workers have done; the code does not have it. -/
structure Service where
  pool : Pool
  writer : MetricsWriter
  served : List Served

/-- What stays the same while a server runs. -/
structure ServiceSetting where
  lib : JsonLibrary
  config : ServerConfig
  profile : SecurityProfile

/-- One step of the server. -/
inductive ServiceAction where
  /-- A step of the pool other than the end of `handle_connection`. -/
  | pool (a : PoolAction)
  /-- All of `handle_connection` in worker `i`, with the environment of the connection. -/
  | serve (i : ℕ) (env : ServerAttempt)

namespace ServiceSetting

/-- A connection of this server in some environment. -/
def attempt (cfg : ServiceSetting) (env : ServerAttempt) : ServerAttempt :=
  { env with lib := cfg.lib, config := cfg.config, profile := cfg.profile }

/-- The settings and the texts that the environment contributes to an action are UTF-8. -/
def TextValid (cfg : ServiceSetting) : ServiceAction → Prop
  | .pool _ => True
  | .serve _ env => (cfg.attempt env).TextValid

end ServiceSetting

namespace Service

/-- The end of `handle_connection`. -/
def isFinish : PoolAction → Bool
  | .worker _ (.finish _) => true
  | _ => false

/-- One step of the server. -/
def step (cfg : ServiceSetting) (s : Service) : ServiceAction → Option Service
  | .pool a =>
    if isFinish a then none
    else ((Pool.machine cfg.config.maxConnections).step s.pool a).map fun pool =>
      { s with pool := pool }
  | .serve i env =>
    match s.pool.workers[i]? with
    | some (.handling id) =>
      let c : Served := ⟨id, cfg.attempt env⟩
      let (writer, result) := s.writer.write cfg.lib c.record
      ((Pool.machine cfg.config.maxConnections).step s.pool
        (.worker i (.finish (!result.isOk)))).map fun pool => ⟨pool, writer, s.served ++ [c]⟩
    | _ => none

/-- One call of `run()` with what the workers do. -/
def machine (cfg : ServiceSetting) (writer : MetricsWriter) : Machine Service ServiceAction where
  start := ⟨Pool.initial, writer, []⟩
  step := step cfg

end Service

namespace Pool

variable {maxConnections : UInt32} {s t : Pool}

/-- A step that does not end the handling of a connection leaves the connections with the
workers as they are, except that some may be added. -/
theorem started_of_move {a : PoolAction} (h : Move maxConnections s a t)
    (ha : Service.isFinish a = false) :
    ∃ new, t.started = s.started ++ new ∧ t.handled.Perm (s.handled ++ new) := by
  have hsame (hstarted : t.started = s.started) (hhandled : t.handled = s.handled) :
      ∃ new, t.started = s.started ++ new ∧ t.handled.Perm (s.handled ++ new) :=
    ⟨[], by simp [hstarted], by simp [hhandled]⟩
  cases h with
  | pop i id rest control front =>
    have hperm := flatMap_set_perm PoolWorker.owned control (.handling id)
    simp only [PoolWorker.owned, List.append_nil] at hperm
    exact ⟨[id], rfl, hperm⟩
  | finish i id throws control w next => cases ha
  | spawn control few =>
    refine hsame rfl ?_
    simp [handled, PoolWorker.owned]
  | wake control | wakeAll j control => exact hsame rfl (flatMap_owned_wake s.workers)
  | notify i control blocked => exact hsame rfl (flatMap_set_of_eq blocked rfl)
  | lock i control free | grant i control | hesitate i control going | block i control
  | rouse i control => exact hsame rfl (flatMap_set_of_eq control rfl)
  | retry i control w next =>
    have hw : w.owned = [] := by rcases next with rfl | rfl <;> rfl
    exact hsame rfl (flatMap_set_of_eq control hw)
  | _ => exact hsame rfl rfl

/-- A stop has been requested if the flag is set or a worker has ended. -/
structure EndsOnRequest (s : Pool) : Prop where
  stopping : s.stopping = true → s.requested = true
  exited : ∀ w ∈ s.workers, w = .exited → s.requested = true

/-- A worker that goes on does not need a request. -/
theorem EndsOnRequest.set (h : s.EndsOnRequest) {i : ℕ} {w : PoolWorker}
    (hw : w = .exited → s.requested = true) :
    ∀ v ∈ s.workers.set i w, v = .exited → s.requested = true := by
  intro v hv
  rcases List.mem_or_eq_of_mem_set hv with hv | rfl
  · exact h.exited v hv
  · exact hw

/-- A worker ends because it has been asked to or because of an exception. -/
theorem stopping_of_exited {i : ℕ} {w : PoolWorker} {input : PoolWorkerInput}
    (hw : s.workers[i]? = some w) (h : s.workerStep i w input = some t)
    (hworkers : t.workers = s.workers.set i .exited) :
    s.stopping = true ∨ input = .finish true := by
  have hlt := (List.getElem?_eq_some_iff.mp hw).1
  have hexited {v : PoolWorker} (hv : s.workers.set i v = t.workers) : v = .exited := by
    have hentry := congrArg (fun workers => workers[i]?) (hv.trans hworkers)
    simpa [List.getElem?_set_self hlt] using hentry
  unfold workerStep at h
  split at h
  · split at h
    · cases h
    · have hv := hexited (congrArg Pool.workers (Option.some.inj h))
      cases hv
  · have hv := hexited (congrArg Pool.workers (Option.some.inj h))
    split at hv <;> cases hv
  · have hv := hexited (congrArg Pool.workers (Option.some.inj h))
    cases hv
  · have hv := hexited (congrArg Pool.workers (Option.some.inj h))
    cases hv
  · split at h
    · have hv := hexited (congrArg Pool.workers (Option.some.inj h))
      split at hv
      · exact .inl ‹_›
      · cases hv
    · have hv := hexited (congrArg Pool.workers (Option.some.inj h))
      cases hv
  · have hv := hexited (congrArg Pool.workers (Option.some.inj h))
    split at hv
    · rename_i hthrows
      exact .inr (by rw [hthrows])
    · cases hv
  · cases h

/-- Workers end only on request, except through an exception. -/
theorem EndsOnRequest.step {a : PoolAction} (h : s.EndsOnRequest)
    (ha : ∀ i, a ≠ .worker i (.finish true))
    (hstep : (machine maxConnections).step s a = some t) : t.EndsOnRequest := by
  have hwake : ∀ w ∈ s.workers.map PoolWorker.wake, w = .exited → s.requested = true := by
    intro w hw hexited
    obtain ⟨v, hv, rfl⟩ := List.mem_map.mp hw
    refine h.exited v hv ?_
    cases v <;> simp [PoolWorker.wake] at hexited ⊢
  cases move_of_step hstep with
  | reset control => exact ⟨nofun, h.exited⟩
  | spawn control few =>
    refine ⟨h.stopping, fun w hw hexited => ?_⟩
    rcases List.mem_append.mp hw with hw | hw
    · exact h.exited w hw hexited
    · rw [List.mem_singleton.mp hw] at hexited
      cases hexited
  | wake control => exact ⟨h.stopping, hwake⟩
  | wakeAll j control => exact ⟨h.stopping, hwake⟩
  | store j control => exact ⟨fun _ => rfl, fun _ _ _ => rfl⟩
  | notify i control blocked => exact ⟨h.stopping, h.set nofun⟩
  | lock i control free | grant i control | hesitate i control going | block i control
  | rouse i control | pop i id rest control front => exact ⟨h.stopping, h.set nofun⟩
  | retry i control w next =>
    refine ⟨h.stopping, h.set fun hexited => ?_⟩
    subst hexited
    have hcode := hstep
    simp only [machine, control, Option.bind_some] at hcode
    rcases stopping_of_exited control hcode rfl with hstop | hinput
    · exact h.stopping hstop
    · cases hinput
  | finish i id throws control w next =>
    refine ⟨h.stopping, h.set fun hexited => ?_⟩
    subst hexited
    have hcode := hstep
    simp only [machine, control, Option.bind_some] at hcode
    rcases stopping_of_exited control hcode rfl with hstop | hinput
    · exact h.stopping hstop
    · exact absurd (congrArg (PoolAction.worker i) hinput) (ha i)
  | _ => exact ⟨h.stopping, h.exited⟩

end Pool

namespace Service

variable {cfg : ServiceSetting} {writer : MetricsWriter}

/-- What holds of a running server: its pool is one that the pool alone could have reached,
workers end only on request, the connections whose handling has begun are being handled or
have been served, and each of the latter has left its record. -/
structure Inv (cfg : ServiceSetting) (writer : MetricsWriter) (s : Service) : Prop where
  reached : ∃ actions, (Pool.machine cfg.config.maxConnections).run actions = some s.pool
  ends : s.pool.EndsOnRequest
  placed : (s.served.map Served.id ++ s.pool.handled).Perm s.pool.started
  recorded : s.writer.enabled = writer.enabled ∧ s.writer.records =
    writer.records ++ if writer.enabled = true then s.served.map Served.record else []
  ours : ∀ c ∈ s.served, ∃ env, c.attempt = cfg.attempt env

/-- The invariant holds before `run()`. -/
theorem inv_start : (machine cfg writer).start.Inv cfg writer where
  reached := ⟨[], rfl⟩
  ends := ⟨by simp [machine, Pool.initial], by simp [machine, Pool.initial]⟩
  placed := .refl []
  recorded := ⟨rfl, by simp [machine]⟩
  ours := by simp [machine]

/-- The record of a connection whose texts are UTF-8 can be written, so that no exception leaves
`handle_connection`. -/
theorem write_served (hlib : cfg.lib.Documented) {env : ServerAttempt}
    (hvalid : (cfg.attempt env).TextValid) (writer : MetricsWriter) (id : ℕ) :
    (writer.write cfg.lib (Served.mk id (cfg.attempt env)).record).2 = .ok () :=
  (writer.write_eq_ok_iff cfg.lib _).mpr fun _ => ServerAttempt.textValid_record hvalid hlib

/-- Every step keeps the invariant. -/
theorem Inv.step (hlib : cfg.lib.Documented) {s t : Service} {a : ServiceAction}
    (ha : cfg.TextValid a) (h : s.Inv cfg writer) (hstep : (machine cfg writer).step s a = some t) :
    t.Inv cfg writer := by
  obtain ⟨poolActions, hrun⟩ := h.reached
  have hreach {b : PoolAction} {pool : Pool}
      (hpool : (Pool.machine cfg.config.maxConnections).step s.pool b = some pool) :
      ∃ actions, (Pool.machine cfg.config.maxConnections).run actions = some pool :=
    ⟨_, (Machine.run_concat_eq_some_iff _).mpr ⟨_, hrun, hpool⟩⟩
  cases a with
  | pool b =>
    simp only [machine, Service.step] at hstep
    split at hstep
    · cases hstep
    rename_i hfinish
    obtain ⟨pool, hpool, rfl⟩ := Option.map_eq_some_iff.mp hstep
    rw [Bool.not_eq_true] at hfinish
    obtain ⟨new, hstarted, hhandled⟩ := Pool.started_of_move (Pool.move_of_step hpool) hfinish
    refine ⟨hreach hpool, h.ends.step ?_ hpool, ?_, h.recorded, h.ours⟩
    · rintro i rfl
      cases hfinish
    · simp only [hstarted]
      refine (hhandled.append_left _).trans ?_
      rw [← List.append_assoc]
      exact h.placed.append_right new
  | serve i env =>
    simp only [machine, Service.step] at hstep
    split at hstep
    swap
    · cases hstep
    rename_i id hworker
    obtain ⟨pool, hpool, rfl⟩ := Option.map_eq_some_iff.mp hstep
    have hok := write_served hlib ha s.writer id
    have hwrite := s.writer.eq_of_write_ok (Prod.ext rfl hok)
    obtain ⟨henabled, hrecords⟩ := hwrite
    have hreturns : (!(s.writer.write cfg.lib
        (Served.mk id (cfg.attempt env)).record).2.isOk) = false := by
      rw [hok]
      rfl
    rw [hreturns] at hpool
    have hclosed : pool.started = s.pool.started ∧
        (id :: pool.handled).Perm s.pool.handled := by
      simp only [Pool.machine, hworker, Option.bind_some, Pool.workerStep, Bool.false_eq_true,
        if_false, Option.some.injEq] at hpool
      subst hpool
      have hperm := flatMap_set_perm PoolWorker.owned hworker .locking
      simp only [PoolWorker.owned, List.append_nil] at hperm
      exact ⟨rfl, List.perm_append_comm.trans hperm⟩
    refine ⟨hreach hpool, h.ends.step (by rintro _ ⟨⟩) hpool, ?_, ?_, ?_⟩
    · rw [hclosed.1, List.map_append, List.append_assoc]
      exact (hclosed.2.append_left _).trans h.placed
    · refine ⟨henabled.trans h.recorded.1, ?_⟩
      rw [hrecords, h.recorded.2, h.recorded.1]
      split
      · simp
      · simp
    · intro c hc
      rcases List.mem_append.mp hc with hc | hc
      · exact h.ours c hc
      · rw [List.mem_singleton.mp hc]
        exact ⟨env, rfl⟩

/-- The invariant holds in every run. -/
theorem inv_of_run (hlib : cfg.lib.Documented) {actions : List ServiceAction} {s : Service}
    (hactions : ∀ a ∈ actions, cfg.TextValid a) (h : (machine cfg writer).run actions = some s) :
    s.Inv cfg writer :=
  (machine cfg writer).run_invariant inv_start (fun _ _ _ ha hs ht => hs.step hlib ha ht) hactions h

/-- Whatever clients send and however they break off, in every interleaving: no worker ends before
a call of `stop()` has stored its flag; every connection whose handling has begun is still being
handled or has been handled once, and each of the latter has left exactly one record; and when
`run()` has returned, that is all of them. -/
theorem connections_served_and_recorded (cfg : ServiceSetting) (writer : MetricsWriter)
    (hlib : cfg.lib.Documented) (actions : List ServiceAction) (s : Service)
    (hactions : ∀ a ∈ actions, cfg.TextValid a) (h : (machine cfg writer).run actions = some s) :
    (s.pool.requested = false → ∀ w ∈ s.pool.workers, w ≠ .exited) ∧
    s.pool.started.Nodup ∧ (s.served.map Served.id ++ s.pool.handled).Perm s.pool.started ∧
    (∀ c ∈ s.served, ∃ env, c.attempt = cfg.attempt env) ∧
    s.writer.records =
      writer.records ++ (if writer.enabled = true then s.served.map Served.record else []) ∧
    (s.pool.acceptor = .returned → (s.served.map Served.id).Perm s.pool.started) := by
  have hinv := inv_of_run hlib hactions h
  obtain ⟨poolActions, hrun⟩ := hinv.reached
  have hordered := (Pool.sound_of_run hrun).ordered
  refine ⟨fun hnone w hw hexited => ?_, ?_, hinv.placed, hinv.ours, hinv.recorded.2,
    fun hreturned => ?_⟩
  · rw [hinv.ends.exited w hw hexited] at hnone
    cases hnone
  · have hstarted := (List.pairwise_append.mp (List.pairwise_append.mp hordered).1).1
    exact hstarted.imp fun hlt => Nat.ne_of_lt hlt
  · have hexited := (Pool.joined_of_run hrun).1 (by rw [hreturned]; trivial)
    have hhandled : s.pool.handled = [] := by
      apply List.flatMap_eq_nil_iff.mpr
      intro w hw
      rw [hexited w hw]
      rfl
    simpa [hhandled] using hinv.placed

/-- A server with one worker. -/
def sampleSetting : ServiceSetting where
  lib := Message.minimalLibrary
  config := { ServerConfig.sample 4096 with maxConnections := 1 }
  profile := SecurityProfile.hybrid

/-- A connection that brings some bytes. -/
def sampleConnection (sslNew : Bool) (chunks : List Chunk) : ServerAttempt :=
  { ServerAttempt.sample Message.minimalLibrary chunks with sslNew := sslNew }

/-- Its texts are UTF-8. -/
theorem textValid_sampleConnection (sslNew : Bool) (chunks : List Chunk) :
    (sampleSetting.attempt (sampleConnection sslNew chunks)).TextValid where
  profileId := rfl
  experimentId := rfl
  profile := rfl
  groups := by
    change ∀ group ∈ SecurityProfile.hybrid.groups, Utf8.valid group = true
    decide
  peerAddress := rfl
  receiveTimeout := by rintro _ ⟨⟩
  sendTimeout := by rintro _ ⟨⟩
  ssl := ⟨rfl, rfl, rfl, rfl, by rintro _ ⟨rfl⟩; decide⟩

/-- A connection for which OpenSSL cannot provide anything. -/
def failingConnection : ServerAttempt := sampleConnection false []

/-- A connection with one request. -/
def answeredConnection : ServerAttempt := sampleConnection true [Chunk.ping]

/-- The request of that connection is answered. -/
theorem success_answeredConnection :
    (Served.mk 1 (sampleSetting.attempt answeredConnection)).record.success = true := by
  let a := sampleSetting.attempt answeredConnection
  let env := a.loopEnv (Framing.Decoder.fresh 4096 (by decide))
  have hrecord : (Served.mk 1 a).record = a.conclude (a.loopRecord env.final) := rfl
  rw [hrecord, env.final_eq_state (n := 7) (by decide +kernel)]
  decide +kernel

/-- The acceptor starts the worker. -/
def opening : List PoolAction :=
  [.acceptor .proceed, .acceptor .proceed, .acceptor .proceed, .acceptor .proceed]

/-- A connection arrives, and the worker takes it. -/
def arrival : List PoolAction :=
  [.acceptor .proceed, .acceptor (.poll true), .acceptor (.accept true), .acceptor .proceed,
    .acceptor .proceed, .acceptor (.notifyOne none), .worker 0 .proceed, .worker 0 .proceed,
    .worker 0 .proceed]

/-- The server is stopped. -/
def ending : List PoolAction :=
  [.call, .stop 0, .stop 0, .acceptor .proceed, .acceptor .proceed, .acceptor .proceed,
    .worker 0 .proceed, .worker 0 .proceed, .worker 0 .proceed, .acceptor .proceed,
    .acceptor .proceed]

/-- A run up to the second of two connections, the first of which fails. -/
def firstRun : List ServiceAction :=
  (opening ++ arrival).map .pool ++ .serve 0 failingConnection :: arrival.map .pool

/-- The whole run. -/
def mixedRun : List ServiceAction :=
  firstRun ++ .serve 0 answeredConnection :: ending.map .pool

/-- Steps of the pool are steps of the server. -/
theorem foldlM_pool (cfg : ServiceSetting) {actions : List PoolAction}
    (hactions : ∀ a ∈ actions, isFinish a = false) {s : Service} {pool : Pool}
    (h : actions.foldlM (Pool.machine cfg.config.maxConnections).step s.pool = some pool) :
    (actions.map ServiceAction.pool).foldlM (Service.step cfg) s =
      some { s with pool := pool } := by
  induction actions generalizing s with
  | nil =>
    cases h
    rfl
  | cons a actions ih =>
    obtain ⟨hfirst, hrest⟩ := List.forall_mem_cons.mp hactions
    obtain ⟨next, hnext, h⟩ := Option.bind_eq_some_iff.mp h
    refine Option.bind_eq_some_iff.mpr ⟨{ s with pool := next }, ?_, ih hrest h⟩
    simp only [Service.step, hfirst, hnext, Bool.false_eq_true, if_false, Option.map_some]

/-- A connection whose texts are UTF-8 returns its worker to the pool. -/
theorem exists_serve (hlib : cfg.lib.Documented) {s : Service} {i id : ℕ} {env : ServerAttempt}
    (hvalid : (cfg.attempt env).TextValid) (hworker : s.pool.workers[i]? = some (.handling id))
    {pool : Pool} (hpool : (Pool.machine cfg.config.maxConnections).step s.pool
      (.worker i (.finish false)) = some pool) :
    ∃ writer, Service.step cfg s (.serve i env) =
      some ⟨pool, writer, s.served ++ [⟨id, cfg.attempt env⟩]⟩ := by
  have hok := write_served hlib hvalid s.writer id
  refine ⟨(s.writer.write cfg.lib (Served.mk id (cfg.attempt env)).record).1, ?_⟩
  simp only [Service.step, hworker, hok, Except.isOk, Except.toBool, Bool.not_true, hpool,
    Option.map_some]

/-- Both connections have been handled, and each has left its record. -/
theorem connections_served_and_recorded_failure :
    ∃ s, (machine sampleSetting ⟨true, [], []⟩).run mixedRun = some s ∧
      (s.served.map Served.id).Perm [0, 1] ∧ s.writer.records = s.served.map Served.record ∧
      s.served.map (fun c => c.record.success) = [false, true] := by
  have hactions : ∀ a ∈ mixedRun, sampleSetting.TextValid a := by
    intro a ha
    cases a with
    | pool b => trivial
    | serve i env =>
      have henv : env = failingConnection ∨ env = answeredConnection := by
        have hmem : i = 0 ∧ env = failingConnection ∨ i = 0 ∧ env = answeredConnection := by
          simpa [mixedRun, firstRun] using ha
        exact hmem.imp And.right And.right
      rcases henv with rfl | rfl
      · exact textValid_sampleConnection _ _
      · exact textValid_sampleConnection _ _
  -- The run is followed by evaluation up to the second connection, and after it in the pool.
  let pools := Pool.machine sampleSetting.config.maxConnections
  obtain ⟨s, hfirst, hworker, hsuccess, hrest⟩ :=
    (machine sampleSetting ⟨true, [], []⟩).exists_of_run_any firstRun
      (fun s => s.pool.workers[0]? = some (.handling 1) ∧
        s.served.map (fun c => c.record.success) = [false] ∧
        ((pools.step s.pool (.worker 0 (.finish false))).bind (ending.foldlM pools.step)).any
          (fun pool => decide (pool.acceptor = .returned ∧ pool.started = [0, 1])) = true)
      (by decide +kernel)
  obtain ⟨pool, hpool, hreturned⟩ := (Option.any_eq_true _ _).mp hrest
  obtain ⟨hreturned, hstarted⟩ := of_decide_eq_true hreturned
  obtain ⟨next, hnext, hending⟩ := Option.bind_eq_some_iff.mp hpool
  have hvalid : (sampleSetting.attempt answeredConnection).TextValid :=
    textValid_sampleConnection _ _
  obtain ⟨writer, hserve⟩ := exists_serve minimalLibrary_documented hvalid hworker hnext
  let served := s.served ++ [⟨1, sampleSetting.attempt answeredConnection⟩]
  have hrun : (machine sampleSetting ⟨true, [], []⟩).run mixedRun =
      some ⟨pool, writer, served⟩ := by
    have hlast := foldlM_pool sampleSetting (by decide) (s := ⟨next, writer, served⟩) hending
    rw [mixedRun, Machine.run, List.foldlM_append]
    refine Option.bind_eq_some_iff.mpr ⟨s, hfirst, ?_⟩
    exact Option.bind_eq_some_iff.mpr ⟨_, hserve, hlast⟩
  obtain ⟨-, -, -, -, hrecords, hend⟩ := connections_served_and_recorded sampleSetting _
    minimalLibrary_documented mixedRun _ hactions hrun
  have hsecond := success_answeredConnection
  refine ⟨_, hrun, hstarted ▸ hend hreturned, by simpa using hrecords, ?_⟩
  rw [List.map_append, hsuccess, List.map_singleton, hsecond]
  rfl

end Service

end PqtlsLab
