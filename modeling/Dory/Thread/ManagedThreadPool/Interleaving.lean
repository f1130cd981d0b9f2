/-
Module: Dory.Thread.ManagedThreadPool.Interleaving
Purpose: The threads that share a `TManagedThreadPoolBase`
  (thread/managed_thread_pool_base.cc), one critical section at a time:
  clients that get workers (`GetAvailableWorker()`, in two critical
  sections), launch them or put them back, workers that end their busy runs
  (`DoBusyRun()`), `SetConfig()` callers, one `RequestShutdown()`, and the
  manager thread of `DoRun()`, which copies the configuration, handles
  reconfigurations, prunes, and shuts the pool down.  Every run keeps
  `LiveWorkerCount = |IdleList| + |BusyList|` (`Inv.run`).  The two critical
  sections of `GetAvailableWorker()` let allocations pass the size limit
  together, and let a new worker join the busy list after a shutdown that
  did not wait for it.  Release builds define `NDEBUG`, so the pool's asserts
  are not checked.
Trusted boundary: none
Main exports: TManagerPhase, TPoolEvent, TPoolSystem, TPoolSystem.started,
  TPoolSystem.enabled, TPoolSystem.next, TPoolSystem.run,
  TPoolSystem.enabledRun, TPoolSystem.Inv, Inv.next, Inv.run
-/
import Dory.Thread.ManagedThreadPool.Counted

namespace Dory.Thread

/-- Where the manager thread is: before the first critical section of
`DoRun()`, in its loop, in `HandleShutdownRequest()` past its first critical
section (waiting for `AllWorkersFinished` or not), or returned. -/
inductive TManagerPhase where
  | starting
  | running
  | shuttingDown (waitForWorkers : Bool)
  | finished
deriving DecidableEq, Repr

/-- One critical section of one thread, or a step of a thread that only
changes what it holds.  Workers are numbered. -/
inductive TPoolEvent where
  /-- A client's first critical section of `GetAvailableWorker()`. -/
  | getAvailableWorker
  /-- That client's second one, for the worker it created in between. -/
  | createWorker (worker : Nat)
  /-- A client launches a worker it holds, which starts its busy run. -/
  | launch (worker : Nat)
  /-- A client releases a worker it holds without launching it:
  `PutBack()`, or the destructor of the worker's wrapper. -/
  | putBack (worker : Nat)
  /-- A worker ends its busy run. -/
  | finishWork (worker : Nat)
  | setConfig (cfg : TManagedThreadPoolConfig)
  /-- The manager copies the pool's configuration as `DoRun()` starts. -/
  | managerStart (now : Nat)
  | handleReconfig (now : Nat)
  | pruneThreadPool (now : Nat)
  | requestShutdown
  | beginShutdown
  | finishShutdown

/-- The pool and the threads around it.  `creating` are the workers that
clients create between the two critical sections of `GetAvailableWorker()`;
`held` those that clients hold, not yet launched or released; `unstarted`
those created and not yet launched, which hold no thread; `running` those in
a busy run.  The manager keeps its own copy of the configuration and its
next prune time. -/
structure TPoolSystem where
  pool : TManagedThreadPoolBase Nat
  managerConfig : TManagedThreadPoolConfig := {}
  pruneAt : Nat := 0
  manager : TManagerPhase := .starting
  shutdownRequested : Bool := false
  creating : List Nat := []
  held : List Nat := []
  unstarted : List Nat := []
  running : List Nat := []
  nextWorker : Nat

namespace TPoolSystem

/-- The constructor's pool after `Start(populate)`: `MinPoolSize` idle
workers when populated, none otherwise; the manager thread has started. -/
def started (config : TManagedThreadPoolConfig) (populate : Bool) : TPoolSystem :=
  let createCount := if populate then config.minPoolSize else 0
  { pool := ({ config } : TManagedThreadPoolBase Nat).start (List.range createCount)
    nextWorker := createCount }

/-- Whether a thread can run the event next: a client acts on a worker it
has, a worker ends a run it is in, and the manager polls `ReconfigSem`, its
prune timer and the shutdown request in its loop, and waits for
`AllWorkersFinished` when it decided to. -/
def enabled (s : TPoolSystem) : TPoolEvent → Bool
  | .getAvailableWorker => true
  | .createWorker worker => decide (worker ∈ s.creating)
  | .launch worker => decide (worker ∈ s.held)
  | .putBack worker => decide (worker ∈ s.held)
  | .finishWork worker => decide (worker ∈ s.running)
  | .setConfig _ => true
  | .managerStart _ => decide (s.manager = .starting)
  | .handleReconfig _ => decide (s.manager = .running ∧ s.pool.reconfigSem ≠ 0)
  | .pruneThreadPool now =>
      decide (s.manager = .running ∧ s.managerConfig.maxPruneFraction ≠ 0 ∧ s.pruneAt ≤ now)
  | .requestShutdown => !s.shutdownRequested
  | .beginShutdown => decide (s.manager = .running) && s.shutdownRequested
  | .finishShutdown =>
      match s.manager with
      | .shuttingDown waitForWorkers => !waitForWorkers || decide (s.pool.allWorkersFinished ≠ 0)
      | _ => false

/-- The state after one event. -/
def next (s : TPoolSystem) : TPoolEvent → TPoolSystem
  | .getAvailableWorker =>
      let (worker, pool) := s.pool.getAvailableWorker
      match worker with
      | .fromIdle worker => { s with pool, held := worker :: s.held }
      | .createNew =>
          -- `CreateWorker(false)`, outside the lock: a new worker with no thread
          { s with
            pool
            creating := s.nextWorker :: s.creating
            unstarted := s.nextWorker :: s.unstarted
            nextWorker := s.nextWorker + 1 }
      | _ => { s with pool }
  | .createWorker worker =>
      { s with
        pool := s.pool.getAvailableWorkerNew worker
        creating := s.creating.erase worker
        held := worker :: s.held }
  | .launch worker =>
      { s with
        held := s.held.erase worker
        unstarted := s.unstarted.erase worker
        running := worker :: s.running }
  | .putBack worker =>
      -- `IsStarted()`: the worker holds a thread
      { s with
        pool := s.pool.doPutBack worker (decide (worker ∉ s.unstarted))
        held := s.held.erase worker
        unstarted := s.unstarted.erase worker }
  | .finishWork worker => { s with pool := s.pool.finishWork worker, running := s.running.erase worker }
  | .setConfig cfg => { s with pool := s.pool.setConfig cfg }
  | .managerStart now =>
      { s with
        managerConfig := s.pool.config
        pruneAt := u64Add now s.pool.config.pruneQuantumMs
        manager := .running }
  | .handleReconfig now =>
      let (pruneAt, managerConfig, pool) := s.pool.handleReconfig s.pruneAt now s.managerConfig
      { s with pool, managerConfig, pruneAt }
  | .pruneThreadPool _ =>
      { s with
        pool := (s.pool.pruneThreadPool s.managerConfig).1
        pruneAt := u64Add s.pruneAt s.managerConfig.pruneQuantumMs }
  | .requestShutdown => { s with shutdownRequested := true }
  | .beginShutdown =>
      let (_, waitForWorkers, pool) := s.pool.beginShutdown
      { s with pool, manager := .shuttingDown waitForWorkers }
  | .finishShutdown =>
      match s.manager with
      | .shuttingDown waitForWorkers =>
          { s with pool := (s.pool.finishShutdown waitForWorkers).2, manager := .finished }
      | _ => s

/-- The state after a run of events. -/
def run (s : TPoolSystem) (events : List TPoolEvent) : TPoolSystem :=
  events.foldl next s

/-- Whether each event of a run can happen when it does. -/
def enabledRun (s : TPoolSystem) : List TPoolEvent → Bool
  | [] => true
  | event :: events => s.enabled event && (s.next event).enabledRun events

theorem run_cons (s : TPoolSystem) (event : TPoolEvent) (events : List TPoolEvent) :
    s.run (event :: events) = (s.next event).run events := rfl

theorem run_append (s : TPoolSystem) (events more : List TPoolEvent) :
    s.run (events ++ more) = (s.run events).run more := by
  simp [run, List.foldl_append]

theorem enabledRun_append (s : TPoolSystem) (events more : List TPoolEvent) :
    s.enabledRun (events ++ more) = (s.enabledRun events && (s.run events).enabledRun more) := by
  induction events generalizing s with
  | nil => simp [enabledRun, run]
  | cons event events ih => simp [enabledRun, ih, run_cons, Bool.and_assoc]

/-! ### The count over every run -/

/-- What every run keeps: the pool's count (`Counted`), and the busy list
holds exactly the workers that clients hold and those in a busy run. -/
structure Inv (s : TPoolSystem) : Prop where
  counted : s.pool.Counted
  busy_perm : s.pool.busyList.Perm (s.held ++ s.running)

theorem inv_started (config : TManagedThreadPoolConfig) (populate : Bool) : (started config populate).Inv :=
  ⟨TManagedThreadPoolBase.counted_start config _, List.Perm.refl []⟩

/-- A worker moved from one end of a list to the front of the other. -/
theorem perm_erase_append_cons {worker : Nat} {held : List Nat} (member : worker ∈ held) (running : List Nat) :
    (held.erase worker ++ worker :: running).Perm (held ++ running) :=
  List.perm_middle.trans ((List.perm_cons_erase member).symm.append_right running)

/-- A worker taken out of the second list. -/
theorem perm_append_erase {worker : Nat} {running : List Nat} (member : worker ∈ running) (held : List Nat) :
    ((held ++ running).erase worker).Perm (held ++ running.erase worker) := by
  have swapped : ((held ++ running).erase worker).Perm ((running ++ held).erase worker) :=
    List.perm_append_comm.erase worker
  rw [List.erase_append_left held member] at swapped
  exact swapped.trans List.perm_append_comm

section Step

variable {s : TPoolSystem}

/-- The manager's events change no worker. -/
theorem Inv.of_pool {after : TManagedThreadPoolBase Nat} (inv : s.Inv) (counted : after.Counted)
    (busy : after.busyList = s.pool.busyList) (t : TPoolSystem) (pool : t.pool = after) (held : t.held = s.held)
    (running : t.running = s.running) : t.Inv := by
  refine ⟨pool ▸ counted, ?_⟩
  rw [pool, held, running, busy]
  exact inv.busy_perm

theorem Inv.getAvailableWorker (inv : s.Inv) : (s.next .getAvailableWorker).Inv := by
  obtain ⟨counted, busy⟩ := inv.counted.getAvailableWorker
  rcases allocated : s.pool.getAvailableWorker with ⟨worker, pool⟩
  rw [allocated] at counted busy
  simp only [next, allocated]
  cases worker with
  | fromIdle worker =>
      -- the idle worker goes to the client
      refine ⟨counted, ?_⟩
      rw [busy]
      exact inv.busy_perm.cons worker
  | limited | notReady | createNew => exact ⟨counted, busy ▸ inv.busy_perm⟩

theorem Inv.createWorker (inv : s.Inv) (worker : Nat) : (s.next (.createWorker worker)).Inv := by
  obtain ⟨counted, busy⟩ := inv.counted.getAvailableWorkerNew worker
  refine ⟨counted, ?_⟩
  show (s.pool.getAvailableWorkerNew worker).busyList.Perm ((worker :: s.held) ++ s.running)
  rw [busy]
  exact inv.busy_perm.cons worker

theorem Inv.launch (inv : s.Inv) {worker : Nat} (held : worker ∈ s.held) : (s.next (.launch worker)).Inv :=
  ⟨inv.counted, inv.busy_perm.trans (perm_erase_append_cons held s.running).symm⟩

theorem Inv.putBack (inv : s.Inv) {worker : Nat} (held : worker ∈ s.held) : (s.next (.putBack worker)).Inv := by
  have busy : worker ∈ s.pool.busyList := inv.busy_perm.symm.subset (List.mem_append_left _ held)
  obtain ⟨counted, erased⟩ := inv.counted.doPutBack busy (decide (worker ∉ s.unstarted))
  refine ⟨counted, ?_⟩
  show (s.pool.doPutBack worker _).busyList.Perm (s.held.erase worker ++ s.running)
  rw [erased, ← List.erase_append_left s.running held]
  exact inv.busy_perm.erase worker

theorem Inv.finishWork (inv : s.Inv) {worker : Nat} (running : worker ∈ s.running) :
    (s.next (.finishWork worker)).Inv := by
  have busy : worker ∈ s.pool.busyList := inv.busy_perm.symm.subset (List.mem_append_right _ running)
  obtain ⟨counted, erased⟩ := inv.counted.finishWork busy
  refine ⟨counted, ?_⟩
  show (s.pool.finishWork worker).busyList.Perm (s.held ++ s.running.erase worker)
  rw [erased]
  exact (inv.busy_perm.erase worker).trans (perm_append_erase running s.held)

/-- One enabled event keeps the invariant: one case per event. -/
theorem Inv.next (inv : s.Inv) {event : TPoolEvent} (enabled : s.enabled event = true) : (s.next event).Inv := by
  cases event with
  | getAvailableWorker => exact inv.getAvailableWorker
  | createWorker worker => exact inv.createWorker worker
  | launch worker => exact inv.launch (of_decide_eq_true enabled)
  | putBack worker => exact inv.putBack (of_decide_eq_true enabled)
  | finishWork worker => exact inv.finishWork (of_decide_eq_true enabled)
  | setConfig cfg =>
      obtain ⟨counted, busy⟩ := inv.counted.setConfig cfg
      exact inv.of_pool counted busy _ rfl rfl rfl
  | handleReconfig now =>
      obtain ⟨counted, busy⟩ := inv.counted.handleReconfig s.pruneAt now s.managerConfig
      exact inv.of_pool counted busy _ rfl rfl rfl
  | pruneThreadPool now =>
      obtain ⟨counted, busy⟩ := inv.counted.pruneThreadPool s.managerConfig
      exact inv.of_pool counted busy _ rfl rfl rfl
  | beginShutdown =>
      obtain ⟨counted, busy⟩ := inv.counted.beginShutdown
      exact inv.of_pool counted busy _ rfl rfl rfl
  | finishShutdown =>
      simp only [TPoolSystem.next]
      split
      · obtain ⟨counted, busy⟩ := inv.counted.finishShutdown ‹Bool›
        exact inv.of_pool counted busy _ rfl rfl rfl
      · exact inv
  | managerStart now | requestShutdown => exact ⟨inv.counted, inv.busy_perm⟩

/-- Every run of enabled events keeps the invariant: by induction on the
events, each one a step. -/
theorem Inv.run (inv : s.Inv) (events : List TPoolEvent) (enabled : s.enabledRun events = true) :
    (s.run events).Inv := by
  induction events generalizing s with
  | nil => exact inv
  | cons event events ih =>
      simp only [enabledRun, Bool.and_eq_true] at enabled
      exact ih (inv.next enabled.1) enabled.2

end Step

/-! ### The window between the two critical sections of `GetAvailableWorker()` -/

section Window

/-- With the pool ready, under its size limit and without an idle worker,
the first critical section of `GetAvailableWorker()` leaves the pool as it
is: the new worker is only counted in the second one. -/
theorem getAvailableWorker_of_noIdle {pool : TManagedThreadPoolBase Nat} (ready : pool.poolIsReady = true)
    (noIdle : pool.idleList.totalItems = 0)
    (below : ¬ (pool.config.maxPoolSize ≠ 0 ∧ pool.liveWorkerCount ≥ pool.config.maxPoolSize)) :
    pool.getAvailableWorker = (.createNew, pool) := by
  have removed : pool.idleList.removeOneNewest = ([], pool.idleList) := by
    rw [TSegmentedList.removeOneNewest, if_pos noIdle]
  unfold TManagedThreadPoolBase.getAvailableWorker
  dsimp only
  rw [if_neg below, if_neg (by simp [ready]), removed]

variable {s : TPoolSystem}

theorem next_getAvailableWorker_of_noIdle (ready : s.pool.poolIsReady = true) (noIdle : s.pool.idleList.totalItems = 0)
    (below : ¬ (s.pool.config.maxPoolSize ≠ 0 ∧ s.pool.liveWorkerCount ≥ s.pool.config.maxPoolSize)) :
    s.next .getAvailableWorker =
      { s with
        creating := s.nextWorker :: s.creating
        unstarted := s.nextWorker :: s.unstarted
        nextWorker := s.nextWorker + 1 } := by
  simp only [next, getAvailableWorker_of_noIdle ready noIdle below]

/-- Clients that all pass the first critical section before any reaches the
second: by induction on their number, each leaves the pool as it is and
creates the next worker. -/
theorem run_replicate_getAvailableWorker (ready : s.pool.poolIsReady = true) (noIdle : s.pool.idleList.totalItems = 0)
    (below : ¬ (s.pool.config.maxPoolSize ≠ 0 ∧ s.pool.liveWorkerCount ≥ s.pool.config.maxPoolSize)) (count : Nat) :
    s.enabledRun (List.replicate count .getAvailableWorker) = true ∧
      (s.run (List.replicate count .getAvailableWorker)).pool = s.pool ∧
      (s.run (List.replicate count .getAvailableWorker)).creating =
        (List.range' s.nextWorker count).reverse ++ s.creating := by
  induction count generalizing s with
  | zero => exact ⟨rfl, rfl, rfl⟩
  | succ count ih =>
      have first := next_getAvailableWorker_of_noIdle ready noIdle below
      obtain ⟨enabled, pool, creating⟩ := ih (s := s.next .getAvailableWorker)
        (by rw [first]; exact ready) (by rw [first]; exact noIdle) (by rw [first]; exact below)
      rw [first] at enabled pool creating
      refine ⟨?_, ?_, ?_⟩
      · rw [List.replicate_succ, enabledRun, first, enabled]
        rfl
      · rw [List.replicate_succ, run_cons, first, pool]
      · rw [List.replicate_succ, run_cons, first, creating, List.range'_succ, List.reverse_cons, List.append_assoc]
        rfl

/-- The second critical sections of distinct workers being created: by
induction on the workers, each one is counted live without any check. -/
theorem run_createWorker (workers : List Nat) (distinct : workers.Nodup) (creating : ∀ worker ∈ workers, worker ∈ s.creating) :
    s.enabledRun (workers.map .createWorker) = true ∧
      (s.run (workers.map .createWorker)).pool.config = s.pool.config ∧
      (s.run (workers.map .createWorker)).pool.liveWorkerCount = s.pool.liveWorkerCount + workers.length := by
  induction workers generalizing s with
  | nil => exact ⟨rfl, rfl, rfl⟩
  | cons worker workers ih =>
      obtain ⟨fresh, distinct⟩ := List.nodup_cons.mp distinct
      -- the other workers are still being created
      have others : ∀ other ∈ workers, other ∈ (s.next (.createWorker worker)).creating := by
        intro other member
        have different : other ≠ worker := fun same => fresh (same ▸ member)
        exact (List.mem_erase_of_ne different).mpr (creating other (List.mem_cons_of_mem _ member))
      obtain ⟨enabled, config, live⟩ := ih distinct others
      refine ⟨?_, config, ?_⟩
      · simp only [List.map_cons, enabledRun, enabled, Bool.and_true]
        exact decide_eq_true (creating worker List.mem_cons_self)
      · rw [List.map_cons, run_cons, live, List.length_cons]
        show s.pool.liveWorkerCount + 1 + workers.length = _
        omega

/-- Clients under `MaxPoolSize` that all pass the size check of the first
critical section before any reaches the second: each adds its worker, and
`LiveWorkerCount` grows by their number, past the limit of the configuration
in force. -/
theorem allocations_exceed_max_pool_size (s : TPoolSystem) (ready : s.pool.poolIsReady = true)
    (noIdle : s.pool.idleList.totalItems = 0) (below : s.pool.liveWorkerCount < s.pool.config.maxPoolSize)
    (count : Nat) :
    s.enabledRun (List.replicate count .getAvailableWorker ++ (List.range' s.nextWorker count).map .createWorker) = true ∧
      (s.run (List.replicate count .getAvailableWorker ++ (List.range' s.nextWorker count).map .createWorker)).pool.config =
        s.pool.config ∧
      (s.run (List.replicate count .getAvailableWorker ++
        (List.range' s.nextWorker count).map .createWorker)).pool.liveWorkerCount = s.pool.liveWorkerCount + count := by
  have underLimit : ¬ (s.pool.config.maxPoolSize ≠ 0 ∧ s.pool.liveWorkerCount ≥ s.pool.config.maxPoolSize) := by
    omega
  obtain ⟨passed, pool, creating⟩ := run_replicate_getAvailableWorker ready noIdle underLimit count
  have created : ∀ worker ∈ List.range' s.nextWorker count,
      worker ∈ (s.run (List.replicate count .getAvailableWorker)).creating := by
    intro worker member
    rw [creating]
    exact List.mem_append_left _ (List.mem_reverse.mpr member)
  obtain ⟨counted, config, live⟩ := run_createWorker _ List.nodup_range' created
  rw [pool] at config live
  rw [List.length_range'] at live
  refine ⟨?_, ?_, ?_⟩
  · rw [enabledRun_append, passed, counted]
    rfl
  · rw [run_append, config]
  · rw [run_append, live]

/-- Two clients of a pool just started without workers and with
`MaxPoolSize` 1 both get a worker: two live workers. -/
theorem allocations_exceed_max_pool_size_two :
    let s := started { maxPoolSize := 1 } false
    s.pool.poolIsReady = true ∧ s.pool.idleList.totalItems = 0 ∧ s.pool.liveWorkerCount < s.pool.config.maxPoolSize ∧
      (s.enabledRun (List.replicate 2 .getAvailableWorker ++ (List.range' s.nextWorker 2).map .createWorker) = true ∧
        (s.run (List.replicate 2 .getAvailableWorker ++ (List.range' s.nextWorker 2).map .createWorker)).pool.config =
          s.pool.config ∧
        (s.run (List.replicate 2 .getAvailableWorker ++
          (List.range' s.nextWorker 2).map .createWorker)).pool.liveWorkerCount = s.pool.liveWorkerCount + 2) ∧
      (s.run (List.replicate 2 .getAvailableWorker ++
          (List.range' s.nextWorker 2).map .createWorker)).pool.config.maxPoolSize <
        (s.run (List.replicate 2 .getAvailableWorker ++ (List.range' s.nextWorker 2).map .createWorker)).pool.liveWorkerCount := by
  intro s
  have ready : s.pool.poolIsReady = true := rfl
  have noIdle : s.pool.idleList.totalItems = 0 := rfl
  have below : s.pool.liveWorkerCount < s.pool.config.maxPoolSize := Nat.zero_lt_one
  obtain ⟨enabled, config, live⟩ := allocations_exceed_max_pool_size s ready noIdle below 2
  refine ⟨ready, noIdle, below, ⟨enabled, config, live⟩, ?_⟩
  rw [config, live]
  exact (by decide : 1 < 0 + 2)

end Window

/-! ### Shutdown -/

section Shutdown

variable {s : TPoolSystem}

/-- A client that passes the readiness check of `GetAvailableWorker()` while
no worker is live, just before the manager's first critical section of
`HandleShutdownRequest()`: the manager decides not to wait, the client then
counts its new worker live on the busy list, and the shutdown returns with
it there. -/
theorem shutdown_misses_new_worker (inv : s.Inv) (ready : s.pool.poolIsReady = true)
    (running : s.manager = .running) (requested : s.shutdownRequested = true) (noWorker : s.pool.liveWorkerCount = 0) :
    s.enabledRun [.getAvailableWorker, .beginShutdown, .createWorker s.nextWorker, .finishShutdown] = true ∧
      (s.run [.getAvailableWorker, .beginShutdown, .createWorker s.nextWorker, .finishShutdown]).manager = .finished ∧
      (s.run [.getAvailableWorker, .beginShutdown, .createWorker s.nextWorker, .finishShutdown]).pool.busyList =
        [s.nextWorker] ∧
      (s.run [.getAvailableWorker, .beginShutdown, .createWorker s.nextWorker, .finishShutdown]).pool.liveWorkerCount = 1 := by
  have counted := inv.counted.live_eq
  have noIdle : s.pool.idleList.totalItems = 0 := by omega
  have noBusy : s.pool.busyList = [] := List.eq_nil_of_length_eq_zero (by omega)
  have first := next_getAvailableWorker_of_noIdle ready noIdle (by omega)
  -- the manager sees no live worker and does not wait
  have noWait : s.pool.beginShutdown.2.1 = false := by
    simp [TManagedThreadPoolBase.beginShutdown, noWorker]
  have second : (s.next .getAvailableWorker).next .beginShutdown =
      { s with
        pool := s.pool.beginShutdown.2.2
        manager := .shuttingDown false
        creating := s.nextWorker :: s.creating
        unstarted := s.nextWorker :: s.unstarted
        nextWorker := s.nextWorker + 1 } := by
    rw [first, ← noWait]
    rfl
  have run : s.run [.getAvailableWorker, .beginShutdown, .createWorker s.nextWorker, .finishShutdown] =
      (((s.next .getAvailableWorker).next .beginShutdown).next (.createWorker s.nextWorker)).next .finishShutdown := rfl
  refine ⟨?_, ?_, ?_, ?_⟩
  · simp only [enabledRun]
    rw [second, first]
    simp [enabled, next, running, requested]
  · rw [run, second]
    rfl
  · -- the new worker reaches the busy list after the manager emptied the pool
    rw [run, second]
    show s.nextWorker :: s.pool.busyList = [s.nextWorker]
    rw [noBusy]
  · rw [run, second]
    show s.pool.liveWorkerCount - s.pool.idleList.totalItems + 1 = 1
    omega

/-- A pool started without workers, with its manager in its loop and the
shutdown requested. -/
theorem shutdown_misses_new_worker_started :
    let s := (started {} false).run [.managerStart 0, .requestShutdown]
    s.Inv ∧ s.pool.poolIsReady = true ∧ s.manager = .running ∧ s.shutdownRequested = true ∧
      s.pool.liveWorkerCount = 0 ∧
      (s.enabledRun [.getAvailableWorker, .beginShutdown, .createWorker s.nextWorker, .finishShutdown] = true ∧
        (s.run [.getAvailableWorker, .beginShutdown, .createWorker s.nextWorker, .finishShutdown]).manager = .finished ∧
        (s.run [.getAvailableWorker, .beginShutdown, .createWorker s.nextWorker, .finishShutdown]).pool.busyList =
          [s.nextWorker] ∧
        (s.run [.getAvailableWorker, .beginShutdown, .createWorker s.nextWorker, .finishShutdown]).pool.liveWorkerCount =
          1) := by
  intro s
  have inv : s.Inv := (inv_started {} false).run _ rfl
  have ready : s.pool.poolIsReady = true := rfl
  have running : s.manager = .running := rfl
  have requested : s.shutdownRequested = true := rfl
  have noWorker : s.pool.liveWorkerCount = 0 := rfl
  exact ⟨inv, ready, running, requested, noWorker, shutdown_misses_new_worker inv ready running requested noWorker⟩

end Shutdown

/-! ### The count over the runs from `Start()` -/

/-- From `Start()`, every interleaving of the threads keeps, at each release
of `PoolLock`, `LiveWorkerCount = |IdleList| + |BusyList|`, a valid idle
list, and on the busy list exactly the workers that clients hold and those
in a busy run. -/
theorem run_keeps_live_count (config : TManagedThreadPoolConfig) (populate : Bool) (events : List TPoolEvent)
    (enabled : (started config populate).enabledRun events = true) :
    ((started config populate).run events).pool.liveWorkerCount =
        ((started config populate).run events).pool.idleList.totalItems +
          ((started config populate).run events).pool.busyList.length ∧
      ((started config populate).run events).pool.idleList.Valid ∧
      ((started config populate).run events).pool.busyList.Perm
        (((started config populate).run events).held ++ ((started config populate).run events).running) := by
  have inv := (inv_started config populate).run events enabled
  exact ⟨inv.counted.live_eq, inv.counted.idle_valid, inv.busy_perm⟩

/-- A populated pool of two, a client that gets the newest idle worker and
launches it, and the worker that ends its run and becomes idle again. -/
theorem run_keeps_live_count_launch :
    (started { minPoolSize := 2 } true).enabledRun [.managerStart 0, .getAvailableWorker, .launch 0, .finishWork 0] = true ∧
      (((started { minPoolSize := 2 } true).run [.managerStart 0, .getAvailableWorker, .launch 0, .finishWork 0]).pool.liveWorkerCount =
          ((started { minPoolSize := 2 } true).run [.managerStart 0, .getAvailableWorker, .launch 0, .finishWork 0]).pool.idleList.totalItems +
            ((started { minPoolSize := 2 } true).run [.managerStart 0, .getAvailableWorker, .launch 0, .finishWork 0]).pool.busyList.length ∧
        ((started { minPoolSize := 2 } true).run [.managerStart 0, .getAvailableWorker, .launch 0, .finishWork 0]).pool.idleList.Valid ∧
        ((started { minPoolSize := 2 } true).run [.managerStart 0, .getAvailableWorker, .launch 0, .finishWork 0]).pool.busyList.Perm
          (((started { minPoolSize := 2 } true).run [.managerStart 0, .getAvailableWorker, .launch 0, .finishWork 0]).held ++
            ((started { minPoolSize := 2 } true).run [.managerStart 0, .getAvailableWorker, .launch 0, .finishWork 0]).running)) := by
  have enabled : (started { minPoolSize := 2 } true).enabledRun
      [.managerStart 0, .getAvailableWorker, .launch 0, .finishWork 0] = true := by decide
  exact ⟨enabled, run_keeps_live_count _ _ _ enabled⟩

end TPoolSystem

end Dory.Thread
