/-
Module: Dory.Thread.ManagedThreadPool.Counted
Purpose: What each critical section under `PoolLock`
  (thread/managed_thread_pool_base.cc) keeps of the pool's bookkeeping: the
  idle list stays a valid segmented list, and `LiveWorkerCount` stays the
  number of idle and busy workers.  One lemma for each critical section says
  that it keeps this, and what it does to the busy list.  Release builds
  define `NDEBUG`, so the pool's asserts are not checked.
Trusted boundary: none
Main exports: TManagedThreadPoolBase.Counted, counted_start,
  Counted.getAvailableWorker, Counted.getAvailableWorkerNew, Counted.doPutBack,
  Counted.finishWork, Counted.setConfig, Counted.handleReconfig,
  Counted.pruneThreadPool, Counted.beginShutdown, Counted.finishShutdown
-/
import Dory.Thread.ManagedThreadPool.Pruning

namespace Dory.Thread

/-- The worker that the first critical section of `GetAvailableWorker()`
hands out from the idle list, if any. -/
def TAvailableWorker.handedOut {α : Type} : TAvailableWorker α → List α
  | .fromIdle worker => [worker]
  | _ => []

namespace TManagedThreadPoolBase

variable {α : Type}

/-- The pool as each critical section leaves it: the idle list is valid, and
each live worker is on the idle list or on the busy list. -/
structure Counted (pool : TManagedThreadPoolBase α) : Prop where
  idle_valid : pool.idleList.Valid
  live_eq : pool.liveWorkerCount = pool.idleList.totalItems + pool.busyList.length

/-- `Start()` on the constructor's pool counts its initial workers live and
idle. -/
theorem counted_start (config : TManagedThreadPoolConfig) (initialWorkers : List α) :
    (({ config } : TManagedThreadPoolBase α).start initialWorkers).Counted := by
  refine ⟨(TSegmentedList.valid_new.addNewList initialWorkers).1, ?_⟩
  show initialWorkers.length = (TSegmentedList.new.addNewList initialWorkers).totalItems + 0
  rw [TSegmentedList.valid_new.totalItems_addNewList]
  rfl

/-- `SetConfig()` changes no worker. -/
theorem Counted.setConfig {pool : TManagedThreadPoolBase α} (counted : pool.Counted) (cfg : TManagedThreadPoolConfig) :
    (pool.setConfig cfg).Counted ∧ (pool.setConfig cfg).busyList = pool.busyList := by
  unfold TManagedThreadPoolBase.setConfig
  split
  · exact ⟨⟨counted.idle_valid, counted.live_eq⟩, rfl⟩
  · exact ⟨counted, rfl⟩

/-- `HandleReconfig()` may reset the idle list's segments, which keeps its
workers. -/
theorem Counted.handleReconfig {pool : TManagedThreadPoolBase α} (counted : pool.Counted)
    (oldPruneAt now : Nat) (managerConfig : TManagedThreadPoolConfig) :
    (pool.handleReconfig oldPruneAt now managerConfig).2.2.Counted ∧
      (pool.handleReconfig oldPruneAt now managerConfig).2.2.busyList = pool.busyList := by
  unfold TManagedThreadPoolBase.handleReconfig
  dsimp only
  split_ifs
  · refine ⟨⟨counted.idle_valid.resetSegments.1, ?_⟩, rfl⟩
    show pool.liveWorkerCount = pool.idleList.resetSegments.totalItems + pool.busyList.length
    rw [counted.idle_valid.totalItems_resetSegments]
    exact counted.live_eq
  · exact ⟨⟨counted.idle_valid, counted.live_eq⟩, rfl⟩

/-- `PruneThreadPool()` takes each worker it prunes off the idle list and
off `LiveWorkerCount`. -/
theorem Counted.pruneThreadPool {pool : TManagedThreadPoolBase α} (counted : pool.Counted)
    (managerConfig : TManagedThreadPoolConfig) :
    (pool.pruneThreadPool managerConfig).1.Counted ∧
      (pool.pruneThreadPool managerConfig).1.busyList = pool.busyList := by
  by_cases short : pool.idleList.numSegments < managerConfig.pruneQuantumCount
  · -- a new segment in front, no worker pruned
    rw [pruneThreadPool_of_lt short]
    refine ⟨⟨counted.idle_valid.addNewSegment.1, ?_⟩, rfl⟩
    show pool.liveWorkerCount = pool.idleList.addNewSegment.totalItems + pool.busyList.length
    rw [counted.idle_valid.totalItems_addNewSegment]
    exact counted.live_eq
  · have full := Nat.le_of_not_lt short
    obtain ⟨-, live, idle, valid⟩ := pruneThreadPool_of_le counted.idle_valid full
    have busy : (pool.pruneThreadPool managerConfig).1.busyList = pool.busyList := by
      rw [pruneThreadPool_of_not_lt full]
    -- the workers pruned are among the idle ones
    have within := Segments.length_oldest_le pool.idleList.copyOutSegments
    have count := counted.idle_valid.totalItems_eq_length
    have before := counted.live_eq
    refine ⟨⟨valid, ?_⟩, busy⟩
    rw [live, idle, busy]
    omega

/-- The first critical section of `HandleShutdownRequest()` takes every idle
worker off the idle list and off `LiveWorkerCount`. -/
theorem Counted.beginShutdown {pool : TManagedThreadPoolBase α} (counted : pool.Counted) :
    pool.beginShutdown.2.2.Counted ∧ pool.beginShutdown.2.2.busyList = pool.busyList := by
  have emptied := counted.idle_valid.totalItems_emptyAllAndResetSegments
  have before := counted.live_eq
  refine ⟨⟨(counted.idle_valid.step .emptyAllAndResetSegments).1, ?_⟩, rfl⟩
  show pool.liveWorkerCount - pool.idleList.totalItems =
    pool.idleList.emptyAllAndResetSegments.2.totalItems + pool.busyList.length
  omega

/-- The end of `HandleShutdownRequest()` only empties the join list. -/
theorem Counted.finishShutdown {pool : TManagedThreadPoolBase α} (counted : pool.Counted) (waitForWorkers : Bool) :
    (pool.finishShutdown waitForWorkers).2.Counted ∧ (pool.finishShutdown waitForWorkers).2.busyList = pool.busyList := by
  cases waitForWorkers
  · exact ⟨⟨counted.idle_valid, counted.live_eq⟩, rfl⟩
  · exact ⟨⟨counted.idle_valid, counted.live_eq⟩, rfl⟩

/-- The first critical section of `GetAvailableWorker()` hands out the newest
idle worker, if any, from the idle list to the front of the busy list. -/
theorem Counted.getAvailableWorker {pool : TManagedThreadPoolBase α} (counted : pool.Counted) :
    pool.getAvailableWorker.2.Counted ∧
      pool.getAvailableWorker.2.busyList = pool.getAvailableWorker.1.handedOut ++ pool.busyList := by
  unfold TManagedThreadPoolBase.getAvailableWorker
  dsimp only
  split_ifs
  · exact ⟨counted, rfl⟩
  · exact ⟨counted, rfl⟩
  · rcases removed : pool.idleList.removeOneNewest with ⟨taken, idleList⟩
    obtain ⟨valid, atMostOne, total⟩ := counted.idle_valid.removeOneNewest_eq removed
    have before := counted.live_eq
    cases taken with
    | nil =>
        -- no idle worker: the client is to create one
        refine ⟨⟨valid, ?_⟩, rfl⟩
        simp only [List.length_nil, Nat.zero_add] at total
        show pool.liveWorkerCount = idleList.totalItems + pool.busyList.length
        rw [total]
        exact before
    | cons worker rest =>
        have single : rest.length = 0 := by
          simp only [List.length_cons] at atMostOne
          omega
        refine ⟨⟨valid, ?_⟩, rfl⟩
        simp only [List.length_cons] at total
        show pool.liveWorkerCount = idleList.totalItems + (worker :: pool.busyList).length
        simp only [List.length_cons]
        omega

/-- The second critical section of `GetAvailableWorker()` counts the new
worker live, at the front of the busy list. -/
theorem Counted.getAvailableWorkerNew {pool : TManagedThreadPoolBase α} (counted : pool.Counted) (worker : α) :
    (pool.getAvailableWorkerNew worker).Counted ∧
      (pool.getAvailableWorkerNew worker).busyList = worker :: pool.busyList := by
  refine ⟨⟨counted.idle_valid, ?_⟩, rfl⟩
  show pool.liveWorkerCount + 1 = pool.idleList.totalItems + (worker :: pool.busyList).length
  rw [List.length_cons, counted.live_eq]
  omega

section Busy

variable [DecidableEq α] {pool : TManagedThreadPoolBase α}

/-- A busy worker that goes back on the idle list stays counted live. -/
theorem Counted.of_toIdle (counted : pool.Counted) {worker : α} (busy : worker ∈ pool.busyList)
    {after : TManagedThreadPoolBase α} (idle : after.idleList = pool.idleList.addNewList [worker])
    (busyAfter : after.busyList = pool.busyList.erase worker) (live : after.liveWorkerCount = pool.liveWorkerCount) :
    after.Counted := by
  have erased := List.length_erase_of_mem busy
  have positive := List.length_pos_of_mem busy
  have before := counted.live_eq
  refine ⟨idle ▸ (counted.idle_valid.addNewList [worker]).1, ?_⟩
  rw [idle, busyAfter, live, counted.idle_valid.totalItems_addNewList, erased, List.length_singleton]
  omega

/-- A busy worker that stops being live leaves the count. -/
theorem Counted.of_retire (counted : pool.Counted) {worker : α} (busy : worker ∈ pool.busyList)
    {after : TManagedThreadPoolBase α} (idle : after.idleList = pool.idleList)
    (busyAfter : after.busyList = pool.busyList.erase worker) (live : after.liveWorkerCount = pool.liveWorkerCount - 1) :
    after.Counted := by
  have erased := List.length_erase_of_mem busy
  have positive := List.length_pos_of_mem busy
  have before := counted.live_eq
  refine ⟨idle ▸ counted.idle_valid, ?_⟩
  rw [idle, busyAfter, live, erased]
  omega

/-- `DoPutBack()` takes the worker off the busy list: it goes back to the
idle list, or stops being live. -/
theorem Counted.doPutBack (counted : pool.Counted) {worker : α} (busy : worker ∈ pool.busyList) (fromPool : Bool) :
    (pool.doPutBack worker fromPool).Counted ∧ (pool.doPutBack worker fromPool).busyList = pool.busyList.erase worker := by
  unfold TManagedThreadPoolBase.doPutBack xferFromBusyList
  dsimp only
  split_ifs
  · -- back on the idle list
    exact ⟨counted.of_toIdle busy rfl rfl rfl, rfl⟩
  · -- destroyed, the last one of a shutdown
    exact ⟨counted.of_retire busy rfl rfl rfl, rfl⟩
  · -- destroyed
    exact ⟨counted.of_retire busy rfl rfl rfl, rfl⟩

/-- `LeaveBusyList()` takes the worker off the busy list: it becomes idle,
or goes to the join list and stops being live. -/
theorem Counted.leaveBusyList (counted : pool.Counted) {worker : α} (busy : worker ∈ pool.busyList) :
    (pool.leaveBusyList worker).2.Counted ∧ (pool.leaveBusyList worker).2.busyList = pool.busyList.erase worker := by
  unfold TManagedThreadPoolBase.leaveBusyList xferFromBusyList
  dsimp only
  split
  · -- idle again
    exact ⟨counted.of_toIdle busy rfl rfl rfl, rfl⟩
  · -- on the join list
    exact ⟨counted.of_retire busy rfl rfl rfl, rfl⟩

/-- The end of a busy run is `LeaveBusyList()`, and a push of
`AllWorkersFinished` that changes no worker. -/
theorem Counted.finishWork (counted : pool.Counted) {worker : α} (busy : worker ∈ pool.busyList) :
    (pool.finishWork worker).Counted ∧ (pool.finishWork worker).busyList = pool.busyList.erase worker := by
  obtain ⟨left, leftBusy⟩ := counted.leaveBusyList busy
  unfold TManagedThreadPoolBase.finishWork
  rcases leaving : pool.leaveBusyList worker with ⟨action, after⟩
  rw [leaving] at left leftBusy
  cases action
  · exact ⟨left, leftBusy⟩
  · exact ⟨left, leftBusy⟩
  · exact ⟨⟨left.idle_valid, left.live_eq⟩, leftBusy⟩

end Busy

end TManagedThreadPoolBase

end Dory.Thread
