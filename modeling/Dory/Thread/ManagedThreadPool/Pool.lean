/-
Module: Dory.Thread.ManagedThreadPool.Pool
Purpose: The state of `TManagedThreadPoolBase` (thread/managed_thread_pool_base.{h,cc})
  that `PoolLock` protects, and each piece of code that changes it, as one
  function: the two critical sections of `GetAvailableWorker()`,
  `DoPutBack()`, `LeaveBusyList()` as `DoBusyRun()` calls it, `SetConfig()`,
  `Start()`, and the manager's `HandleReconfig()`, `PruneThreadPool()` and
  the two critical sections of `HandleShutdownRequest()`.  Workers are kept
  by their smart pointers, a type `α` with equality (`BusyListPos` finds a
  worker on the busy list); the event semaphores `ReconfigSem` and
  `AllWorkersFinished` are their counts.  The `uint64_t` times of
  `HandleReconfig()` wrap modulo `2^64`.  Release builds define `NDEBUG`, so
  the pool's asserts are not checked.
Trusted boundary: none
Main exports: TManagedThreadPoolStats, TManagedThreadPoolBase,
  TManagedThreadPoolBase.getAvailableWorker, getAvailableWorkerNew, doPutBack,
  finishWork, setConfig, start, handleReconfig, pruneThreadPool,
  beginShutdown, finishShutdown
-/
import Dory.Thread.ManagedThreadPool.Prune
import Dory.Thread.SegmentedList.Refinement

namespace Dory.Thread

/-- The fields of `TManagedThreadPoolStats` that `PruneThreadPool()` reads. -/
structure TManagedThreadPoolStats where
  pruneOpCount : Nat := 0
  prunedThreadCount : Nat := 0
  minPrunedByOp : Nat := 0
  maxPrunedByOp : Nat := 0
deriving DecidableEq, Repr

namespace TManagedThreadPoolStats

/-- The prune statistics after a prune of `pruneCount` threads, the
`pruneOpCount`-th. -/
def recordPrune (pruneCount : Nat) (stats : TManagedThreadPoolStats) :
    TManagedThreadPoolStats :=
  let stats := { stats with prunedThreadCount := stats.prunedThreadCount + pruneCount }
  let stats :=
    if stats.pruneOpCount = 1 ∨ pruneCount < stats.minPrunedByOp then { stats with minPrunedByOp := pruneCount }
    else stats
  if pruneCount > stats.maxPrunedByOp then { stats with maxPrunedByOp := pruneCount } else stats

end TManagedThreadPoolStats

/-- What a worker does after `LeaveBusyList()`. -/
inductive TAfterBusyAction where
  | becomeIdle
  | terminate
  | notifyAndTerminate
deriving DecidableEq, Repr

/-- What the first critical section of `GetAvailableWorker()` decides: the
size limit is reached (`nullptr`), the pool is not ready (`TPoolNotReady`),
an idle worker is handed out, or a new one has to be created. -/
inductive TAvailableWorker (α : Type) where
  | limited
  | notReady
  | fromIdle (worker : α)
  | createNew
deriving DecidableEq, Repr

/-- The pool's state under `PoolLock`, with the counts of its two
semaphores. -/
structure TManagedThreadPoolBase (α : Type) where
  config : TManagedThreadPoolConfig
  reconfigPending : Bool := false
  poolIsReady : Bool := false
  idleList : TSegmentedList α := TSegmentedList.new
  busyList : List α := []
  joinList : List α := []
  liveWorkerCount : Nat := 0
  stats : TManagedThreadPoolStats := {}
  reconfigSem : Nat := 0
  allWorkersFinished : Nat := 0

/-- `uint64_t` addition and subtraction. -/
def u64Add (a b : Nat) : Nat :=
  (a + b) % 2 ^ 64

def u64Sub (a b : Nat) : Nat :=
  (a + 2 ^ 64 - b % 2 ^ 64) % 2 ^ 64

namespace TManagedThreadPoolBase

variable {α : Type} [DecidableEq α]

/-- `AddToBusyList()`: the worker goes to the front of the busy list. -/
def addToBusyList (worker : α) (pool : TManagedThreadPoolBase α) : TManagedThreadPoolBase α :=
  { pool with busyList := worker :: pool.busyList }

/-- `XferFromBusyList()`: the worker leaves the busy list. -/
def xferFromBusyList (worker : α) (pool : TManagedThreadPoolBase α) : TManagedThreadPoolBase α :=
  { pool with busyList := pool.busyList.erase worker }

/-- The first critical section of `GetAvailableWorker()`: the size limit
and readiness checks, then the newest idle worker, if any. -/
def getAvailableWorker (pool : TManagedThreadPoolBase α) : TAvailableWorker α × TManagedThreadPoolBase α :=
  let maxPoolSize := pool.config.maxPoolSize
  if maxPoolSize ≠ 0 ∧ pool.liveWorkerCount ≥ maxPoolSize then (.limited, pool)
  else if !pool.poolIsReady then (.notReady, pool)
  else
    let (readyWorker, idleList) := pool.idleList.removeOneNewest
    match readyWorker with
    | worker :: _ => (.fromIdle worker, { pool with idleList }.addToBusyList worker)
    | [] => (.createNew, { pool with idleList })

/-- The second critical section of `GetAvailableWorker()`, once the new
worker is created: it is counted live and put on the busy list.  Neither
check of the first critical section is made again. -/
def getAvailableWorkerNew (worker : α) (pool : TManagedThreadPoolBase α) : TManagedThreadPoolBase α :=
  { pool with liveWorkerCount := pool.liveWorkerCount + 1 }.addToBusyList worker

/-- `DoPutBack()`: a worker the client releases without launching it.
`fromPool` is `worker->IsStarted()`: the worker holds an idle thread, so it
came from the idle list.  It goes back there while the pool is ready, and is
destroyed otherwise; the last worker destroyed during a shutdown pushes
`AllWorkersFinished`. -/
def doPutBack (worker : α) (fromPool : Bool) (pool : TManagedThreadPoolBase α) : TManagedThreadPoolBase α :=
  let pool := pool.xferFromBusyList worker
  if pool.poolIsReady ∧ fromPool then { pool with idleList := pool.idleList.addNewList [worker] }
  else
    let shutdownNotify := !pool.poolIsReady ∧ pool.liveWorkerCount = 1
    let pool := { pool with liveWorkerCount := pool.liveWorkerCount - 1 }
    if shutdownNotify then { pool with allWorkersFinished := pool.allWorkersFinished + 1 } else pool

/-- `LeaveBusyList()`: a worker done with its work returns to the idle list
while the pool is ready, and otherwise goes to the join list to terminate,
notifying the manager when it is the last live worker. -/
def leaveBusyList (worker : α) (pool : TManagedThreadPoolBase α) : TAfterBusyAction × TManagedThreadPoolBase α :=
  let pool := pool.xferFromBusyList worker
  if pool.poolIsReady then (.becomeIdle, { pool with idleList := pool.idleList.addNewList [worker] })
  else
    let pool := { pool with joinList := pool.joinList ++ [worker], liveWorkerCount := pool.liveWorkerCount - 1 }
    (if pool.liveWorkerCount = 0 then .notifyAndTerminate else .terminate, pool)

/-- The end of a busy run in `DoBusyRun()`: `LeaveBusyList()` under the
lock, then the push of `AllWorkersFinished` by the last worker. -/
def finishWork (worker : α) (pool : TManagedThreadPoolBase α) : TManagedThreadPoolBase α :=
  match pool.leaveBusyList worker with
  | (.notifyAndTerminate, pool) => { pool with allWorkersFinished := pool.allWorkersFinished + 1 }
  | (_, pool) => pool

/-- `SetConfig()`: a configuration that `operator!=` tells apart from the
current one replaces it, and the manager is told once. -/
def setConfig (cfg : TManagedThreadPoolConfig) (pool : TManagedThreadPoolBase α) : TManagedThreadPoolBase α :=
  if !cfg.beq pool.config then
    { pool with
      config := cfg
      reconfigPending := true
      reconfigSem := if !pool.reconfigPending then pool.reconfigSem + 1 else pool.reconfigSem }
  else pool

/-- `Start()`: the initial workers, `MinPoolSize` of them when the pool is
populated, become idle and live, and the pool becomes ready. -/
def start (initialWorkers : List α) (pool : TManagedThreadPoolBase α) : TManagedThreadPoolBase α :=
  { pool with
    reconfigPending := false
    stats := {}
    idleList := pool.idleList.addNewList initialWorkers
    liveWorkerCount := initialWorkers.length
    poolIsReady := true }

/-! ### The manager -/

/-- `HandleReconfig(old_prune_at, now)`: the manager takes the pool's new
configuration; a change of the prune quantum resets the idle list's
segments and restarts the prune timer.  It returns the next prune time, the
manager's configuration and the pool. -/
def handleReconfig (oldPruneAt now : Nat) (managerConfig : TManagedThreadPoolConfig)
    (pool : TManagedThreadPoolBase α) : Nat × TManagedThreadPoolConfig × TManagedThreadPoolBase α :=
  let oldPruneQuantumMs := managerConfig.pruneQuantumMs
  let resetSegments := pool.config.pruneQuantumMs ≠ managerConfig.pruneQuantumMs ∨
    pool.config.pruneQuantumCount ≠ managerConfig.pruneQuantumCount
  let pool := { pool with reconfigSem := pool.reconfigSem - 1, reconfigPending := false }
  let pool := if resetSegments then { pool with idleList := pool.idleList.resetSegments } else pool
  let config := pool.config
  let pruneAt :=
    if resetSegments then u64Add now config.pruneQuantumMs
    else if config.pruneQuantumMs < oldPruneQuantumMs then
      u64Sub oldPruneAt (oldPruneQuantumMs - config.pruneQuantumMs)
    else u64Add oldPruneAt (config.pruneQuantumMs - oldPruneQuantumMs)
  (pruneAt, config, pool)

/-- `PruneThreadPool()`, from the manager's configuration: until the idle
list has `PruneQuantumCount` segments, a new segment in front; then up to
`GetMaxThreadsToPrune()` workers from its oldest segment, which is then
recycled.  It returns the pool and the workers to terminate. -/
def pruneThreadPool (managerConfig : TManagedThreadPoolConfig) (pool : TManagedThreadPoolBase α) :
    TManagedThreadPoolBase α × List α :=
  let stats := { pool.stats with pruneOpCount := pool.stats.pruneOpCount + 1 }
  if pool.idleList.numSegments < managerConfig.pruneQuantumCount then
    ({ pool with idleList := pool.idleList.addNewSegment, stats }, [])
  else
    let initialIdleCount := pool.idleList.totalItems
    let maxToPrune := getMaxThreadsToPrune managerConfig pool.idleList.totalItems pool.liveWorkerCount
    let (pruned, idleList) := pool.idleList.removeOldest maxToPrune
    let pruneCount := initialIdleCount - idleList.totalItems
    ({ pool with
      idleList := idleList.recycleOldestSegment
      liveWorkerCount := pool.liveWorkerCount - pruneCount
      stats := TManagedThreadPoolStats.recordPrune pruneCount stats }, pruned)

/-- The first critical section of `HandleShutdownRequest()`: the idle
workers and the join list are taken away, and the pool stops being ready.
It returns the workers to terminate and join, whether the manager waits for
busy workers, and the pool. -/
def beginShutdown (pool : TManagedThreadPoolBase α) : List α × Bool × TManagedThreadPoolBase α :=
  let liveWorkerCount := pool.liveWorkerCount - pool.idleList.totalItems
  let (idleWorkers, idleList) := pool.idleList.emptyAllAndResetSegments
  (pool.joinList ++ idleWorkers, liveWorkerCount ≠ 0,
    { pool with idleList, joinList := [], liveWorkerCount, poolIsReady := false })

/-- The end of `HandleShutdownRequest()`: after the wait, if any, for
`AllWorkersFinished`, the join list is emptied once more. -/
def finishShutdown (waitForWorkers : Bool) (pool : TManagedThreadPoolBase α) : List α × TManagedThreadPoolBase α :=
  let pool := if waitForWorkers then { pool with allWorkersFinished := pool.allWorkersFinished - 1 } else pool
  (pool.joinList, { pool with joinList := [] })

end TManagedThreadPoolBase

end Dory.Thread
