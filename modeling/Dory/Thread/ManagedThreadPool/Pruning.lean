/-
Module: Dory.Thread.ManagedThreadPool.Pruning
Purpose: What `TManager::PruneThreadPool()` (thread/managed_thread_pool_base.cc)
  does to the pool, from the refinement of the idle list
  (`Dory.Thread.SegmentedList.Refinement`) and the bounds of
  `GetMaxThreadsToPrune()` (`Dory.Thread.ManagedThreadPool.Prune`).  With a
  full set of segments it prunes the fewer of the allowed count and the
  oldest segment's workers, takes exactly those off `LiveWorkerCount` and
  the idle list, and keeps the minimum pool size and the minimum idle
  fraction wherever they held.
Trusted boundary: none
Main exports: pruneThreadPool_of_lt, pruneThreadPool_of_le,
  pruneThreadPool_within_bounds
-/
import Dory.Thread.ManagedThreadPool.Pool

namespace Dory.Thread

namespace TManagedThreadPoolBase

variable {α : Type}

section Prune

variable {config : TManagedThreadPoolConfig} {pool : TManagedThreadPoolBase α}

/-- Until the idle list has `PruneQuantumCount` segments, a prune only adds
a segment in front. -/
theorem pruneThreadPool_of_lt (short : pool.idleList.numSegments < config.pruneQuantumCount) :
    pool.pruneThreadPool config =
      ({ pool with
        idleList := pool.idleList.addNewSegment
        stats := { pool.stats with pruneOpCount := pool.stats.pruneOpCount + 1 } }, []) := by
  rw [pruneThreadPool, if_pos short]

/-- With a full set of segments, the prune of `GetMaxThreadsToPrune()`
workers from the oldest segment, which is then recycled. -/
theorem pruneThreadPool_of_not_lt (full : config.pruneQuantumCount ≤ pool.idleList.numSegments) :
    let removed := pool.idleList.removeOldest
      (getMaxThreadsToPrune config pool.idleList.totalItems pool.liveWorkerCount)
    pool.pruneThreadPool config =
      ({ pool with
        idleList := removed.2.recycleOldestSegment
        liveWorkerCount := pool.liveWorkerCount - (pool.idleList.totalItems - removed.2.totalItems)
        stats := TManagedThreadPoolStats.recordPrune (pool.idleList.totalItems - removed.2.totalItems)
          { pool.stats with pruneOpCount := pool.stats.pruneOpCount + 1 } }, removed.1) := by
  rw [pruneThreadPool, if_neg (Nat.not_lt.mpr full)]

/-- With a full set of segments and a valid idle list, the workers pruned
are the last `min N k` of the oldest segment's `N`, for `k` the count
`GetMaxThreadsToPrune()` allows; exactly that many leave `LiveWorkerCount`
and the idle list, which stays valid. -/
theorem pruneThreadPool_of_le (valid : pool.idleList.Valid)
    (full : config.pruneQuantumCount ≤ pool.idleList.numSegments) :
    (pool.pruneThreadPool config).2 = (Segments.oldest pool.idleList.copyOutSegments).drop
        ((Segments.oldest pool.idleList.copyOutSegments).length -
          getMaxThreadsToPrune config pool.idleList.totalItems pool.liveWorkerCount) ∧
      (pool.pruneThreadPool config).1.liveWorkerCount = pool.liveWorkerCount -
        min (Segments.oldest pool.idleList.copyOutSegments).length
          (getMaxThreadsToPrune config pool.idleList.totalItems pool.liveWorkerCount) ∧
      (pool.pruneThreadPool config).1.idleList.totalItems = pool.idleList.totalItems -
        min (Segments.oldest pool.idleList.copyOutSegments).length
          (getMaxThreadsToPrune config pool.idleList.totalItems pool.liveWorkerCount) ∧
      (pool.pruneThreadPool config).1.idleList.Valid := by
  obtain ⟨removedValid, removed⟩ :=
    valid.removeOldest (getMaxThreadsToPrune config pool.idleList.totalItems pool.liveWorkerCount)
  obtain ⟨recycledValid, recycled⟩ := removedValid.recycleOldestSegment
  obtain ⟨pruned, copied⟩ := Prod.mk.inj removed
  -- the items the idle list counts are those of its segments
  have flattened := congrArg (fun segments => segments.flatten.length) copied
  simp only [Segments.length_flatten_changeLast_take] at flattened
  have within := Segments.length_oldest_le pool.idleList.copyOutSegments
  have pruneCount := valid.totalItems_eq_length
  have removedCount := removedValid.totalItems_eq_length
  have recycledCount := recycledValid.totalItems_eq_length
  rw [recycled, Segments.flatten_recycleOldestSegment] at recycledCount
  rw [pruneThreadPool_of_not_lt full]
  refine ⟨pruned, ?_, ?_, recycledValid⟩
  · dsimp only
    omega
  · dsimp only
    omega

/-- `GetMaxThreadsToPrune()` returns the greatest prune within the three
bounds where pruning nothing is within them, and 0 otherwise; with a full
set of segments, `PruneThreadPool()` then prunes the fewer of that count and
the oldest segment's workers, takes exactly those off `LiveWorkerCount` and
the idle list, and keeps the minimum pool size and the minimum idle fraction
wherever they held.  The pool has fewer than `2^64 / 1000` threads, so no
`size_t` product wraps around. -/
theorem pruneThreadPool_within_bounds (config : TManagedThreadPoolConfig) (pool : TManagedThreadPoolBase α)
    (valid : pool.idleList.Valid) (idle_le : pool.idleList.totalItems ≤ pool.liveWorkerCount)
    (fits : pool.liveWorkerCount * 1000 < 2 ^ 64) (full : config.pruneQuantumCount ≤ pool.idleList.numSegments) :
    (PruneBounds config pool.idleList.totalItems pool.liveWorkerCount 0 →
        IsGreatest {k | PruneBounds config pool.idleList.totalItems pool.liveWorkerCount k}
          (getMaxThreadsToPrune config pool.idleList.totalItems pool.liveWorkerCount)) ∧
      (¬ PruneBounds config pool.idleList.totalItems pool.liveWorkerCount 0 →
        getMaxThreadsToPrune config pool.idleList.totalItems pool.liveWorkerCount = 0) ∧
      (pool.pruneThreadPool config).2.length =
        min (getMaxThreadsToPrune config pool.idleList.totalItems pool.liveWorkerCount)
          (Segments.oldest pool.idleList.copyOutSegments).length ∧
      (pool.pruneThreadPool config).1.liveWorkerCount = pool.liveWorkerCount - (pool.pruneThreadPool config).2.length ∧
      (pool.pruneThreadPool config).1.idleList.totalItems =
        pool.idleList.totalItems - (pool.pruneThreadPool config).2.length ∧
      (config.minPoolSize ≤ pool.liveWorkerCount →
        config.minPoolSize ≤ (pool.pruneThreadPool config).1.liveWorkerCount) ∧
      (config.minIdleFraction * pool.liveWorkerCount ≤ 1000 * pool.idleList.totalItems →
        config.minIdleFraction * (pool.pruneThreadPool config).1.liveWorkerCount ≤
          1000 * (pool.pruneThreadPool config).1.idleList.totalItems) := by
  obtain ⟨pruned, live, idle, -⟩ := pruneThreadPool_of_le valid full
  have count : (pool.pruneThreadPool config).2.length =
      min (getMaxThreadsToPrune config pool.idleList.totalItems pool.liveWorkerCount)
        (Segments.oldest pool.idleList.copyOutSegments).length := by
    rw [pruned, List.length_drop]
    omega
  have within : (pool.pruneThreadPool config).2.length ≤
      getMaxThreadsToPrune config pool.idleList.totalItems pool.liveWorkerCount := count ▸ Nat.min_le_left _ _
  have counted : min (Segments.oldest pool.idleList.copyOutSegments).length
      (getMaxThreadsToPrune config pool.idleList.totalItems pool.liveWorkerCount) =
        (pool.pruneThreadPool config).2.length := by
    rw [count, Nat.min_comm]
  obtain ⟨sized, fraction⟩ := keeps_of_le_getMaxThreadsToPrune idle_le fits within
  rw [counted] at live idle
  refine ⟨getMaxThreadsToPrune_isGreatest idle_le fits, getMaxThreadsToPrune_of_not_pruneBounds idle_le fits, count,
    live, idle, ?_, ?_⟩
  · rw [live]
    exact sized
  · rw [live, idle]
    exact fraction

/-- Three workers, two of them idle in two segments, one in each, and one
busy; two segments are a full set: the prune takes the oldest idle worker. -/
theorem pruneThreadPool_within_bounds_two_segments :
    let config : TManagedThreadPoolConfig := { pruneQuantumCount := 2 }
    let pool : TManagedThreadPoolBase Nat :=
      { config := {}
        idleList := (TSegmentedList.new.run [.addNew 1, .addNewSegment, .addNew 2]).2
        liveWorkerCount := 3 }
    pool.idleList.Valid ∧ pool.idleList.totalItems ≤ pool.liveWorkerCount ∧ pool.liveWorkerCount * 1000 < 2 ^ 64 ∧
      config.pruneQuantumCount ≤ pool.idleList.numSegments ∧
      ((PruneBounds config pool.idleList.totalItems pool.liveWorkerCount 0 →
          IsGreatest {k | PruneBounds config pool.idleList.totalItems pool.liveWorkerCount k}
            (getMaxThreadsToPrune config pool.idleList.totalItems pool.liveWorkerCount)) ∧
        (¬ PruneBounds config pool.idleList.totalItems pool.liveWorkerCount 0 →
          getMaxThreadsToPrune config pool.idleList.totalItems pool.liveWorkerCount = 0) ∧
        (pool.pruneThreadPool config).2.length =
          min (getMaxThreadsToPrune config pool.idleList.totalItems pool.liveWorkerCount)
            (Segments.oldest pool.idleList.copyOutSegments).length ∧
        (pool.pruneThreadPool config).1.liveWorkerCount = pool.liveWorkerCount - (pool.pruneThreadPool config).2.length ∧
        (pool.pruneThreadPool config).1.idleList.totalItems =
          pool.idleList.totalItems - (pool.pruneThreadPool config).2.length ∧
        (config.minPoolSize ≤ pool.liveWorkerCount →
          config.minPoolSize ≤ (pool.pruneThreadPool config).1.liveWorkerCount) ∧
        (config.minIdleFraction * pool.liveWorkerCount ≤ 1000 * pool.idleList.totalItems →
          config.minIdleFraction * (pool.pruneThreadPool config).1.liveWorkerCount ≤
            1000 * (pool.pruneThreadPool config).1.idleList.totalItems)) := by
  intro config pool
  have valid : pool.idleList.Valid := (TSegmentedList.valid_new.run _).1
  have idle_le : pool.idleList.totalItems ≤ pool.liveWorkerCount := by decide
  have fits : pool.liveWorkerCount * 1000 < 2 ^ 64 := by decide
  have full : config.pruneQuantumCount ≤ pool.idleList.numSegments := by decide
  exact ⟨valid, idle_le, fits, full, pruneThreadPool_within_bounds config pool valid idle_le fits full⟩

end Prune

end TManagedThreadPoolBase

end Dory.Thread
