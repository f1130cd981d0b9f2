/-
Module: Dory.Thread.ManagedThreadPoolConfig
Purpose: `Thread::TManagedThreadPoolConfig` (thread/managed_thread_pool_config.{h,cc}):
  the six parameters of a managed thread pool, with the bounds its
  constructor enforces by `Die()` carried as fields, so that a configuration
  the source would refuse cannot be built (`make` is the constructor, none
  where it dies).  `operator==` compares five of the six parameters: it
  leaves out `MaxPoolSize` (`beq_of_maxPoolSize`).
Trusted boundary: none
Main exports: TManagedThreadPoolConfig, TManagedThreadPoolConfig.make,
  TManagedThreadPoolConfig.beq, beq_of_maxPoolSize
-/
import Mathlib

namespace Dory.Thread

/-- `TManagedThreadPoolConfig`, with its defaults and the bounds its
constructor checks. -/
structure TManagedThreadPoolConfig where
  minPoolSize : Nat := 0
  maxPoolSize : Nat := 0
  pruneQuantumMs : Nat := 30000
  pruneQuantumCount : Nat := 10
  maxPruneFraction : Nat := 500
  minIdleFraction : Nat := 20
  pruneQuantumMs_pos : 0 < pruneQuantumMs := by decide
  pruneQuantumCount_pos : 0 < pruneQuantumCount := by decide
  maxPruneFraction_le : maxPruneFraction ≤ 1000 := by decide
  minIdleFraction_le : minIdleFraction ≤ 1000 := by decide
deriving DecidableEq

namespace TManagedThreadPoolConfig

/-- The six-argument constructor: none where it calls `Die()`. -/
def make (minPoolSize maxPoolSize pruneQuantumMs pruneQuantumCount maxPruneFraction minIdleFraction : Nat) :
    Option TManagedThreadPoolConfig :=
  if quantumMs : pruneQuantumMs = 0 then none
  else if quantumCount : pruneQuantumCount = 0 then none
  else if pruneFraction : maxPruneFraction > 1000 then none
  else if idleFraction : minIdleFraction > 1000 then none
  else some
    { minPoolSize := minPoolSize
      maxPoolSize := maxPoolSize
      pruneQuantumMs := pruneQuantumMs
      pruneQuantumCount := pruneQuantumCount
      maxPruneFraction := maxPruneFraction
      minIdleFraction := minIdleFraction
      pruneQuantumMs_pos := Nat.pos_of_ne_zero quantumMs
      pruneQuantumCount_pos := Nat.pos_of_ne_zero quantumCount
      maxPruneFraction_le := Nat.le_of_not_gt pruneFraction
      minIdleFraction_le := Nat.le_of_not_gt idleFraction }

/-- `operator==`. -/
def beq (this that : TManagedThreadPoolConfig) : Bool :=
  this.minPoolSize == that.minPoolSize &&
    this.pruneQuantumMs == that.pruneQuantumMs &&
    this.pruneQuantumCount == that.pruneQuantumCount &&
    this.maxPruneFraction == that.maxPruneFraction &&
    this.minIdleFraction == that.minIdleFraction

/-- Two configurations that differ only in `MaxPoolSize` compare equal. -/
theorem beq_of_maxPoolSize (config : TManagedThreadPoolConfig) (maxPoolSize : Nat) :
    beq { config with maxPoolSize } config = true := by
  simp [beq]

end TManagedThreadPoolConfig

end Dory.Thread
