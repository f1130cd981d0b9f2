/-
Module: Dory.Thread.ManagedThreadPool.Prune
Purpose: `TManagedThreadPoolBase::TManager::GetMaxThreadsToPrune()`
  (thread/managed_thread_pool_base.cc): how many idle threads the manager may
  prune, the least of three bounds computed in `size_t` arithmetic.  The
  bound of the minimum idle fraction is the solution `x` of the source's
  comment, rounded down, with its special cases (`maxIdleFractionPrune`).
  `PruneBounds` states the three bounds on a prune of `k` threads; they are
  closed downwards, so some `k` meets them exactly when `0` does
  (`pruneBounds_zero_iff`).  The count returned is then the greatest such
  `k` (`getMaxThreadsToPrune_isGreatest`), and `0` otherwise.  The products
  are taken modulo `2^64`, as `size_t` computes them; they are exact while
  the pool has fewer than `2^64 / 1000` threads.  Release builds define
  `NDEBUG`, so the pool's asserts are not checked.
Trusted boundary: none
Main exports: sizeMul, maxIdleFractionPrune, getMaxThreadsToPrune,
  pruneFractionBound, PruneBounds, pruneBounds_zero_iff,
  getMaxThreadsToPrune_isGreatest, getMaxThreadsToPrune_of_not_pruneBounds
-/
import Dory.Thread.ManagedThreadPoolConfig

namespace Dory.Thread

/-- `size_t` multiplication. -/
def sizeMul (a b : Nat) : Nat :=
  a * b % 2 ^ 64

/-- The prune count allowed by `GetMinIdleFraction()`: all idle threads
when none is busy (case 1), and otherwise `x` rounded down; none where the
source returns `0` at once (cases 2 and 3). -/
def maxIdleFractionPrune (config : TManagedThreadPoolConfig) (idleCount liveWorkerCount : Nat) : Option Nat :=
  if idleCount = liveWorkerCount then some idleCount
  else
    let d := 1000 - config.minIdleFraction
    let v := sizeMul d idleCount
    let w := sizeMul config.minIdleFraction (liveWorkerCount - idleCount)
    if w ≥ v then none else some ((v - w) / d)

/-- `GetMaxThreadsToPrune()`, from the manager's configuration, the idle
list's size and `LiveWorkerCount`. -/
def getMaxThreadsToPrune (config : TManagedThreadPoolConfig) (idleCount liveWorkerCount : Nat) : Nat :=
  if liveWorkerCount ≤ config.minPoolSize then 0
  else
    match maxIdleFractionPrune config idleCount liveWorkerCount with
    | none => 0
    | some max2 =>
        let max1 := liveWorkerCount - config.minPoolSize
        let n := sizeMul liveWorkerCount config.maxPruneFraction / 1000
        let max3 := if config.maxPruneFraction ≠ 0 then max 1 n else 0
        min (min max1 max2) max3

/-! ### The bounds on a prune -/

/-- The bound of `GetMaxPruneFraction()`: that many thousandths of the pool,
but always one thread when it is positive. -/
def pruneFractionBound (config : TManagedThreadPoolConfig) (liveWorkerCount : Nat) : Nat :=
  if 0 < config.maxPruneFraction then max 1 (liveWorkerCount * config.maxPruneFraction / 1000) else 0

/-- What a prune of `k` of the pool's threads must respect: the minimum pool
size, the idle threads there are, the maximum prune fraction, and, while a
thread is busy, the minimum idle fraction. -/
structure PruneBounds (config : TManagedThreadPoolConfig) (idleCount liveWorkerCount k : Nat) : Prop where
  minPoolSize_le : config.minPoolSize + k ≤ liveWorkerCount
  le_idleCount : k ≤ idleCount
  le_pruneFractionBound : k ≤ pruneFractionBound config liveWorkerCount
  idleFraction : idleCount < liveWorkerCount →
    config.minIdleFraction * (liveWorkerCount - k) ≤ 1000 * (idleCount - k)

section Bounds

variable {config : TManagedThreadPoolConfig} {idleCount liveWorkerCount : Nat}

/-- The idle-fraction bound in the form the source solves it in: `F` times
the busy threads, plus `1000 - F` times the prune, within `1000 - F` times
the idle threads. -/
theorem idleFraction_iff {k : Nat} (within : k ≤ idleCount) (busy : idleCount ≤ liveWorkerCount) :
    config.minIdleFraction * (liveWorkerCount - k) ≤ 1000 * (idleCount - k) ↔
      config.minIdleFraction * (liveWorkerCount - idleCount) + (1000 - config.minIdleFraction) * k ≤
        (1000 - config.minIdleFraction) * idleCount := by
  have bounded := config.minIdleFraction_le
  obtain ⟨left, rfl⟩ := Nat.exists_eq_add_of_le within
  obtain ⟨busyCount, rfl⟩ := Nat.exists_eq_add_of_le busy
  obtain ⟨rest, total⟩ := Nat.exists_eq_add_of_le bounded
  have pruned : k + left + busyCount - k = left + busyCount := by omega
  have idle : k + left - k = left := by omega
  have busyLeft : k + left + busyCount - (k + left) = busyCount := by omega
  have d : 1000 - config.minIdleFraction = rest := by omega
  rw [pruned, idle, busyLeft, d, total]
  constructor <;> intro bound <;> nlinarith

/-- The bounds are closed downwards. -/
theorem PruneBounds.mono {k j : Nat} (bounds : PruneBounds config idleCount liveWorkerCount k) (le : j ≤ k) :
    PruneBounds config idleCount liveWorkerCount j := by
  refine ⟨by have := bounds.minPoolSize_le; omega, by have := bounds.le_idleCount; omega,
    by have := bounds.le_pruneFractionBound; omega, fun busy => ?_⟩
  have fraction := bounds.idleFraction busy
  have bounded := config.minIdleFraction_le
  calc config.minIdleFraction * (liveWorkerCount - j)
      = config.minIdleFraction * (liveWorkerCount - k) + config.minIdleFraction * (k - j) := by
        rw [← Nat.mul_add]
        congr 1
        have := bounds.le_idleCount
        omega
    _ ≤ 1000 * (idleCount - k) + 1000 * (k - j) := Nat.add_le_add fraction (Nat.mul_le_mul_right _ bounded)
    _ = 1000 * (idleCount - j) := by
        rw [← Nat.mul_add]
        congr 1
        have := bounds.le_idleCount
        omega

/-- The idle fraction a prune keeps, with or without a busy thread: with
none, the pool stays all idle. -/
theorem PruneBounds.idleFraction_le {k : Nat} (bounds : PruneBounds config idleCount liveWorkerCount k)
    (idle_le : idleCount ≤ liveWorkerCount) :
    config.minIdleFraction * (liveWorkerCount - k) ≤ 1000 * (idleCount - k) := by
  by_cases busy : idleCount < liveWorkerCount
  · exact bounds.idleFraction busy
  · have allIdle : idleCount = liveWorkerCount := by omega
    rw [allIdle]
    exact Nat.mul_le_mul_right _ config.minIdleFraction_le

/-- Some prune meets the bounds exactly when pruning nothing does: the pool
is no smaller than its minimum, and, while a thread is busy, its idle
fraction is at least the minimum. -/
theorem pruneBounds_zero_iff :
    PruneBounds config idleCount liveWorkerCount 0 ↔ config.minPoolSize ≤ liveWorkerCount ∧
      (idleCount < liveWorkerCount → config.minIdleFraction * liveWorkerCount ≤ 1000 * idleCount) := by
  constructor
  · intro bounds
    exact ⟨by simpa using bounds.minPoolSize_le, fun busy => by simpa using bounds.idleFraction busy⟩
  · rintro ⟨sized, fraction⟩
    exact ⟨by simpa using sized, Nat.zero_le _, Nat.zero_le _, fun busy => by simpa using fraction busy⟩

/-- The largest prune the idle fraction allows, as the source's comment
solves it: all idle threads when none is busy, else `x` rounded down. -/
def idleFractionBound (config : TManagedThreadPoolConfig) (idleCount liveWorkerCount : Nat) : Nat :=
  if idleCount = liveWorkerCount then idleCount
  else ((1000 - config.minIdleFraction) * idleCount - config.minIdleFraction * (liveWorkerCount - idleCount)) /
    (1000 - config.minIdleFraction)

/-- Where pruning nothing is allowed, the three bounds are one bound each:
a prune meets them exactly when it is within each. -/
theorem pruneBounds_iff (idle_le : idleCount ≤ liveWorkerCount) (zero : PruneBounds config idleCount liveWorkerCount 0)
    (k : Nat) : PruneBounds config idleCount liveWorkerCount k ↔
      k ≤ liveWorkerCount - config.minPoolSize ∧ k ≤ idleFractionBound config idleCount liveWorkerCount ∧
        k ≤ pruneFractionBound config liveWorkerCount := by
  have sized := zero.minPoolSize_le
  by_cases allIdle : idleCount = liveWorkerCount
  · -- no thread is busy: the idle fraction bounds nothing
    rw [idleFractionBound, if_pos allIdle]
    constructor
    · intro bounds
      exact ⟨by have := bounds.minPoolSize_le; omega, bounds.le_idleCount, bounds.le_pruneFractionBound⟩
    · rintro ⟨sizedK, idleK, fractionK⟩
      exact ⟨by omega, idleK, fractionK, fun busy => absurd allIdle (Nat.ne_of_lt busy)⟩
  · have busy : idleCount < liveWorkerCount := Nat.lt_of_le_of_ne idle_le allIdle
    have atZero := @idleFraction_iff config idleCount liveWorkerCount 0 (Nat.zero_le idleCount) idle_le
    rw [Nat.mul_zero, Nat.add_zero] at atZero
    have fits := atZero.mp (by simpa using zero.idleFraction busy)
    -- the minimum idle fraction is below 1000, or no busy pool meets it
    have positive : 0 < 1000 - config.minIdleFraction := by
      by_contra empty
      have full : config.minIdleFraction = 1000 := by
        have := config.minIdleFraction_le
        omega
      have fraction := zero.idleFraction busy
      rw [full, Nat.sub_zero, Nat.sub_zero] at fraction
      omega
    -- the idle fraction holds for `k` exactly when `k` is within `x`
    have within : ∀ k, (k ≤ idleCount ∧ config.minIdleFraction * (liveWorkerCount - k) ≤ 1000 * (idleCount - k)) ↔
        k ≤ idleFractionBound config idleCount liveWorkerCount := by
      intro k
      rw [idleFractionBound, if_neg allIdle, Nat.le_div_iff_mul_le positive]
      constructor
      · rintro ⟨le, fraction⟩
        have := (idleFraction_iff le idle_le).mp fraction
        rw [Nat.mul_comm k]
        omega
      · intro bound
        have le : k ≤ idleCount := by
          have : (1000 - config.minIdleFraction) * k ≤ (1000 - config.minIdleFraction) * idleCount := by
            rw [Nat.mul_comm _ k]
            omega
          exact Nat.le_of_mul_le_mul_left this positive
        refine ⟨le, (idleFraction_iff le idle_le).mpr ?_⟩
        rw [Nat.mul_comm _ k]
        omega
    constructor
    · intro bounds
      exact ⟨by have := bounds.minPoolSize_le; omega, (within k).mp ⟨bounds.le_idleCount, bounds.idleFraction busy⟩,
        bounds.le_pruneFractionBound⟩
    · rintro ⟨sizedK, idleK, fractionK⟩
      obtain ⟨le, fraction⟩ := (within k).mpr idleK
      exact ⟨by omega, le, fractionK, fun _ => fraction⟩

end Bounds

section Exact

variable {config : TManagedThreadPoolConfig} {idleCount liveWorkerCount : Nat}

theorem sizeMul_of_lt {a b : Nat} (fits : a * b < 2 ^ 64) : sizeMul a b = a * b :=
  Nat.mod_eq_of_lt fits

/-- While the pool has fewer than `2^64 / 1000` threads, no product
overflows, and the maximum prune fraction bound is the one computed. -/
theorem max3_eq (fits : liveWorkerCount * 1000 < 2 ^ 64) :
    (if config.maxPruneFraction ≠ 0 then max 1 (sizeMul liveWorkerCount config.maxPruneFraction / 1000) else 0) =
      pruneFractionBound config liveWorkerCount := by
  have bounded := config.maxPruneFraction_le
  have exact : liveWorkerCount * config.maxPruneFraction < 2 ^ 64 :=
    lt_of_le_of_lt (Nat.mul_le_mul_left _ bounded) fits
  rw [sizeMul_of_lt exact, pruneFractionBound]
  by_cases zero : config.maxPruneFraction = 0 <;> simp [zero, Nat.pos_iff_ne_zero]

/-- Without overflow, the idle fraction's bound is `x` rounded down, and
none exactly where not even pruning nothing keeps the idle fraction, or
where `x` is zero. -/
theorem maxIdleFractionPrune_eq (idle_le : idleCount ≤ liveWorkerCount) (fits : liveWorkerCount * 1000 < 2 ^ 64) :
    maxIdleFractionPrune config idleCount liveWorkerCount =
      if idleCount = liveWorkerCount then some idleCount
      else if config.minIdleFraction * (liveWorkerCount - idleCount) ≥ (1000 - config.minIdleFraction) * idleCount
        then none
      else some (idleFractionBound config idleCount liveWorkerCount) := by
  have bounded := config.minIdleFraction_le
  have idleExact : (1000 - config.minIdleFraction) * idleCount < 2 ^ 64 :=
    lt_of_le_of_lt (Nat.mul_le_mul (Nat.sub_le _ _) idle_le) (by rw [Nat.mul_comm]; exact fits)
  have busyExact : config.minIdleFraction * (liveWorkerCount - idleCount) < 2 ^ 64 :=
    lt_of_le_of_lt (Nat.mul_le_mul bounded (Nat.sub_le _ _)) (by rw [Nat.mul_comm]; exact fits)
  unfold maxIdleFractionPrune
  simp only [sizeMul_of_lt idleExact, sizeMul_of_lt busyExact]
  by_cases allIdle : idleCount = liveWorkerCount
  · simp [allIdle]
  · simp [allIdle, idleFractionBound]

/-- Where pruning nothing is allowed, the source returns the least of the
three bounds. -/
theorem getMaxThreadsToPrune_eq (idle_le : idleCount ≤ liveWorkerCount) (fits : liveWorkerCount * 1000 < 2 ^ 64)
    (zero : PruneBounds config idleCount liveWorkerCount 0) :
    getMaxThreadsToPrune config idleCount liveWorkerCount =
      min (min (liveWorkerCount - config.minPoolSize) (idleFractionBound config idleCount liveWorkerCount))
        (pruneFractionBound config liveWorkerCount) := by
  have sized := zero.minPoolSize_le
  unfold getMaxThreadsToPrune
  split
  · -- the pool is at its minimum size
    rename_i atMinimum
    have : liveWorkerCount - config.minPoolSize = 0 := by omega
    simp [this]
  · rw [maxIdleFractionPrune_eq idle_le fits]
    by_cases allIdle : idleCount = liveWorkerCount
    · simp only [if_pos allIdle, idleFractionBound, max3_eq fits]
    · have busy : idleCount < liveWorkerCount := Nat.lt_of_le_of_ne idle_le allIdle
      have atZero := (@idleFraction_iff config idleCount liveWorkerCount 0 (Nat.zero_le idleCount) idle_le).mp
        (by simpa using zero.idleFraction busy)
      rw [Nat.mul_zero, Nat.add_zero] at atZero
      rw [if_neg allIdle]
      by_cases noRoom : config.minIdleFraction * (liveWorkerCount - idleCount) ≥
          (1000 - config.minIdleFraction) * idleCount
      · -- `w = v`: the source returns 0, and `x` is 0
        have : idleFractionBound config idleCount liveWorkerCount = 0 := by
          rw [idleFractionBound, if_neg allIdle, Nat.sub_eq_zero_of_le noRoom, Nat.zero_div]
        rw [if_pos noRoom, this]
        simp
      · rw [if_neg noRoom]
        simp only [max3_eq fits]

/-- Where pruning nothing is allowed, `GetMaxThreadsToPrune()` returns the
largest prune that meets all three bounds. -/
theorem getMaxThreadsToPrune_isGreatest (idle_le : idleCount ≤ liveWorkerCount)
    (fits : liveWorkerCount * 1000 < 2 ^ 64) (zero : PruneBounds config idleCount liveWorkerCount 0) :
    IsGreatest {k | PruneBounds config idleCount liveWorkerCount k} (getMaxThreadsToPrune config idleCount liveWorkerCount) := by
  rw [getMaxThreadsToPrune_eq idle_le fits zero]
  refine ⟨(pruneBounds_iff idle_le zero _).mpr ⟨?_, ?_, ?_⟩, fun k bounds => ?_⟩
  · exact le_trans (Nat.min_le_left _ _) (Nat.min_le_left _ _)
  · exact le_trans (Nat.min_le_left _ _) (Nat.min_le_right _ _)
  · exact Nat.min_le_right _ _
  · obtain ⟨sized, idle, fraction⟩ := (pruneBounds_iff idle_le zero k).mp bounds
    exact Nat.le_min.mpr ⟨Nat.le_min.mpr ⟨sized, idle⟩, fraction⟩

/-- The bound on the pool's size is needed: from `2^64 / 1000` threads on,
`L * 1000` wraps around.  With every thread idle and a maximum prune
fraction of 1000, all of them may be pruned, but the wrapped product leaves
the count one thread. -/
theorem getMaxThreadsToPrune_wraps :
    let config : TManagedThreadPoolConfig := { maxPruneFraction := 1000 }
    let live : Nat := 2 ^ 64 / 1000 + 1
    2 ^ 64 ≤ live * 1000 ∧ PruneBounds config live live 0 ∧
      ¬ IsGreatest {k | PruneBounds config live live k} (getMaxThreadsToPrune config live live) := by
  intro config live
  have allPruned : PruneBounds config live live live :=
    ⟨by decide, le_refl _, by decide, fun busy => absurd busy (lt_irrefl _)⟩
  have one : getMaxThreadsToPrune config live live = 1 := by decide
  refine ⟨by decide, allPruned.mono (Nat.zero_le _), fun ⟨_, greatest⟩ => ?_⟩
  have atMost := greatest allPruned
  rw [one] at atMost
  exact absurd atMost (by decide)

/-- Where not even pruning nothing is allowed, `GetMaxThreadsToPrune()`
returns 0. -/
theorem getMaxThreadsToPrune_of_not_pruneBounds (idle_le : idleCount ≤ liveWorkerCount)
    (fits : liveWorkerCount * 1000 < 2 ^ 64) (none : ¬ PruneBounds config idleCount liveWorkerCount 0) :
    getMaxThreadsToPrune config idleCount liveWorkerCount = 0 := by
  rw [pruneBounds_zero_iff, not_and_or] at none
  unfold getMaxThreadsToPrune
  split
  · rfl
  · rename_i aboveMinimum
    rcases none with small | short
    · omega
    · -- a busy pool below its idle fraction: `w > v`
      rw [Classical.not_imp] at short
      obtain ⟨busy, short⟩ := short
      have noRoom : ¬ config.minIdleFraction * (liveWorkerCount - idleCount) ≤
          (1000 - config.minIdleFraction) * idleCount := by
        intro room
        have := (@idleFraction_iff config idleCount liveWorkerCount 0 (Nat.zero_le idleCount) idle_le).mpr (by simpa using room)
        exact short (by simpa using this)
      rw [maxIdleFractionPrune_eq idle_le fits, if_neg (Nat.ne_of_lt busy), if_pos (by omega)]

/-- With the default configuration, one busy thread and no idle one: the
pool is below the minimum idle fraction, no prune is within the bounds, and
the 0 returned is not either. -/
theorem getMaxThreadsToPrune_one_busy_thread :
    ¬ PruneBounds ({} : TManagedThreadPoolConfig) 0 1 (getMaxThreadsToPrune {} 0 1) := by
  intro bounds
  have fraction := bounds.idleFraction (by decide)
  have zero : getMaxThreadsToPrune ({} : TManagedThreadPoolConfig) 0 1 = 0 := by decide
  rw [zero] at fraction
  exact absurd fraction (by decide)

/-- A prune of at most the count returned keeps the minimum pool size and
the minimum idle fraction wherever they held: below the greatest prune
within the bounds where pruning nothing is within them, and of nothing
otherwise. -/
theorem keeps_of_le_getMaxThreadsToPrune (idle_le : idleCount ≤ liveWorkerCount)
    (fits : liveWorkerCount * 1000 < 2 ^ 64) {p : Nat} (le : p ≤ getMaxThreadsToPrune config idleCount liveWorkerCount) :
    (config.minPoolSize ≤ liveWorkerCount → config.minPoolSize ≤ liveWorkerCount - p) ∧
      (config.minIdleFraction * liveWorkerCount ≤ 1000 * idleCount →
        config.minIdleFraction * (liveWorkerCount - p) ≤ 1000 * (idleCount - p)) := by
  by_cases zero : PruneBounds config idleCount liveWorkerCount 0
  · have bounds := PruneBounds.mono (getMaxThreadsToPrune_isGreatest idle_le fits zero).1 le
    exact ⟨fun _ => by have := bounds.minPoolSize_le; omega, fun _ => bounds.idleFraction_le idle_le⟩
  · rw [getMaxThreadsToPrune_of_not_pruneBounds idle_le fits zero, Nat.le_zero] at le
    subst le
    exact ⟨id, id⟩

end Exact

end Dory.Thread
