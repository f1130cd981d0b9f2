/-
Module: Dory.Foundation.Runs
Purpose: A list sorted by a key, cut into its runs, and blocks laid end to
  end in a flat vector.  The runs are the maximal blocks of consecutive items
  with one key (`List.splitBy` on equal keys).  When the list is sorted by
  the key, the runs come in strictly increasing key order
  (`runs_pairwise_lt`), so the run of an item holds exactly the items of its
  key (`mem_run_iff`).  Blocks `(offset, length)` laid end to end over an
  interval cover each of its points exactly once (`Tiles.count_covers`).
Trusted boundary: none
Main exports: runs, flatten_runs, sublist_of_mem_runs, key_eq_of_mem_run,
  runs_pairwise_lt, mem_run_iff, Tiles, Tiles.append, Tiles.within,
  Tiles.count_covers
-/
import Mathlib

namespace Dory.Foundation

section Runs

variable {α κ : Type} [LinearOrder κ] (key : α → κ)

/-- The maximal blocks of consecutive items with one key. -/
def runs (items : List α) : List (List α) :=
  items.splitBy fun x y => key x == key y

variable {key} {items : List α}

@[simp] theorem flatten_runs (key : α → κ) (items : List α) : (runs key items).flatten = items :=
  List.flatten_splitBy _ items

theorem ne_nil_of_mem_runs {run : List α} (member : run ∈ runs key items) : run ≠ [] :=
  List.ne_nil_of_mem_splitBy member

theorem sublist_of_mem_runs {run : List α} (member : run ∈ runs key items) : run.Sublist items := by
  simpa using List.sublist_flatten_of_mem member

/-- A run has one key. -/
theorem key_eq_of_mem_run {run : List α} (member : run ∈ runs key items) {x y : α}
    (hx : x ∈ run) (hy : y ∈ run) : key x = key y := by
  have chain : run.IsChain fun x y => key x = key y :=
    (List.isChain_of_mem_splitBy member).imp fun _ _ same => by simpa using same
  have : Trans (fun x y : α => key x = key y) (fun x y => key x = key y) (fun x y => key x = key y) :=
    ⟨Eq.trans⟩
  have : Std.Symm fun x y : α => key x = key y := ⟨fun _ _ => Eq.symm⟩
  by_cases same : x = y
  · rw [same]
  · exact chain.pairwise.forall hx hy same

/-- The runs of a sorted list come in strictly increasing key order: at the
seam of two neighbouring runs the keys differ, and sortedness orders them. -/
theorem runs_pairwise_lt (sorted : items.Pairwise fun x y => key x ≤ key y) :
    (runs key items).Pairwise fun first second => ∀ x ∈ first, ∀ y ∈ second, key x < key y := by
  have ordered : (runs key items).Pairwise fun first second => ∀ x ∈ first, ∀ y ∈ second, key x ≤ key y := by
    rw [← flatten_runs key items, List.pairwise_flatten] at sorted
    exact sorted.2
  have seams := List.isChain_getLast_head_splitBy (fun x y => key x == key y) items
  let Before := fun first second : List α => first ≠ [] ∧ ∀ x ∈ first, ∀ y ∈ second, key x < key y
  have chain : (runs key items).IsChain Before := by
    rw [List.isChain_iff_forall_rel_of_append_cons_cons]
    intro first second before after split
    obtain ⟨firstNonempty, secondNonempty, apart⟩ :=
      List.isChain_iff_forall_rel_of_append_cons_cons.mp seams split
    have firstMember : first ∈ runs key items := by simp [split]
    have secondMember : second ∈ runs key items := by simp [split]
    rw [split, List.pairwise_append, List.pairwise_cons] at ordered
    have le := ordered.2.1.1 second List.mem_cons_self
    refine ⟨firstNonempty, fun x hx y hy => ?_⟩
    have atLast := key_eq_of_mem_run firstMember hx (List.getLast_mem firstNonempty)
    have atHead := key_eq_of_mem_run secondMember hy (List.head_mem secondNonempty)
    have different : key (first.getLast firstNonempty) ≠ key (second.head secondNonempty) := by
      simpa using apart
    rw [atLast, atHead]
    exact lt_of_le_of_ne (le _ (List.getLast_mem firstNonempty) _ (List.head_mem secondNonempty)) different
  have : Trans Before Before Before :=
    ⟨fun ⟨nonempty, first⟩ ⟨middle, second⟩ => ⟨nonempty, fun x hx z hz =>
      (first x hx _ (List.head_mem middle)).trans (second _ (List.head_mem middle) z hz)⟩⟩
  exact chain.pairwise.imp fun before => before.2

/-- In a sorted list, the run of an item holds exactly the items of its key. -/
theorem mem_run_iff (sorted : items.Pairwise fun x y => key x ≤ key y) {run : List α}
    (member : run ∈ runs key items) {x y : α} (hx : x ∈ run) :
    y ∈ run ↔ y ∈ items ∧ key y = key x := by
  constructor
  · intro hy
    exact ⟨(sublist_of_mem_runs member).subset hy, key_eq_of_mem_run member hy hx⟩
  · rintro ⟨hy, same⟩
    rw [← flatten_runs key items, List.mem_flatten] at hy
    obtain ⟨other, otherMember, hyOther⟩ := hy
    by_contra outside
    have different : other ≠ run := fun equal => outside (equal ▸ hyOther)
    let Apart := fun first second : List α =>
      (∀ x ∈ first, ∀ y ∈ second, key x < key y) ∨ ∀ x ∈ second, ∀ y ∈ first, key x < key y
    have : Std.Symm Apart := ⟨fun _ _ => Or.symm⟩
    have apart : (runs key items).Pairwise Apart := (runs_pairwise_lt sorted).imp Or.inl
    rcases apart.forall otherMember member different with before | after
    · exact absurd (same ▸ before y hyOther x hx) (lt_irrefl _)
    · exact absurd (same ▸ after x hx y hyOther) (lt_irrefl _)

end Runs

/-! ### Blocks laid end to end -/

/-- Blocks `(offset, length)`, none of them empty, laid end to end from
`start` to `stop`. -/
inductive Tiles : Nat → List (Nat × Nat) → Nat → Prop
  | nil (start : Nat) : Tiles start [] start
  | cons {start length stop : Nat} {rest : List (Nat × Nat)} (nonempty : 0 < length)
      (tail : Tiles (start + length) rest stop) : Tiles start ((start, length) :: rest) stop

/-- Whether a block covers a point. -/
def covers (point : Nat) (block : Nat × Nat) : Bool :=
  decide (block.1 ≤ point ∧ point < block.1 + block.2)

namespace Tiles

variable {start stop : Nat} {blocks : List (Nat × Nat)}

theorem le_stop (tiles : Tiles start blocks stop) : start ≤ stop := by
  induction tiles with
  | nil => exact Nat.le_refl _
  | cons _ _ ih => omega

theorem append {middle : Nat} {more : List (Nat × Nat)} (first : Tiles start blocks middle)
    (second : Tiles middle more stop) : Tiles start (blocks ++ more) stop := by
  induction first with
  | nil => exact second
  | cons nonempty _ ih => exact .cons nonempty (ih second)

/-- Every block lies inside the interval. -/
theorem within (tiles : Tiles start blocks stop) {block : Nat × Nat} (member : block ∈ blocks) :
    start ≤ block.1 ∧ block.1 + block.2 ≤ stop := by
  induction tiles with
  | nil => simp at member
  | cons _ tail ih =>
      rcases List.mem_cons.mp member with rfl | later
      · exact ⟨Nat.le_refl _, tail.le_stop⟩
      · have := ih later
        omega

/-- Every point of the interval is in exactly one block. -/
theorem count_covers (tiles : Tiles start blocks stop) {point : Nat} (low : start ≤ point)
    (high : point < stop) : (blocks.filter (covers point)).length = 1 := by
  induction tiles with
  | nil => omega
  | @cons start length stop rest nonempty tail ih =>
      by_cases here : point < start + length
      · -- the first block holds the point, and the later ones start past it
        have none : rest.filter (covers point) = [] := by
          refine List.filter_eq_nil_iff.mpr fun block member => ?_
          have := tail.within member
          simp only [covers, decide_eq_true_eq]
          omega
        simp [covers, low, here, none]
      · have missed : covers point (start, length) = false := by
          simp only [covers, decide_eq_false_iff_not]
          omega
        rw [List.filter_cons, missed]
        exact ih (by omega) high

end Tiles

end Dory.Foundation
