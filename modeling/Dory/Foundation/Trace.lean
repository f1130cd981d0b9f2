/-
Module: Dory.Foundation.Trace
Purpose: Runs of a deterministic machine that consumes one input per step and
  returns an output with the next state.  A run is recorded as a list of
  entries (state before, input, output, state after), so that properties of
  a whole run are stated over the entries.  The three induction rules here
  carry (i) a state invariant, (ii) a per-step property that holds from every
  invariant state, and (iii) a conservation law (what a step emits plus what
  the state holds equals what it held plus what it received, as a list or up
  to permutation) from one step to every run.
Trusted boundary: none
Main exports: Entry, trace, final, final_invariant, trace_forall,
  trace_outputs_append, trace_outputs_perm
-/
import Mathlib

namespace Dory.Foundation

/-- One step of a run: the state before, the input, the output, and the
state after. -/
structure Entry (σ ι ο : Type) where
  before : σ
  input : ι
  output : ο
  after : σ

section Run

variable {σ ι ο : Type} (step : σ → ι → ο × σ)

/-- Every step of the run of `step` from `state` over `inputs`, in order. -/
def trace : σ → List ι → List (Entry σ ι ο)
  | _, [] => []
  | state, input :: inputs =>
      ⟨state, input, (step state input).1, (step state input).2⟩ ::
        trace (step state input).2 inputs

/-- The state at the end of the run of `step` from `state` over `inputs`. -/
def final : σ → List ι → σ
  | state, [] => state
  | state, input :: inputs => final (step state input).2 inputs

@[simp] theorem trace_nil (state : σ) : trace step state [] = [] := rfl

@[simp] theorem trace_cons (state : σ) (input : ι) (inputs : List ι) :
    trace step state (input :: inputs) =
      ⟨state, input, (step state input).1, (step state input).2⟩ ::
        trace step (step state input).2 inputs := rfl

@[simp] theorem final_nil (state : σ) : final step state [] = state := rfl

@[simp] theorem final_cons (state : σ) (input : ι) (inputs : List ι) :
    final step state (input :: inputs) =
      final step (step state input).2 inputs := rfl

end Run

section Invariant

variable {σ ι ο : Type} {step : σ → ι → ο × σ} {Inv : σ → Prop}

/-- An invariant of every step holds at the end of every run. -/
theorem final_invariant
    (preserved : ∀ state input, Inv state → Inv (step state input).2) :
    ∀ (state : σ) (inputs : List ι), Inv state → Inv (final step state inputs)
  | _, [], holds => holds
  | state, input :: inputs, holds =>
      final_invariant preserved (step state input).2 inputs
        (preserved state input holds)

/-- A property that every step has from an invariant state holds of every
entry of every run that starts in an invariant state. -/
theorem trace_forall {P : Entry σ ι ο → Prop}
    (preserved : ∀ state input, Inv state → Inv (step state input).2)
    (property : ∀ state input, Inv state →
      P ⟨state, input, (step state input).1, (step state input).2⟩) :
    ∀ (state : σ) (inputs : List ι), Inv state →
      ∀ entry ∈ trace step state inputs, P entry
  | _, [], _ => by simp
  | state, input :: inputs, holds => by
      intro entry member
      rcases List.mem_cons.mp member with current | later
      · subst current
        exact property state input holds
      · exact trace_forall preserved property (step state input).2 inputs
          (preserved state input holds) entry later

/-- `trace_forall` for runs whose inputs all meet a precondition: an
invariant that every allowed step keeps, and a property that every allowed
step has from it, hold along every run of allowed inputs. -/
theorem trace_forall_of_allowed {Allowed : ι → Prop} {P : Entry σ ι ο → Prop}
    (preserved : ∀ state input, Allowed input → Inv state → Inv (step state input).2)
    (property : ∀ state input, Allowed input → Inv state →
      P ⟨state, input, (step state input).1, (step state input).2⟩) :
    ∀ (state : σ) (inputs : List ι), (∀ input ∈ inputs, Allowed input) → Inv state →
      ∀ entry ∈ trace step state inputs, P entry
  | _, [], _, _ => by simp
  | state, input :: inputs, allowed, holds => by
      intro entry member
      have first := allowed input List.mem_cons_self
      rcases List.mem_cons.mp member with current | later
      · subst current
        exact property state input first holds
      · exact trace_forall_of_allowed preserved property (step state input).2 inputs
          (fun other otherMember => allowed other (List.mem_cons_of_mem _ otherMember))
          (preserved state input first holds) entry later

end Invariant

section Conservation

variable {σ ι ο α : Type} {step : σ → ι → ο × σ} {Inv : σ → Prop}
variable {held : σ → List α} {received : ι → List α}
  {emitted : Entry σ ι ο → List α}

/-- Ordered conservation.  If every step from an invariant state emits, and
then holds, exactly what the state held followed by what the step received,
then a whole run emits, and then holds, exactly what the start held followed
by everything received, in order. -/
theorem trace_outputs_append
    (preserved : ∀ state input, Inv state → Inv (step state input).2)
    (conserved : ∀ state input, Inv state →
      emitted ⟨state, input, (step state input).1, (step state input).2⟩ ++
          held (step state input).2 =
        held state ++ received input) :
    ∀ (state : σ) (inputs : List ι), Inv state →
      (trace step state inputs).flatMap emitted ++
          held (final step state inputs) =
        held state ++ inputs.flatMap received
  | _, [], _ => by simp
  | state, input :: inputs, holds => by
      have tail := trace_outputs_append preserved conserved
        (step state input).2 inputs (preserved state input holds)
      simp only [trace_cons, final_cons, List.flatMap_cons, List.append_assoc]
      rw [tail, ← List.append_assoc, conserved state input holds,
        List.append_assoc]

/-- Conservation key by key.  If every step from an invariant state emits,
and then holds, exactly what the state held of key `k` followed by what the
step received of key `k`, then so does every run, for every key. -/
theorem trace_outputs_filter {κ : Type} [DecidableEq κ] (key : α → κ) (heldOf : κ → σ → List α)
    (preserved : ∀ state input, Inv state → Inv (step state input).2)
    (conserved : ∀ state input, Inv state → ∀ k,
      (emitted ⟨state, input, (step state input).1, (step state input).2⟩).filter
          (fun x => key x == k) ++ heldOf k (step state input).2 =
        heldOf k state ++ (received input).filter (fun x => key x == k))
    (state : σ) (inputs : List ι) (holds : Inv state) (k : κ) :
    ((trace step state inputs).flatMap emitted).filter (fun x => key x == k) ++
        heldOf k (final step state inputs) =
      heldOf k state ++ (inputs.flatMap received).filter (fun x => key x == k) := by
  rw [List.filter_flatMap, List.filter_flatMap]
  exact @trace_outputs_append σ ι ο α step Inv (heldOf k)
    (fun input => (received input).filter fun x => key x == k)
    (fun entry => (emitted entry).filter fun x => key x == k) preserved
    (fun state input holds => conserved state input holds k) state inputs holds

/-- A piece of an emitted stream whose elements all have key `k` is a
sublist of the input, when the stream's sub-stream of key `k` begins the
input's. -/
theorem sublist_of_keyed_piece {κ : Type} [DecidableEq κ] {key : α → κ} {k : κ}
    {piece stream rest input : List α} (keyed : ∀ x ∈ piece, key x = k)
    (inStream : piece.IsInfix stream)
    (law : stream.filter (fun x => key x == k) ++ rest = input.filter (fun x => key x == k)) :
    piece.Sublist input := by
  have inKeyed : piece.IsInfix (stream.filter fun x => key x == k) := by
    have filtered := inStream.filter (fun x => key x == k)
    rwa [List.filter_eq_self.mpr fun x member => by simp [keyed x member]] at filtered
  have keyedPrefix : (stream.filter fun x => key x == k).IsPrefix
      (input.filter fun x => key x == k) := by
    rw [← law]
    exact List.prefix_append _ _
  exact (inKeyed.sublist.trans keyedPrefix.sublist).trans List.filter_sublist

/-- Conservation up to permutation: the multiset version of
`trace_outputs_append`, for machines that reorder what they hold. -/
theorem trace_outputs_perm
    (preserved : ∀ state input, Inv state → Inv (step state input).2)
    (conserved : ∀ state input, Inv state →
      (emitted ⟨state, input, (step state input).1, (step state input).2⟩ ++
          held (step state input).2).Perm
        (held state ++ received input)) :
    ∀ (state : σ) (inputs : List ι), Inv state →
      ((trace step state inputs).flatMap emitted ++
          held (final step state inputs)).Perm
        (held state ++ inputs.flatMap received)
  | _, [], _ => by simp
  | state, input :: inputs, holds => by
      have tail := trace_outputs_perm preserved conserved
        (step state input).2 inputs (preserved state input holds)
      -- the first step's law, extended by what the rest of the run receives
      have first := (conserved state input holds).append_right
        (inputs.flatMap received)
      simp only [trace_cons, final_cons, List.flatMap_cons, List.append_assoc]
      simp only [List.append_assoc] at first
      exact (tail.append_left _).trans first

/-- Two streams that agree on the sub-stream of every key are permutations of
each other: conservation stated key by key gives conservation of the
multiset. -/
theorem perm_of_filter_key_eq {κ : Type} [DecidableEq α] [DecidableEq κ] (key : α → κ)
    {first second : List α}
    (same : ∀ k, first.filter (fun x => key x == k) = second.filter (fun x => key x == k)) :
    first.Perm second := by
  rw [List.perm_iff_count]
  intro x
  -- counting `x` only looks at the elements with the key of `x`
  have kept : (fun y => key y == key x) x = true := by simp
  rw [← List.count_filter (p := fun y => key y == key x) (l := first) kept,
    ← List.count_filter (p := fun y => key y == key x) (l := second) kept, same]

end Conservation

end Dory.Foundation
