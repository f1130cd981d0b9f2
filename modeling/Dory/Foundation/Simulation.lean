/-
Module: Dory.Foundation.Simulation
Purpose: Fallible machines and the forward simulation of a partial abstract
  machine by one.  A concrete step may fail (`Except`); an abstract step is
  partial (`Option`), `none` marking an input its protocol does not allow.
  A run feeds a list of inputs and collects the outputs.  When a relation
  holds between the two states and every allowed abstract step is matched by
  a concrete step with the same output into related states, every run the
  abstract machine allows is a run of the concrete machine with the same
  outputs.  The bind inversion lemma takes apart the concrete steps.
Trusted boundary: none
Main exports: bind_eq_ok, bind_eq_error, throwIf, runExcept, runOption, runExcept_invariant,
  runExcept_of_simulation
-/
import Mathlib

namespace Dory.Foundation

variable {ε α β σ τ ι ο : Type}

/-- A computation that succeeds after a bind succeeded in each part. -/
theorem bind_eq_ok {x : Except ε α} {f : α → Except ε β} {b : β} (done : x >>= f = .ok b) :
    ∃ a, x = .ok a ∧ f a = .ok b := by
  cases x with
  | error e => cases done
  | ok a => exact ⟨a, rfl, done⟩

theorem ok_bind (a : α) (f : α → Except ε β) : (Except.ok a >>= f) = f a := rfl

/-- A bind whose first part is known to succeed goes on with its value. -/
theorem bind_of_eq_ok {x : Except ε α} {a : α} (f : α → Except ε β) (ran : x = .ok a) :
    x >>= f = f a := by
  rw [ran, ok_bind]

/-- A computation that failed after a bind failed in its first part, or in
the rest after the first part succeeded. -/
theorem bind_eq_error {x : Except ε α} {f : α → Except ε β} {e : ε} (failed : x >>= f = .error e) :
    x = .error e ∨ ∃ a, x = .ok a ∧ f a = .error e := by
  cases x with
  | error e' =>
      cases failed
      exact .inl rfl
  | ok a => exact .inr ⟨a, rfl, failed⟩

/-- A check that throws `error` when `condition` holds, and else goes on. -/
def throwIf (condition : Prop) [Decidable condition] (error : ε) : Except ε Unit :=
  if condition then .error error else .ok ()

section ThrowIf

variable {condition : Prop} [Decidable condition]

@[simp] theorem throwIf_eq_ok {error : ε} {u : Unit} : throwIf condition error = .ok u ↔ ¬condition := by
  unfold throwIf
  split <;> simp_all

theorem throwIf_of_not (error : ε) (passes : ¬condition) : throwIf condition error = .ok () := by
  simp [throwIf, passes]

end ThrowIf

/-- The outputs of a run of a fallible machine and the state it ends in, or
the error that stops it. -/
def runExcept (step : σ → ι → Except ε (ο × σ)) : σ → List ι → Except ε (List ο × σ)
  | state, [] => .ok ([], state)
  | state, input :: inputs =>
      match step state input with
      | .error e => .error e
      | .ok (output, state) => (runExcept step state inputs).map fun (outputs, last) => (output :: outputs, last)

/-- The outputs of a run of a partial machine and the state it ends in, or
`none` when it reaches an input it does not allow. -/
def runOption (step : τ → ι → Option (ο × τ)) : τ → List ι → Option (List ο × τ)
  | state, [] => some ([], state)
  | state, input :: inputs =>
      match step state input with
      | none => none
      | some (output, state) => (runOption step state inputs).map fun (outputs, last) => (output :: outputs, last)

/-- An invariant that every successful step keeps, on the inputs it is
stated for, holds at the end of every successful run on such inputs.  By
induction on the inputs, one step at a time. -/
theorem runExcept_invariant {step : σ → ι → Except ε (ο × σ)} (Inv : σ → Prop) (Fits : ι → Prop)
    (keeps : ∀ {state input output state'}, Inv state → Fits input →
      step state input = .ok (output, state') → Inv state')
    {state : σ} (holds : Inv state) {inputs : List ι} (fits : ∀ input ∈ inputs, Fits input)
    {outputs : List ο} {last : σ} (ran : runExcept step state inputs = .ok (outputs, last)) : Inv last := by
  induction inputs generalizing state outputs with
  | nil =>
      cases ran
      exact holds
  | cons input inputs ih =>
      simp only [runExcept] at ran
      split at ran
      · cases ran
      · rename_i output state' stepped
        have first := keeps holds (fits input List.mem_cons_self) stepped
        -- the rest of the run succeeded too, from the state the step left
        rcases restRan : runExcept step state' inputs with e | ⟨rest, last'⟩
        · rw [restRan] at ran
          cases ran
        · rw [restRan] at ran
          cases ran
          exact ih first (fun input member => fits input (List.mem_cons_of_mem _ member)) restRan

/-- Forward simulation: a step relation between the machines that matches
every allowed abstract step carries over to every allowed run, which the
concrete machine runs with the same outputs into a related state. -/
theorem runExcept_of_simulation {concrete : σ → ι → Except ε (ο × σ)}
    {abstract : τ → ι → Option (ο × τ)} (Related : σ → τ → Prop)
    (simulates : ∀ {state spec input output spec'}, Related state spec →
      abstract spec input = some (output, spec') →
      ∃ state', concrete state input = .ok (output, state') ∧ Related state' spec')
    {state : σ} {spec : τ} (related : Related state spec) {inputs : List ι} {outputs : List ο} {last : τ}
    (allowed : runOption abstract spec inputs = some (outputs, last)) :
    ∃ state', runExcept concrete state inputs = .ok (outputs, state') ∧ Related state' last := by
  induction inputs generalizing state spec outputs with
  | nil =>
      cases allowed
      exact ⟨state, rfl, related⟩
  | cons input inputs ih =>
      -- the first allowed step is matched, and the rest of the run follows it
      simp only [runOption] at allowed
      split at allowed
      · cases allowed
      · rename_i output spec' stepped
        obtain ⟨⟨rest, last'⟩, restAllowed, same⟩ := Option.map_eq_some_iff.mp allowed
        cases same
        obtain ⟨state', matched, related'⟩ := simulates related stepped
        obtain ⟨state'', ran, related''⟩ := ih related' restAllowed
        refine ⟨state'', ?_, related''⟩
        simp only [runExcept, matched, ran]
        rfl

end Dory.Foundation
