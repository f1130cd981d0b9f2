/-
Module: Dory.Thread.Gate
Purpose: `Thread::TGate` (thread/gate.h), the channel between threads: a
  message list under `Mutex`, and the `EFD_SEMAPHORE` eventfd `Sem`
  (base/event_semaphore.cc) that `Put()` pushes, after releasing the mutex,
  when it found the list empty.  Producers' `Put()` calls and one consumer's
  `Get()` and `NonblockingGet()` are interleaved one step at a time.  Every
  run hands out each item put once, each producer's items in the order it put
  them; a nonempty list always has a wake-up on its way (the semaphore's
  count, a push not yet made, or a `Get()` past its `Sem.Pop()`); and
  `Get()` returns an empty list only after a `NonblockingGet()` took items.
  Release builds define `NDEBUG`, so the semaphore's asserts are not checked.
Trusted boundary: none
Main exports: TGate, TGate.putLocked, TGate.nonblockingGet, TGateEvent,
  TGateSystem, TGateSystem.enabled, TGateSystem.next, TGateSystem.run,
  TGateSystem.tokens, TGateSystem.Inv, Inv.next, Inv.run
-/
import Mathlib

namespace Dory.Thread

/-- A `TGate`: `MsgList`, under `Mutex`, and the count of `Sem`. -/
structure TGate (α : Type) where
  msgList : List α := []
  sem : Nat := 0

namespace TGate

variable {α : Type}

/-- The critical section of `Put()`: the items go to the end of the list.
It returns whether the list was empty. -/
def putLocked (putList : List α) (gate : TGate α) : Bool × TGate α :=
  (gate.msgList.isEmpty, { gate with msgList := gate.msgList ++ putList })

/-- The critical section of `NonblockingGet()`: the whole list is taken. -/
def nonblockingGet (gate : TGate α) : List α × TGate α :=
  (gate.msgList, { gate with msgList := [] })

/-- `Sem.Push()`. -/
def semPush (gate : TGate α) : TGate α :=
  { gate with sem := gate.sem + 1 }

/-- `Sem.Pop()` on the blocking semaphore, once its count is positive. -/
def semPop (gate : TGate α) : TGate α :=
  { gate with sem := gate.sem - 1 }

end TGate

/-- One step of one thread; producers are named by `ι`. -/
inductive TGateEvent (ι α : Type) where
  /-- The critical section of `Put(put_list)`; nothing for an empty list. -/
  | putList (producer : ι) (putList : List α)
  /-- The critical section of `Put(put_item)`. -/
  | putItem (producer : ι) (item : α)
  /-- The `Sem.Push()` of a `Put()` that found the list empty. -/
  | push (producer : ι)
  /-- The `Sem.Pop()` that starts `Get()`, blocked while the count is 0. -/
  | getPop
  /-- The `NonblockingGet()` that ends `Get()`. -/
  | getTake
  | nonblockingGet

namespace TGateEvent

variable {ι α : Type} [DecidableEq ι]

/-- The items a producer puts in an event. -/
def putBy (producer : ι) : TGateEvent ι α → List α
  | .putList other items => if other = producer then items else []
  | .putItem other item => if other = producer then [item] else []
  | _ => []

end TGateEvent

/-- A gate, its producers and its consumer; each item carries the producer
that put it.  `pending` are the producers between their critical section and
their `Sem.Push()`, and `popped` says whether the consumer is in `Get()` past
`Sem.Pop()`.  The history: every item put, in the order of the critical
sections (`log`), what each `Get()` and `NonblockingGet()` returned
(`results`), and how many `NonblockingGet()` calls returned items
(`drained`). -/
structure TGateSystem (ι α : Type) where
  gate : TGate (ι × α) := {}
  pending : List ι := []
  popped : Bool := false
  log : List (ι × α) := []
  results : List (List (ι × α)) := []
  drained : Nat := 0

namespace TGateSystem

variable {ι α : Type} [DecidableEq ι]

/-- A producer's critical section of `Put()`; a producer that found the
list empty goes on to push. -/
def put (producer : ι) (putList : List α) (s : TGateSystem ι α) : TGateSystem ι α :=
  let items := putList.map (producer, ·)
  let (wasEmpty, gate) := s.gate.putLocked items
  { s with
    gate
    pending := if wasEmpty then producer :: s.pending else s.pending
    log := s.log ++ items }

/-- The state after one event. -/
def next (s : TGateSystem ι α) : TGateEvent ι α → TGateSystem ι α
  | .putList producer putList => if putList.isEmpty then s else s.put producer putList
  | .putItem producer item => s.put producer [item]
  | .push producer => { s with gate := s.gate.semPush, pending := s.pending.erase producer }
  | .getPop => { s with gate := s.gate.semPop, popped := true }
  | .getTake =>
      let (result, gate) := s.gate.nonblockingGet
      { s with gate, popped := false, results := s.results ++ [result] }
  | .nonblockingGet =>
      let (result, gate) := s.gate.nonblockingGet
      { s with
        gate
        results := s.results ++ [result]
        drained := if result.isEmpty then s.drained else s.drained + 1 }

/-- Whether the event can happen next: each producer makes one `Put()` at a
time, and the consumer one `Get()` or `NonblockingGet()`. -/
def enabled (s : TGateSystem ι α) : TGateEvent ι α → Bool
  | .putList producer _ => decide (producer ∉ s.pending)
  | .putItem producer _ => decide (producer ∉ s.pending)
  | .push producer => decide (producer ∈ s.pending)
  | .getPop => !s.popped && decide (s.gate.sem ≠ 0)
  | .getTake => s.popped
  | .nonblockingGet => !s.popped

/-- The state after a run of events. -/
def run (s : TGateSystem ι α) (events : List (TGateEvent ι α)) : TGateSystem ι α :=
  events.foldl next s

/-- Whether each event of a run can happen when it does. -/
def enabledRun (s : TGateSystem ι α) : List (TGateEvent ι α) → Bool
  | [] => true
  | event :: events => s.enabled event && (s.next event).enabledRun events

/-- The wake-ups on their way to the consumer: the semaphore's count, the
pushes not yet made, and a `Get()` past its `Sem.Pop()`. -/
def tokens (s : TGateSystem ι α) : Nat :=
  s.gate.sem + s.pending.length + s.popped.toNat

/-- The items of one producer, in order. -/
def itemsOf (producer : ι) (items : List (ι × α)) : List α :=
  (items.filter fun item => item.1 = producer).map Prod.snd

@[simp] theorem itemsOf_append (producer : ι) (items more : List (ι × α)) :
    itemsOf producer (items ++ more) = itemsOf producer items ++ itemsOf producer more := by
  simp [itemsOf]

theorem itemsOf_map (producer other : ι) (putList : List α) :
    itemsOf producer (putList.map (other, ·)) = if other = producer then putList else [] := by
  by_cases same : other = producer
  · simp [itemsOf, same, List.filter_map, Function.comp_def]
  · simp [itemsOf, same, List.filter_map, Function.comp_def]

/-! ### One step -/

/-- What every run keeps. -/
structure Inv (s : TGateSystem ι α) : Prop where
  /-- Each item put was handed out once, or waits in the list. -/
  conserved : s.results.flatten ++ s.gate.msgList = s.log
  /-- A nonempty list has a wake-up on its way. -/
  woken : s.gate.msgList ≠ [] → 1 ≤ s.tokens
  /-- Any wake-up beyond the one a nonempty list needs is left by a
  `NonblockingGet()` that took items. -/
  spare : s.tokens ≤ (if s.gate.msgList.isEmpty then 0 else 1) + s.drained

omit [DecidableEq ι] in
theorem inv_empty : (({} : TGateSystem ι α)).Inv :=
  ⟨rfl, fun nonempty => absurd rfl nonempty, Nat.zero_le _⟩

variable {s : TGateSystem ι α}

/-- The wake-up that `spare` sets aside for a list, as a count. -/
theorem needed_eq (empty : Bool) : (if empty = true then 0 else 1) = 1 - empty.toNat := by
  cases empty <;> rfl

/-- What `drained` becomes when a `NonblockingGet()` takes the list. -/
theorem drained_eq (empty : Bool) (drained : Nat) :
    (if empty = true then drained else drained + 1) = drained + (1 - empty.toNat) := by
  cases empty <;> rfl

omit [DecidableEq ι] in
/-- A `Put()` adds the wake-up it will push exactly when it finds the list
empty. -/
theorem tokens_put (producer : ι) (putList : List α) :
    (s.put producer putList).tokens = s.tokens + s.gate.msgList.isEmpty.toNat := by
  unfold TGateSystem.put TGate.putLocked tokens
  cases s.gate.msgList.isEmpty
  · simp
  · simp
    omega

omit [DecidableEq ι] in
/-- A `Put()` of items: a producer that makes the list nonempty adds the
wake-up it will push. -/
theorem Inv.put (inv : s.Inv) (producer : ι) {putList : List α} (nonempty : putList ≠ []) :
    (s.put producer putList).Inv := by
  have added : putList.map (producer, ·) ≠ [] := by simpa using nonempty
  have after : (s.put producer putList).gate.msgList = s.gate.msgList ++ putList.map (producer, ·) := rfl
  have stillNonempty : (s.put producer putList).gate.msgList.isEmpty = false := by
    rw [after]
    simp [added]
  have drained : (s.put producer putList).drained = s.drained := rfl
  have results : (s.put producer putList).results = s.results := rfl
  have log : (s.put producer putList).log = s.log ++ putList.map (producer, ·) := rfl
  have tokens := tokens_put (s := s) producer putList
  have before := inv.spare
  rw [needed_eq] at before
  refine ⟨?_, fun _ => ?_, ?_⟩
  · rw [after, results, log, ← List.append_assoc, inv.conserved]
  · cases empty : s.gate.msgList.isEmpty
    · -- a nonempty list already had its wake-up
      have woken := inv.woken (by simpa using empty)
      omega
    · rw [tokens, empty, Bool.toNat_true]
      omega
  · -- the wake-up the list now needs is the one the producer will push
    have found := Bool.toNat_le s.gate.msgList.isEmpty
    rw [needed_eq, stillNonempty, tokens, drained, Bool.toNat_false]
    omega

theorem Inv.push (inv : s.Inv) {producer : ι} (pending : producer ∈ s.pending) : (s.next (.push producer)).Inv := by
  have erased := List.length_erase_of_mem pending
  have positive := List.length_pos_of_mem pending
  -- the push turns a wake-up on its way into a semaphore count
  have same : (s.next (.push producer)).tokens = s.tokens := by
    simp only [TGateSystem.next, tokens, TGate.semPush, erased]
    omega
  exact ⟨inv.conserved, fun nonempty => same ▸ inv.woken nonempty, same ▸ inv.spare⟩

theorem Inv.getPop (inv : s.Inv) (positive : s.gate.sem ≠ 0) (idle : s.popped = false) : (s.next .getPop).Inv := by
  have same : (s.next .getPop).tokens = s.tokens := by
    simp only [TGateSystem.next, tokens, TGate.semPop, idle, Bool.toNat_true, Bool.toNat_false]
    omega
  exact ⟨inv.conserved, fun nonempty => same ▸ inv.woken nonempty, same ▸ inv.spare⟩

omit [DecidableEq ι] in
/-- A `Get()` or `NonblockingGet()` that takes the whole list hands out what
waited in it. -/
theorem Inv.taken_conserved (inv : s.Inv) : (s.results ++ [s.gate.msgList]).flatten ++ [] = s.log := by
  rw [List.flatten_append, List.flatten_singleton, List.append_nil, inv.conserved]

theorem Inv.getTake (inv : s.Inv) (popped : s.popped = true) : (s.next .getTake).Inv := by
  have before := inv.spare
  refine ⟨inv.taken_conserved, fun nonempty => absurd rfl nonempty, ?_⟩
  · -- the consumer's wake-up is used up
    show s.gate.sem + s.pending.length + 0 ≤ 0 + s.drained
    simp only [tokens, popped, Bool.toNat_true, needed_eq] at before
    omega

theorem Inv.nonblockingGet (inv : s.Inv) : (s.next .nonblockingGet).Inv := by
  have before := inv.spare
  have same : (s.next .nonblockingGet).tokens = s.tokens := rfl
  refine ⟨inv.taken_conserved, fun nonempty => absurd rfl nonempty, ?_⟩
  · -- a wake-up for the items taken stays behind
    rw [same]
    show s.tokens ≤ 0 + if s.gate.msgList.isEmpty then s.drained else s.drained + 1
    rw [needed_eq] at before
    rw [drained_eq]
    omega

/-- One enabled event keeps the invariant: one case per event. -/
theorem Inv.next (inv : s.Inv) {event : TGateEvent ι α} (enabled : s.enabled event = true) : (s.next event).Inv := by
  cases event with
  | putList producer putList =>
      by_cases empty : putList.isEmpty
      · simpa [TGateSystem.next, empty] using inv
      · simp only [TGateSystem.next, empty]
        exact inv.put producer (by simpa using empty)
  | putItem producer item => exact inv.put producer (List.cons_ne_nil item [])
  | push producer => exact inv.push (of_decide_eq_true enabled)
  | getPop =>
      simp only [TGateSystem.enabled, Bool.and_eq_true, Bool.not_eq_true', decide_eq_true_eq] at enabled
      exact inv.getPop enabled.2 enabled.1
  | getTake => exact inv.getTake enabled
  | nonblockingGet => exact inv.nonblockingGet

/-- Each event adds to the log the items it puts, at its end. -/
theorem itemsOf_log_next (producer : ι) (event : TGateEvent ι α) :
    itemsOf producer (s.next event).log = itemsOf producer s.log ++ event.putBy producer := by
  cases event with
  | putList other putList =>
      by_cases empty : putList.isEmpty
      · rw [List.isEmpty_iff.mp empty]
        simp [TGateSystem.next, TGateEvent.putBy]
      · have put : s.next (.putList other putList) = s.put other putList := if_neg empty
        rw [put]
        show itemsOf producer (s.log ++ putList.map (other, ·)) = _
        rw [itemsOf_append, itemsOf_map]
        rfl
  | putItem other item =>
      show itemsOf producer (s.log ++ [item].map (other, ·)) = _
      rw [itemsOf_append, itemsOf_map]
      rfl
  | push | getPop | getTake | nonblockingGet => simp [TGateSystem.next, TGateEvent.putBy]

/-! ### Runs -/

theorem run_cons (s : TGateSystem ι α) (event : TGateEvent ι α) (events : List (TGateEvent ι α)) :
    s.run (event :: events) = (s.next event).run events := rfl

/-- Every run of enabled events keeps the invariant: by induction on the
events, each one a step. -/
theorem Inv.run (inv : s.Inv) (events : List (TGateEvent ι α)) (enabled : s.enabledRun events = true) :
    (s.run events).Inv := by
  induction events generalizing s with
  | nil => exact inv
  | cons event events ih =>
      simp only [enabledRun, Bool.and_eq_true] at enabled
      exact ih (inv.next enabled.1) enabled.2

/-- Over a run, each producer's items enter the log in the order it put
them: by induction on the events. -/
theorem itemsOf_log_run (producer : ι) (events : List (TGateEvent ι α)) :
    itemsOf producer (s.run events).log = itemsOf producer s.log ++ (events.map (TGateEvent.putBy producer)).flatten := by
  induction events generalizing s with
  | nil => simp [run]
  | cons event events ih =>
      rw [run_cons, ih, itemsOf_log_next, List.map_cons, List.flatten_cons, List.append_assoc]

/-- Any number of producers and one consumer, over every interleaving from
the constructor's empty gate: each item put has been handed out by exactly
one `Get()` or `NonblockingGet()` or still waits in the list, in the order
of the critical sections that put them; the items of each producer come out
in the order it put them; whenever no `Put()` is between its critical
section and its `Sem.Push()` and the consumer is not in `Get()` between
`Sem.Pop()` and taking the mutex, a nonempty list has a positive semaphore
count; and `Get()` can take an empty list only after some
`NonblockingGet()` took items. -/
theorem run_gate_delivers (events : List (TGateEvent ι α))
    (enabled : ({} : TGateSystem ι α).enabledRun events = true) :
    (({} : TGateSystem ι α).run events).results.flatten ++ (({} : TGateSystem ι α).run events).gate.msgList =
        (({} : TGateSystem ι α).run events).log ∧
      (∀ producer, itemsOf producer (({} : TGateSystem ι α).run events).results.flatten <+:
        (events.map (TGateEvent.putBy producer)).flatten) ∧
      ((({} : TGateSystem ι α).run events).pending = [] → (({} : TGateSystem ι α).run events).popped = false →
        (({} : TGateSystem ι α).run events).gate.msgList ≠ [] → 1 ≤ (({} : TGateSystem ι α).run events).gate.sem) ∧
      ((({} : TGateSystem ι α).run events).popped = true → (({} : TGateSystem ι α).run events).gate.msgList = [] →
        1 ≤ (({} : TGateSystem ι α).run events).drained) := by
  have inv := inv_empty.run events enabled
  refine ⟨inv.conserved, ?_, ?_, ?_⟩
  · -- what came out is the front of the log
    intro producer
    have logged := itemsOf_log_run (s := ({} : TGateSystem ι α)) producer events
    rw [← inv.conserved, itemsOf_append] at logged
    simp only [itemsOf, List.filter_nil, List.map_nil, List.nil_append] at logged
    rw [← logged]
    exact List.prefix_append _ _
  · intro noPending idle nonempty
    have woken := inv.woken nonempty
    simpa [tokens, noPending, idle] using woken
  · intro popped empty
    have spare := inv.spare
    simp only [tokens, popped, empty, Bool.toNat_true, List.isEmpty_nil, if_true] at spare
    omega

/-- One producer puts two items, one at a time, and the consumer's `Get()`
takes both. -/
theorem run_gate_delivers_two_items :
    let events : List (TGateEvent Nat Nat) := [.putItem 0 7, .push 0, .putItem 0 8, .getPop, .getTake]
    ({} : TGateSystem Nat Nat).enabledRun events = true ∧
      ((({} : TGateSystem Nat Nat).run events).results.flatten ++ (({} : TGateSystem Nat Nat).run events).gate.msgList =
          (({} : TGateSystem Nat Nat).run events).log ∧
        (∀ producer, itemsOf producer (({} : TGateSystem Nat Nat).run events).results.flatten <+:
          (events.map (TGateEvent.putBy producer)).flatten) ∧
        ((({} : TGateSystem Nat Nat).run events).pending = [] → (({} : TGateSystem Nat Nat).run events).popped = false →
          (({} : TGateSystem Nat Nat).run events).gate.msgList ≠ [] → 1 ≤ (({} : TGateSystem Nat Nat).run events).gate.sem) ∧
        ((({} : TGateSystem Nat Nat).run events).popped = true → (({} : TGateSystem Nat Nat).run events).gate.msgList = [] →
          1 ≤ (({} : TGateSystem Nat Nat).run events).drained)) := by
  intro events
  have enabled : ({} : TGateSystem Nat Nat).enabledRun events = true := rfl
  exact ⟨enabled, run_gate_delivers events enabled⟩

/-- A producer puts an item into the empty gate and pushes, and the
consumer's `Get()` pops: no `Put()` is between its critical section and its
push, yet the list holds the item and the semaphore's count is 0. -/
theorem gate_nonempty_with_zero_count :
    ({} : TGateSystem Nat Nat).enabledRun [.putItem 0 7, .push 0, .getPop] = true ∧
      (({} : TGateSystem Nat Nat).run [.putItem 0 7, .push 0, .getPop]).pending = [] ∧
      (({} : TGateSystem Nat Nat).run [.putItem 0 7, .push 0, .getPop]).gate.msgList = [(0, 7)] ∧
      (({} : TGateSystem Nat Nat).run [.putItem 0 7, .push 0, .getPop]).gate.sem = 0 := by
  decide

end TGateSystem

end Dory.Thread
