/-
Module: Dory.Foundation.Framing
Purpose: Framed streams read through a buffer.  A splitter looks at the front
  of a stream and finds a whole frame with what follows it, not enough
  elements yet, or a start that no frame can have.  Decoding takes frames off
  the front until the splitter finds no more.  A splitter that only reads what
  it needs (`PrefixStable`) decodes a stream the same way however the stream
  is cut: the frames of `xs ++ ys` are those of `xs`, then those of what `xs`
  left over followed by `ys` (`decode_append`).  A reader of such a stream, as
  its client sees it (`framedStep`), takes chunks while the front holds no
  whole frame and hands out the frame at the front; whatever the client does,
  the frames a run hands out, followed by those still pending, are the frames
  of all that was fed (`runOption_decode`).
Trusted boundary: none
Main exports: TSplit, TDecodeEnd, PrefixStable, decode, decodeMore,
  decode_frame, decode_incomplete, decode_invalid, decode_append,
  TFramedEvent, TFramedState, framedStep, framedStep_decode, runOption_decode
-/
import Mathlib
import Dory.Foundation.Simulation

namespace Dory.Foundation

/-- What a splitter finds at the front of a stream. -/
inductive TSplit (β α ε : Type) where
  | frame (item : α) (rest : List β)
  | incomplete
  | invalid (reason : ε)
deriving DecidableEq, Repr

/-- How decoding a stream ends: inside a frame not yet complete, with its
elements, or at a frame start that is invalid, with the elements from
there on. -/
inductive TDecodeEnd (β ε : Type) where
  | pending (leftover : List β)
  | invalid (reason : ε) (rest : List β)
deriving DecidableEq, Repr

variable {β α ε : Type}

/-- Decoding with fuel, one unit a frame. -/
def decodeFuel (split : List β → TSplit β α ε) : Nat → List β → List α × TDecodeEnd β ε
  | 0, xs => ([], .pending xs)
  | fuel + 1, xs =>
      match split xs with
      | .frame item rest => ((item :: (decodeFuel split fuel rest).1), (decodeFuel split fuel rest).2)
      | .incomplete => ([], .pending xs)
      | .invalid reason => ([], .invalid reason xs)

/-- The frames at the front of a stream, and how the stream ends.  A frame
takes at least one element, so `length + 1` rounds are enough. -/
def decode (split : List β → TSplit β α ε) (xs : List β) : List α × TDecodeEnd β ε :=
  decodeFuel split (xs.length + 1) xs

/-- Decoding continued with `ys` after a decode that gave `done`. -/
def decodeMore (split : List β → TSplit β α ε) (done : List α × TDecodeEnd β ε) (ys : List β) :
    List α × TDecodeEnd β ε :=
  match done.2 with
  | .pending leftover => (done.1 ++ (decode split (leftover ++ ys)).1, (decode split (leftover ++ ys)).2)
  | .invalid reason rest => (done.1, .invalid reason (rest ++ ys))

/-- A splitter that reads only what it needs: what it finds at the front of
a stream it finds, the same, at the front of every longer stream, and a
frame takes at least one element. -/
structure PrefixStable (split : List β → TSplit β α ε) : Prop where
  frame_append : ∀ {xs rest : List β} {item : α} (more : List β),
    split xs = .frame item rest → split (xs ++ more) = .frame item (rest ++ more)
  invalid_append : ∀ {xs : List β} {reason : ε} (more : List β),
    split xs = .invalid reason → split (xs ++ more) = .invalid reason
  frame_shorter : ∀ {xs rest : List β} {item : α}, split xs = .frame item rest → rest.length < xs.length

section Decode

variable {split : List β → TSplit β α ε}

/-- Fuel beyond the length of the stream changes nothing: by induction on
the fuel, each frame leaving a shorter stream. -/
theorem decodeFuel_congr (stable : PrefixStable split) {fuel fuel' : Nat} {xs : List β}
    (enough : xs.length < fuel) (enough' : xs.length < fuel') :
    decodeFuel split fuel xs = decodeFuel split fuel' xs := by
  induction fuel generalizing fuel' xs with
  | zero => omega
  | succ fuel ih =>
      obtain ⟨fuel', rfl⟩ : ∃ f, fuel' = f + 1 := ⟨fuel' - 1, by omega⟩
      simp only [decodeFuel]
      split
      · rename_i item rest found
        have shorter := stable.frame_shorter found
        rw [@ih fuel' rest (by omega) (by omega)]
      · rfl
      · rfl

theorem decode_frame (stable : PrefixStable split) {xs rest : List β} {item : α}
    (found : split xs = .frame item rest) :
    decode split xs = (item :: (decode split rest).1, (decode split rest).2) := by
  have shorter := stable.frame_shorter found
  unfold decode
  rw [decodeFuel, found]
  dsimp only
  rw [decodeFuel_congr stable shorter (Nat.lt_succ_self rest.length)]

theorem decode_incomplete {xs : List β} (short : split xs = .incomplete) :
    decode split xs = ([], .pending xs) := by
  unfold decode
  rw [decodeFuel, short]

theorem decode_invalid {xs : List β} {reason : ε} (bad : split xs = .invalid reason) :
    decode split xs = ([], .invalid reason xs) := by
  unfold decode
  rw [decodeFuel, bad]

@[simp] theorem decodeMore_pending (items : List α) (leftover ys : List β) :
    decodeMore split (items, .pending leftover) ys =
      (items ++ (decode split (leftover ++ ys)).1, (decode split (leftover ++ ys)).2) := rfl

@[simp] theorem decodeMore_invalid (items : List α) (reason : ε) (rest ys : List β) :
    decodeMore split (items, .invalid reason rest) ys = (items, .invalid reason (rest ++ ys)) := rfl

/-- Decoding a stream cut in two: the frames of the first part, then the
decode of what it left over followed by the second part.  By strong
induction on the first part, one frame at a time. -/
theorem decode_append (stable : PrefixStable split) (xs ys : List β) :
    decode split (xs ++ ys) = decodeMore split (decode split xs) ys := by
  induction xs using (measure List.length).wf.induction with
  | h xs ih =>
      rcases found : split xs with ⟨item, rest⟩ | _ | reason
      · -- a whole frame at the front, found again in the longer stream
        have shorter := stable.frame_shorter found
        rw [decode_frame stable found, decode_frame stable (stable.frame_append ys found), ih rest shorter]
        rcases (decode split rest) with ⟨items, stop⟩
        cases stop <;> rfl
      · rw [decode_incomplete found, decodeMore_pending, List.nil_append]
      · rw [decode_invalid found, decode_invalid (stable.invalid_append ys found), decodeMore_invalid]

/-- A stream holds no more frames than elements: each frame takes one at
least.  By strong induction on the stream. -/
theorem length_decode_le (stable : PrefixStable split) (xs : List β) : (decode split xs).1.length ≤ xs.length := by
  induction xs using (measure List.length).wf.induction with
  | h xs ih =>
      rcases found : split xs with ⟨item, rest⟩ | _ | reason
      · have shorter := stable.frame_shorter found
        have inner := ih rest shorter
        rw [decode_frame stable found, List.length_cons]
        omega
      · rw [decode_incomplete found]
        exact Nat.zero_le _
      · rw [decode_invalid found]
        exact Nat.zero_le _

/-- A stream that decodes to no frame and an unfinished one is that
unfinished frame, which the splitter finds incomplete. -/
theorem incomplete_of_decode (stable : PrefixStable split) {xs leftover : List β}
    (decoded : decode split xs = ([], .pending leftover)) : split xs = .incomplete ∧ leftover = xs := by
  rcases found : split xs with ⟨item, rest⟩ | _ | reason
  · rw [decode_frame stable found] at decoded
    cases decoded
  · rw [decode_incomplete found] at decoded
    cases decoded
    exact ⟨rfl, rfl⟩
  · rw [decode_invalid found] at decoded
    cases decoded

/-- Frames handed out before a decode stay in front of it. -/
theorem decodeMore_prefix (items : List α) (done : List α × TDecodeEnd β ε) (ys : List β) :
    decodeMore split (items ++ done.1, done.2) ys =
      (items ++ (decodeMore split done ys).1, (decodeMore split done ys).2) := by
  rcases done with ⟨more, leftover | ⟨reason, rest⟩⟩
  · simp only [decodeMore_pending, List.append_assoc]
  · rfl

end Decode

/-! ### A reader of a framed stream, as its client sees it -/

/-- What a client does with a reader: hands it a chunk that arrived (an
empty one at the end of input), waits without one, or takes the frame at
the front. -/
inductive TFramedEvent (β : Type) where
  | feed (chunk : List β)
  | idle
  | take
deriving DecidableEq, Repr

/-- The elements an event brings. -/
def TFramedEvent.fed : TFramedEvent β → List β
  | .feed chunk => chunk
  | .idle | .take => []

/-- The reader as its client sees it: the elements not yet taken in frames,
and whether the input has ended. -/
structure TFramedState (β : Type) where
  pending : List β
  ended : Bool
deriving DecidableEq, Repr

/-- The calls the reader allows.  While the front holds neither a whole
frame nor an invalid start and the input goes on, the client may feed a
chunk of at most `limit` elements (an empty one ends the input) or wait;
with a whole frame at the front it may take it. -/
def framedStep (split : List β → TSplit β α ε) (limit : Nat) (state : TFramedState β) :
    TFramedEvent β → Option (Option α × TFramedState β)
  | .feed chunk =>
      match split state.pending with
      | .incomplete =>
          if state.ended = false ∧ chunk.length ≤ limit then
            some (none, ⟨state.pending ++ chunk, chunk.isEmpty⟩)
          else none
      | _ => none
  | .idle =>
      match split state.pending with
      | .incomplete => if state.ended = false then some (none, state) else none
      | _ => none
  | .take =>
      match split state.pending with
      | .frame item rest => some (some item, { state with pending := rest })
      | _ => none

section Reader

variable {split : List β → TSplit β α ε} {limit : Nat} {state state' : TFramedState β} {output : Option α}


theorem framedStep_feed_eq_some {chunk : List β} :
    framedStep split limit state (.feed chunk) = some (output, state') ↔
      split state.pending = .incomplete ∧ state.ended = false ∧ chunk.length ≤ limit ∧ output = none ∧
        state' = ⟨state.pending ++ chunk, chunk.isEmpty⟩ := by
  unfold framedStep
  rcases split state.pending with ⟨item, rest⟩ | _ | reason
  · simp
  · by_cases allowed : state.ended = false ∧ chunk.length ≤ limit
    · simp only [if_pos allowed]
      simp [allowed, eq_comm]
    · simp only [if_neg allowed, reduceCtorEq, false_iff, true_and]
      rintro ⟨ended, fits, -⟩
      exact allowed ⟨ended, fits⟩
  · simp

theorem framedStep_idle_eq_some :
    framedStep split limit state .idle = some (output, state') ↔
      split state.pending = .incomplete ∧ state.ended = false ∧ output = none ∧ state' = state := by
  unfold framedStep
  rcases split state.pending with ⟨item, rest⟩ | _ | reason
  · simp
  · by_cases ended : state.ended = false
    · simp [ended, eq_comm]
    · simp [ended]
  · simp

theorem framedStep_take_eq_some :
    framedStep split limit state .take = some (output, state') ↔
      ∃ item rest, split state.pending = .frame item rest ∧ output = some item ∧
        state' = { state with pending := rest } := by
  unfold framedStep
  rcases split state.pending with ⟨item, rest⟩ | _ | reason
  · simp [eq_comm]
  · simp
  · simp

/-- Each allowed step hands out the frame at the front, if it takes one:
the elements before the step and those it brought decode to what it handed
out followed by the decode of what is pending after it. -/
theorem framedStep_decode (stable : PrefixStable split) {event : TFramedEvent β}
    (stepped : framedStep split limit state event = some (output, state')) :
    decode split (state.pending ++ event.fed) =
      (output.toList ++ (decode split state'.pending).1, (decode split state'.pending).2) := by
  cases event with
  | feed chunk =>
      obtain ⟨-, -, -, rfl, rfl⟩ := framedStep_feed_eq_some.mp stepped
      rfl
  | idle =>
      obtain ⟨-, -, rfl, rfl⟩ := framedStep_idle_eq_some.mp stepped
      simp [TFramedEvent.fed]
  | take =>
      obtain ⟨item, rest, found, rfl, rfl⟩ := framedStep_take_eq_some.mp stepped
      rw [TFramedEvent.fed, List.append_nil, decode_frame stable found]
      rfl

/-- A machine whose every allowed step hands out the frame at the front
hands out, over every allowed run, the frames of all it was fed, followed
by the frames still pending.  By induction on the run, each step's frames
kept in front by `decodeMore_prefix`. -/
theorem runOption_decode {τ ι : Type} {step : τ → ι → Option (Option α × τ)} (pending : τ → List β)
    (fed : ι → List β) (stable : PrefixStable split)
    (law : ∀ {state event output state'}, step state event = some (output, state') →
      decode split (pending state ++ fed event) =
        (output.toList ++ (decode split (pending state')).1, (decode split (pending state')).2))
    {state last : τ} {events : List ι} {outputs : List (Option α)}
    (ran : runOption step state events = some (outputs, last)) :
    decode split (pending state ++ events.flatMap fed) =
      (outputs.reduceOption ++ (decode split (pending last)).1, (decode split (pending last)).2) := by
  induction events generalizing state outputs with
  | nil =>
      cases ran
      simp
  | cons event events ih =>
      simp only [runOption] at ran
      split at ran
      · cases ran
      · rename_i output state' stepped
        obtain ⟨⟨rest, last'⟩, restRan, same⟩ := Option.map_eq_some_iff.mp ran
        cases same
        have reduced : (output :: rest).reduceOption = output.toList ++ rest.reduceOption := by
          cases output <;> simp
        calc decode split (pending state ++ (event :: events).flatMap fed)
            = decodeMore split (decode split (pending state ++ fed event)) (events.flatMap fed) := by
              rw [List.flatMap_cons, ← List.append_assoc, decode_append stable]
          _ = (output.toList ++ (decode split (pending state' ++ events.flatMap fed)).1,
                (decode split (pending state' ++ events.flatMap fed)).2) := by
              rw [law stepped, decodeMore_prefix, decode_append stable]
          _ = _ := by
              rw [ih restRan, reduced, List.append_assoc]

end Reader

end Dory.Foundation
