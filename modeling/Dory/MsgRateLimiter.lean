/-
Module: Dory.MsgRateLimiter
Purpose: `TMsgRateLimiter` (src/dory/msg_rate_limiter.{h,cc}) with the
  `TTopicRateConf` it reads (src/dory/conf/topic_rate_conf.h): per-topic
  rate limiting over fixed windows.  A topic's first message starts its
  first window; a message past the current window moves the window on by a
  whole number of intervals and restarts the count; a message is refused
  when the count, itself included, exceeds the topic's `MaxCount`.  The
  timestamps and the window arithmetic are `uint64_t` and `size_t`, modelled
  as `UInt64`; the count is only ever incremented and is a `Nat`.
  The rule itself is `exceedsSpec`: the windows of length `I` aligned to the
  topic's first message, and the count of the topic's messages in the
  window of the current one.  `run_eq_specAnswers` says the limiter follows
  it over every run whose timestamps do not decrease per topic and stay
  `I` below `2^64`; `run_overflows_at_top` is a run above that bound where
  `IntervalStart + Interval` wraps and the count restarts inside a window.
Trusted boundary: none
Main exports: Conf.TConf, Conf.TTopicRateConf, TMsgRateLimiter,
  wouldExceedLimit, run, exceedsSpec, specAnswers, run_eq_specAnswers
-/
import Mathlib

namespace Dory

namespace Conf

/-- `TTopicRateConf::TConf`: a window length in milliseconds, and the most
messages a window may hold (none for no limit).  The builder refuses a
bounded config of interval 0. -/
structure TConf where
  interval : UInt64 := 1
  maxCount : Option Nat := none
deriving DecidableEq, Repr

/-- `TTopicRateConf`: the default config and the configs of named topics. -/
structure TTopicRateConf where
  defaultTopicConfig : TConf
  topicConfigs : List (String × TConf)
deriving DecidableEq, Repr

/-- The config `GetTopicState` picks for a topic: its own, else the
default. -/
def TTopicRateConf.confFor (conf : TTopicRateConf) (topic : String) : TConf :=
  (conf.topicConfigs.lookup topic).getD conf.defaultTopicConfig

end Conf

open Conf

/-- `TMsgRateLimiter::TTopicState`. -/
structure TTopicState where
  enable : Bool := false
  interval : UInt64 := 1
  maxCount : Nat := 0
  intervalStart : UInt64 := 0
  count : Nat := 0
deriving DecidableEq, Repr

/-- `TMsgRateLimiter`: the config, whether any topic is limited, and the
state of each topic seen (`TopicStateMap`). -/
structure TMsgRateLimiter where
  conf : TTopicRateConf
  isEnabled : Bool
  topicStateMap : String → Option TTopicState

namespace TMsgRateLimiter

/-- `RateLimitingIsEnabled(conf)`: some config has a `MaxCount`. -/
def rateLimitingIsEnabled (conf : TTopicRateConf) : Bool :=
  conf.defaultTopicConfig.maxCount.isSome || conf.topicConfigs.any fun elem => elem.2.maxCount.isSome

/-- The constructor: no topic seen yet. -/
def create (conf : TTopicRateConf) : TMsgRateLimiter :=
  { conf, isEnabled := rateLimitingIsEnabled conf, topicStateMap := fun _ => none }

/-- The part of `GetTopicState` for a topic seen before: a message past the
current window moves the window on by a whole number of intervals and
restarts the count. -/
def advanceWindow (state : TTopicState) (timestamp : UInt64) : TTopicState :=
  if timestamp ≥ state.intervalStart + state.interval then
    let intervalDelta := (timestamp - state.intervalStart) / state.interval
    { state with intervalStart := state.intervalStart + intervalDelta * state.interval, count := 0 }
  else state

/-- The part of `GetTopicState` for a new topic: enabled when its config has
a limit, and then with the config's interval and limit and its window
starting at the message. -/
def newTopicState (conf : TConf) (timestamp : UInt64) : TTopicState :=
  match conf.maxCount with
  | some maxCount => { enable := true, interval := conf.interval, maxCount, intervalStart := timestamp }
  | none => {}

/-- `GetTopicState(topic, timestamp)`. -/
def getTopicState (limiter : TMsgRateLimiter) (topic : String) (timestamp : UInt64) : TTopicState :=
  match limiter.topicStateMap topic with
  | some state => advanceWindow state timestamp
  | none => newTopicState (limiter.conf.confFor topic) timestamp

/-- `WouldExceedLimit(topic, timestamp)`: the topic's state, its count
incremented, stored back. -/
def wouldExceedLimit (limiter : TMsgRateLimiter) (topic : String) (timestamp : UInt64) :
    Bool × TMsgRateLimiter :=
  if !limiter.isEnabled then (false, limiter)
  else
    let state := limiter.getTopicState topic timestamp
    let state := { state with count := state.count + 1 }
    (state.enable && decide (state.count > state.maxCount),
      { limiter with topicStateMap := Function.update limiter.topicStateMap topic (some state) })

/-- Successive calls of `WouldExceedLimit`, with their answers in order. -/
def run (limiter : TMsgRateLimiter) : List (String × UInt64) → List Bool × TMsgRateLimiter
  | [] => ([], limiter)
  | (topic, timestamp) :: calls =>
      let (exceeds, limiter) := limiter.wouldExceedLimit topic timestamp
      let (answers, limiter) := run limiter calls
      (exceeds :: answers, limiter)

end TMsgRateLimiter

/-! ### The fixed-window rule -/

/-- The window of length `interval`, counted from `first`, that holds `t`. -/
def windowOf (interval first t : Nat) : Nat := (t - first) / interval

/-- How many of `seen` fall in the window of `t`. -/
def countInWindow (interval first : Nat) (seen : List Nat) (t : Nat) : Nat :=
  (seen.filter fun s => windowOf interval first s = windowOf interval first t).length

/-- The timestamps of the messages of `topic` among `calls`, in order. -/
def timestampsOf (topic : String) (calls : List (String × UInt64)) : List Nat :=
  (calls.filter fun call => call.1 == topic).map fun call => call.2.toNat

/-- The rule: after the calls `earlier`, a message of `topic` at `timestamp`
is refused when the topic's config has a limit and, in the topic's windows
aligned to its first message, the topic's messages in the window of this
one, this one included, are more than the limit. -/
def exceedsSpec (conf : TTopicRateConf) (earlier : List (String × UInt64)) (topic : String)
    (timestamp : UInt64) : Bool :=
  match (conf.confFor topic).maxCount with
  | none => false
  | some maxCount =>
      let seen := timestampsOf topic earlier ++ [timestamp.toNat]
      decide (maxCount < countInWindow (conf.confFor topic).interval.toNat (seen.headD 0) seen timestamp.toNat)

/-- The rule's answers to a sequence of calls after the calls `earlier`. -/
def specAnswers (conf : TTopicRateConf) : List (String × UInt64) → List (String × UInt64) → List Bool
  | _, [] => []
  | earlier, (topic, timestamp) :: calls =>
      exceedsSpec conf earlier topic timestamp :: specAnswers conf (earlier ++ [(topic, timestamp)]) calls

section Windows

variable {interval first : Nat}

theorem windowOf_mono {t t' : Nat} (le : t ≤ t') : windowOf interval first t ≤ windowOf interval first t' :=
  Nat.div_le_div_right (Nat.sub_le_sub_right le first)

/-- The start of the window of `t` is at most `t`. -/
theorem windowStart_le {t : Nat} (after : first ≤ t) : first + windowOf interval first t * interval ≤ t := by
  have := Nat.div_mul_le_self (t - first) interval
  unfold windowOf
  omega

/-- A later time before the end of the window of `t` is in the same
window. -/
theorem windowOf_of_lt (positive : 0 < interval) {t t' : Nat} (later : t ≤ t')
    (inside : t' < first + windowOf interval first t * interval + interval) :
    windowOf interval first t' = windowOf interval first t := by
  have below : windowOf interval first t' < windowOf interval first t + 1 := by
    unfold windowOf at inside ⊢
    rw [Nat.div_lt_iff_lt_mul positive]
    rw [Nat.add_mul, Nat.one_mul]
    omega
  have : windowOf interval first t ≤ windowOf interval first t' := windowOf_mono later
  omega

/-- A time past the window of `t` is in a later window, whose start is the
start of the window of `t` moved on by whole intervals. -/
theorem windowOf_of_le (positive : 0 < interval) {t t' : Nat}
    (past : first + windowOf interval first t * interval + interval ≤ t') :
    first + windowOf interval first t * interval +
        (t' - (first + windowOf interval first t * interval)) / interval * interval =
      first + windowOf interval first t' * interval ∧
    windowOf interval first t < windowOf interval first t' := by
  -- `t' - first` is the distance past the start of the window of `t`, plus
  -- the whole windows before it
  have split : t' - first = t' - (first + windowOf interval first t * interval) +
      windowOf interval first t * interval := by omega
  have moved : windowOf interval first t' =
      (t' - (first + windowOf interval first t * interval)) / interval + windowOf interval first t := by
    rw [windowOf, split, Nat.add_mul_div_right _ _ positive]
  have onward : 1 ≤ (t' - (first + windowOf interval first t * interval)) / interval :=
    (Nat.one_le_div_iff positive).mpr (by omega)
  refine ⟨?_, by omega⟩
  rw [moved, Nat.add_mul]
  omega

theorem countInWindow_append_self (seen : List Nat) (t : Nat) :
    countInWindow interval first (seen ++ [t]) t = countInWindow interval first seen t + 1 := by
  simp [countInWindow, List.filter_append]

theorem countInWindow_congr (seen : List Nat) {t t' : Nat}
    (same : windowOf interval first t = windowOf interval first t') :
    countInWindow interval first seen t = countInWindow interval first seen t' := by
  simp only [countInWindow, same]

/-- No earlier time is in a window after all of theirs. -/
theorem countInWindow_of_lt {seen : List Nat} {t : Nat}
    (before : ∀ s ∈ seen, windowOf interval first s < windowOf interval first t) :
    countInWindow interval first seen t = 0 := by
  rw [countInWindow, List.length_eq_zero_iff, List.filter_eq_nil_iff]
  intro s member
  have := before s member
  simp only [decide_eq_true_eq]
  omega

end Windows

/-! ### The limiter follows the rule -/

section Timestamps

variable (topic : String) (earlier : List (String × UInt64)) (timestamp : UInt64)

@[simp] theorem timestampsOf_nil : timestampsOf topic [] = [] := rfl

@[simp] theorem timestampsOf_append_self :
    timestampsOf topic (earlier ++ [(topic, timestamp)]) = timestampsOf topic earlier ++ [timestamp.toNat] := by
  simp [timestampsOf, List.filter_append]

theorem timestampsOf_append_other {other : String} (different : other ≠ topic) :
    timestampsOf other (earlier ++ [(topic, timestamp)]) = timestampsOf other earlier := by
  simp [timestampsOf, List.filter_append, Ne.symm different]

end Timestamps

/-- A topic's state after its timestamps `init ++ [last]`: enabled exactly
when its config has a limit, and then with the config's interval and limit,
the window of `last` aligned to the first timestamp, and the count of the
timestamps in that window. -/
structure TopicTracks (c : TConf) (init : List Nat) (last : Nat) (state : TTopicState) : Prop where
  enable : state.enable = c.maxCount.isSome
  window : ∀ maxCount, c.maxCount = some maxCount →
    state.interval = c.interval ∧ state.maxCount = maxCount ∧
      state.intervalStart.toNat =
        init.headD last + windowOf c.interval.toNat (init.headD last) last * c.interval.toNat ∧
      state.count = countInWindow c.interval.toNat (init.headD last) (init ++ [last]) last

theorem headD_append_singleton (init : List Nat) (last default : Nat) :
    (init ++ [last]).headD default = init.headD last := by
  cases init <;> rfl

namespace TMsgRateLimiter

/-- The answer of a topic's state that tracks its timestamps is the rule's. -/
theorem answer_of_tracks {c : TConf} {init : List Nat} {last : Nat} {state : TTopicState}
    (tracks : TopicTracks c init last state) :
    (state.enable && decide (state.count > state.maxCount)) =
      match c.maxCount with
      | none => false
      | some maxCount => decide (maxCount < countInWindow c.interval.toNat (init.headD last) (init ++ [last]) last) := by
  cases limit : c.maxCount with
  | none => simp [tracks.enable, limit]
  | some maxCount =>
      obtain ⟨-, limited, -, counted⟩ := tracks.window maxCount limit
      simp [tracks.enable, limit, limited, counted]

/-- A new topic's state, its count incremented, tracks its one timestamp. -/
theorem newTopicState_tracks (c : TConf) (timestamp : UInt64) :
    TopicTracks c [] timestamp.toNat
      { newTopicState c timestamp with count := (newTopicState c timestamp).count + 1 } := by
  unfold newTopicState
  cases limit : c.maxCount with
  | none => exact ⟨by simp [limit], fun _ absent => by simp [limit] at absent⟩
  | some maxCount =>
      refine ⟨by simp [limit], fun limitOf same => ?_⟩
      rw [limit, Option.some_inj] at same
      subst same
      exact ⟨rfl, rfl, by simp [windowOf], by simp [countInWindow]⟩

@[simp] theorem advanceWindow_enable (state : TTopicState) (timestamp : UInt64) :
    (advanceWindow state timestamp).enable = state.enable := by
  unfold advanceWindow
  split <;> rfl

/-- A later message of a limited topic, in `uint64_t` arithmetic that does
not wrap: within the window the state is kept, past it the window moves on
to the one of the message and the count restarts. -/
theorem advanceWindow_of_fits {state : TTopicState} {timestamp : UInt64}
    (started : state.intervalStart.toNat ≤ timestamp.toNat)
    (below : timestamp.toNat + state.interval.toNat < 2 ^ 64) :
    advanceWindow state timestamp =
      if state.intervalStart.toNat + state.interval.toNat ≤ timestamp.toNat then
        { state with
          intervalStart := UInt64.ofNat (state.intervalStart.toNat +
            (timestamp.toNat - state.intervalStart.toNat) / state.interval.toNat * state.interval.toNat)
          count := 0 }
      else state := by
  have endFits : (state.intervalStart + state.interval).toNat = state.intervalStart.toNat + state.interval.toNat := by
    rw [UInt64.toNat_add, Nat.mod_eq_of_lt (by omega)]
  unfold advanceWindow
  by_cases past : state.intervalStart.toNat + state.interval.toNat ≤ timestamp.toNat
  · -- the start moves on by whole intervals, still below the message
    have reached : timestamp ≥ state.intervalStart + state.interval := by
      rw [ge_iff_le, UInt64.le_iff_toNat_le, endFits]
      exact past
    rw [if_pos reached, if_pos past]
    dsimp only
    congr 1
    have moved := Nat.div_mul_le_self (timestamp.toNat - state.intervalStart.toNat) state.interval.toNat
    apply UInt64.toNat_inj.mp
    rw [UInt64.toNat_add, UInt64.toNat_mul, UInt64.toNat_div,
      UInt64.toNat_sub_of_le _ _ (UInt64.le_iff_toNat_le.mpr started), UInt64.toNat_ofNat_of_lt' (by rw [UInt64.size]; omega),
      Nat.mod_eq_of_lt (by omega), Nat.mod_eq_of_lt (by omega)]
  · have notReached : ¬ timestamp ≥ state.intervalStart + state.interval := by
      rw [ge_iff_le, UInt64.le_iff_toNat_le, endFits]
      exact past
    rw [if_neg notReached, if_neg past]

/-- A later message of a topic, its timestamps sorted: the state, moved on
and its count incremented, tracks them. -/
theorem advanceWindow_tracks {c : TConf} {init : List Nat} {last : Nat} {state : TTopicState}
    (tracks : TopicTracks c init last state) {timestamp : UInt64}
    (sorted : (init ++ [last] ++ [timestamp.toNat]).Pairwise (· ≤ ·))
    (positive : c.maxCount ≠ none → 0 < c.interval.toNat)
    (below : c.maxCount ≠ none → timestamp.toNat + c.interval.toNat < 2 ^ 64) :
    TopicTracks c (init ++ [last]) timestamp.toNat
      { advanceWindow state timestamp with count := (advanceWindow state timestamp).count + 1 } := by
  refine ⟨by simp [tracks.enable], fun maxCount limit => ?_⟩
  obtain ⟨interval, limited, started, counted⟩ := tracks.window maxCount limit
  have positive := positive (by simp [limit])
  have below := below (by simp [limit])
  -- what sorting gives: every earlier timestamp, the first included, is at
  -- most `last`, and `last` at most the message's
  simp only [List.pairwise_append, List.mem_append, List.mem_singleton] at sorted
  obtain ⟨⟨-, -, upToLast⟩, -, upToMessage⟩ := sorted
  have lastFirst : init.headD last ≤ last := by
    cases init with
    | nil => exact Nat.le_refl last
    | cons head rest => exact upToLast head (by simp) last rfl
  have lastMessage : last ≤ timestamp.toNat := upToMessage last (by simp) _ rfl
  have startFirst : init.headD last + windowOf c.interval.toNat (init.headD last) last * c.interval.toNat ≤ last :=
    windowStart_le lastFirst
  rw [advanceWindow_of_fits (by omega) (by rw [interval]; omega), interval, started, headD_append_singleton]
  split
  · -- past the window of `last`: the window of the message, holding only it
    rename_i past
    obtain ⟨moved, later⟩ := windowOf_of_le positive past
    have messageStart : init.headD last + windowOf c.interval.toNat (init.headD last) timestamp.toNat *
        c.interval.toNat ≤ timestamp.toNat := windowStart_le (Nat.le_trans lastFirst lastMessage)
    refine ⟨rfl, limited, ?_, ?_⟩
    · dsimp only
      rw [moved, UInt64.toNat_ofNat_of_lt' (by rw [UInt64.size]; omega)]
    · have earlierWindows : ∀ s ∈ init ++ [last], windowOf c.interval.toNat (init.headD last) s <
          windowOf c.interval.toNat (init.headD last) timestamp.toNat := by
        intro s member
        have atMost : s ≤ last := by
          rcases List.mem_append.mp member with inInit | isLast
          · exact upToLast s inInit last rfl
          · exact Nat.le_of_eq (List.mem_singleton.mp isLast)
        exact Nat.lt_of_le_of_lt (windowOf_mono atMost) later
      rw [countInWindow_append_self, countInWindow_of_lt earlierWindows]
  · -- inside the window of `last`: the same window, one more message
    rename_i inside
    have same : windowOf c.interval.toNat (init.headD last) timestamp.toNat =
        windowOf c.interval.toNat (init.headD last) last := windowOf_of_lt positive lastMessage (by omega)
    refine ⟨interval, limited, by rw [same]; exact started, ?_⟩
    rw [countInWindow_append_self, counted, countInWindow_congr _ same]

/-- The rule read through the timestamps the topic had before the call. -/
theorem exceedsSpec_eq (conf : TTopicRateConf) (earlier : List (String × UInt64)) (topic : String)
    (timestamp : UInt64) :
    exceedsSpec conf earlier topic timestamp =
      match (conf.confFor topic).maxCount with
      | none => false
      | some maxCount => decide (maxCount < countInWindow (conf.confFor topic).interval.toNat
          ((timestampsOf topic earlier).headD timestamp.toNat) (timestampsOf topic earlier ++ [timestamp.toNat])
          timestamp.toNat) := by
  simp only [exceedsSpec, headD_append_singleton]

/-- With no `MaxCount` anywhere, no topic has a limit. -/
theorem confFor_maxCount_of_disabled {conf : TTopicRateConf} (disabled : rateLimitingIsEnabled conf = false)
    (topic : String) : (conf.confFor topic).maxCount = none := by
  simp only [rateLimitingIsEnabled, Bool.or_eq_false_iff, Option.isSome_eq_false_iff, Option.isNone_iff_eq_none,
    List.any_eq_false] at disabled
  obtain ⟨noDefault, noTopic⟩ := disabled
  unfold TTopicRateConf.confFor
  cases found : conf.topicConfigs.lookup topic with
  | none => exact noDefault
  | some c =>
      obtain ⟨before, after, split, -⟩ := List.lookup_eq_some_iff.mp found
      have member : (topic, c) ∈ conf.topicConfigs := by simp [split]
      simpa using noTopic (topic, c) member

/-- The limiter after the calls `earlier`: its config, whether it is
enabled, no state for a topic not seen, and, once enabled, for each topic
seen a state that tracks its timestamps. -/
structure Tracks (conf : TTopicRateConf) (earlier : List (String × UInt64)) (limiter : TMsgRateLimiter) :
    Prop where
  conf_eq : limiter.conf = conf
  isEnabled_eq : limiter.isEnabled = rateLimitingIsEnabled conf
  unseen : ∀ topic, timestampsOf topic earlier = [] → limiter.topicStateMap topic = none
  seen : limiter.isEnabled = true → ∀ topic init last, timestampsOf topic earlier = init ++ [last] →
    ∃ state, limiter.topicStateMap topic = some state ∧ TopicTracks (conf.confFor topic) init last state

theorem create_tracks (conf : TTopicRateConf) : Tracks conf [] (create conf) where
  conf_eq := rfl
  isEnabled_eq := rfl
  unseen _ _ := rfl
  seen _ _ init last none := by simp at none

section Step

variable {conf : TTopicRateConf} {earlier : List (String × UInt64)} {limiter : TMsgRateLimiter}

/-- A call leaves unseen the topics it is not of. -/
theorem unseen_of_append {topic other : String} {timestamp : UInt64}
    (none : timestampsOf other (earlier ++ [(topic, timestamp)]) = []) :
    other ≠ topic ∧ timestampsOf other earlier = [] := by
  by_cases same : other = topic
  · subst same
    simp at none
  · exact ⟨same, by rwa [timestampsOf_append_other _ _ _ same] at none⟩

/-- Storing, for the topic of a call, a state that tracks its timestamps
with the call's keeps the limiter tracking. -/
theorem Tracks.store (tracks : Tracks conf earlier limiter) {topic : String} {timestamp : UInt64}
    {state : TTopicState} (tracksNew : TopicTracks (conf.confFor topic) (timestampsOf topic earlier) timestamp.toNat state) :
    Tracks conf (earlier ++ [(topic, timestamp)])
      { limiter with topicStateMap := Function.update limiter.topicStateMap topic (some state) } where
  conf_eq := tracks.conf_eq
  isEnabled_eq := tracks.isEnabled_eq
  unseen other none := by
    obtain ⟨different, before⟩ := unseen_of_append none
    simp only [Function.update_of_ne different]
    exact tracks.unseen other before
  seen enabled other init last seenNow := by
    by_cases same : other = topic
    · -- the topic of the call: the stored state
      subst same
      rw [timestampsOf_append_self] at seenNow
      obtain ⟨rfl, lastIs⟩ := List.append_inj' seenNow rfl
      cases (List.singleton_inj.mp lastIs)
      exact ⟨state, by simp, tracksNew⟩
    · rw [timestampsOf_append_other _ _ _ same] at seenNow
      simp only [Function.update_of_ne same]
      exact tracks.seen enabled other init last seenNow

/-- One call: the answer is the rule's, and the limiter keeps tracking. -/
theorem wouldExceedLimit_tracks (tracks : Tracks conf earlier limiter) {topic : String} {timestamp : UInt64}
    (sorted : (timestampsOf topic (earlier ++ [(topic, timestamp)])).Pairwise (· ≤ ·))
    (positive : (conf.confFor topic).maxCount ≠ none → 0 < (conf.confFor topic).interval.toNat)
    (below : (conf.confFor topic).maxCount ≠ none → timestamp.toNat + (conf.confFor topic).interval.toNat < 2 ^ 64) :
    (limiter.wouldExceedLimit topic timestamp).1 = exceedsSpec conf earlier topic timestamp ∧
      Tracks conf (earlier ++ [(topic, timestamp)]) (limiter.wouldExceedLimit topic timestamp).2 := by
  by_cases enabled : limiter.isEnabled = true
  · -- the topic's state, found or new, tracks its timestamps with this one
    have tracksNew : TopicTracks (conf.confFor topic) (timestampsOf topic earlier) timestamp.toNat
        { limiter.getTopicState topic timestamp with count := (limiter.getTopicState topic timestamp).count + 1 } := by
      rcases List.eq_nil_or_concat (timestampsOf topic earlier) with unseen | ⟨init, last, seenBefore⟩
      · rw [getTopicState, tracks.unseen topic unseen, tracks.conf_eq, unseen]
        exact newTopicState_tracks _ _
      · rw [List.concat_eq_append] at seenBefore
        obtain ⟨state, found, tracksOld⟩ := tracks.seen enabled topic init last seenBefore
        rw [timestampsOf_append_self, seenBefore] at sorted
        rw [getTopicState, found, seenBefore]
        exact advanceWindow_tracks tracksOld sorted positive below
    unfold wouldExceedLimit
    rw [if_neg (by simp [enabled])]
    exact ⟨(answer_of_tracks tracksNew).trans (exceedsSpec_eq conf earlier topic timestamp).symm,
      tracks.store tracksNew⟩
  · -- disabled: no topic has a limit, and nothing changes
    have disabled : rateLimitingIsEnabled conf = false := by
      rw [← tracks.isEnabled_eq]
      simpa using enabled
    unfold wouldExceedLimit
    rw [if_pos (by simpa using enabled)]
    refine ⟨by simp [exceedsSpec, confFor_maxCount_of_disabled disabled], ?_⟩
    exact { conf_eq := tracks.conf_eq, isEnabled_eq := tracks.isEnabled_eq,
            unseen := fun other none => tracks.unseen other (unseen_of_append none).2,
            seen := fun isOn => absurd isOn enabled }

end Step

theorem timestampsOf_append (topic : String) (earlier later : List (String × UInt64)) :
    timestampsOf topic (earlier ++ later) = timestampsOf topic earlier ++ timestampsOf topic later := by
  simp [timestampsOf, List.filter_append]

section Run

variable {conf : TTopicRateConf}

/-- From any limiter that tracks the calls before, a run answers each call
as the rule does. -/
theorem run_tracks (positive : ∀ topic, (conf.confFor topic).maxCount ≠ none → 0 < (conf.confFor topic).interval.toNat)
    (calls : List (String × UInt64)) {earlier : List (String × UInt64)} {limiter : TMsgRateLimiter}
    (tracks : Tracks conf earlier limiter)
    (sorted : ∀ topic, (timestampsOf topic (earlier ++ calls)).Pairwise (· ≤ ·))
    (below : ∀ call ∈ calls, (conf.confFor call.1).maxCount ≠ none →
      call.2.toNat + (conf.confFor call.1).interval.toNat < 2 ^ 64) :
    (limiter.run calls).1 = specAnswers conf earlier calls := by
  induction calls generalizing earlier limiter with
  | nil => rfl
  | cons call calls inductionHypothesis =>
      obtain ⟨topic, timestamp⟩ := call
      -- the timestamps up to this call are a prefix of all of them
      have sortedNow : (timestampsOf topic (earlier ++ [(topic, timestamp)])).Pairwise (· ≤ ·) := by
        have all := sorted topic
        rw [show earlier ++ (topic, timestamp) :: calls = earlier ++ [(topic, timestamp)] ++ calls by simp,
          timestampsOf_append] at all
        exact List.Pairwise.sublist (List.sublist_append_left _ _) all
      obtain ⟨answered, tracksNext⟩ := wouldExceedLimit_tracks tracks sortedNow (positive topic)
        (below (topic, timestamp) (by simp))
      simp only [run, specAnswers, answered]
      rw [inductionHypothesis tracksNext (by simpa using sorted)
        (fun call member => below call (List.mem_cons_of_mem _ member))]

/-- The limiter answers every call of a run as the fixed-window rule does,
when limited topics have positive intervals (as the config builder
ensures), the timestamps of each topic do not decrease, and those of a
limited topic stay its interval below `2^64`. -/
theorem run_eq_specAnswers (conf : TTopicRateConf)
    (positive : ∀ topic, (conf.confFor topic).maxCount ≠ none → 0 < (conf.confFor topic).interval.toNat)
    (calls : List (String × UInt64)) (sorted : ∀ topic, (timestampsOf topic calls).Pairwise (· ≤ ·))
    (below : ∀ call ∈ calls, (conf.confFor call.1).maxCount ≠ none →
      call.2.toNat + (conf.confFor call.1).interval.toNat < 2 ^ 64) :
    ((create conf).run calls).1 = specAnswers conf [] calls :=
  run_tracks positive calls (create_tracks conf) (by simpa using sorted) below

end Run

/-- Every topic limited to one message per 10 ms. -/
def oneMsgConf : TTopicRateConf :=
  { defaultTopicConfig := { interval := 10, maxCount := some 1 }, topicConfigs := [] }

/-- Two messages of one topic 1 ms apart, 5 ms below `2^64`. -/
def topCalls : List (String × UInt64) :=
  [("t", 18446744073709551611), ("t", 18446744073709551612)]

theorem run_eq_specAnswers_oneMsgConf :
    ((create oneMsgConf).run [("t", 0), ("t", 5), ("t", 12)]).1 =
      specAnswers oneMsgConf [] [("t", 0), ("t", 5), ("t", 12)] :=
  run_eq_specAnswers oneMsgConf (fun topic _ => by simp [oneMsgConf, TTopicRateConf.confFor]) _
    (fun topic => by
      by_cases same : topic = "t"
      · simp [timestampsOf, same]
      · simp [timestampsOf, Ne.symm same])
    (fun call member _ => by simp at member; rcases member with rfl | rfl | rfl <;> decide)

/-- Near the top of the `uint64_t` range the window's end wraps: the second
message, in the window of the first, restarts the count and is let through
where the rule refuses it. -/
theorem run_overflows_at_top :
    ((create oneMsgConf).run topCalls).1 = [false, false] ∧ specAnswers oneMsgConf [] topCalls = [false, true] := by
  decide

end TMsgRateLimiter

end Dory
