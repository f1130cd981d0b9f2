/-
Module: Dory.AnomalyTracker
Purpose: `TAnomalyTracker` (src/dory/anomaly_tracker.{h,cc}): the reports of
  discarded and possibly duplicated messages.  Every tracking call and
  `GetInfo` first advances the report period from the clock reading
  (`AdvanceReportPeriod`), and a tracking call then records its anomaly in
  the filling report: a topic's count and earliest and latest timestamps
  (`UpdateTopicMap`), an item in a bounded list of the most recent distinct
  ones (`UpdateLruList`), or a count.  The clock is the reading each call
  passes; the discard file logger only writes files and is left out; release
  builds define `NDEBUG`, so the asserts are not checked.  `TPeriod` is the
  abstract side: the latest clock reading so far and the calls of its report
  period.  Over any run with a positive report interval, whatever the clock
  readings, the filling report is that period, numbered and timed from the
  constructor's reading, the last full report is the one before it, and the
  filling report holds exactly what the calls of the period recorded.
Trusted boundary: none
Main exports: TAnomalyTracker, TInfo, TTrackCall, updateTopicMap, updateLruList,
  TAnomalyTracker.advanceReportPeriod, TAnomalyTracker.run, TPeriod, ReportSpec,
  anomalyTracker_reports
-/
import Mathlib
import Dory.Foundation.Recency
import Dory.Msg

namespace Dory

open Dory.Foundation

/-! ### Topic maps and bounded lists -/

/-- `TInterval`: the earliest and the latest timestamp of a topic's
anomalies. -/
structure TInterval where
  first : TTimestamp
  last : TTimestamp
deriving DecidableEq, Repr

/-- `TTopicInfo`: the interval and the number of anomalies. -/
structure TTopicInfo where
  interval : TInterval
  count : Nat := 1
deriving DecidableEq, Repr

namespace TTopicInfo

/-- `TTopicInfo(initial)`: one anomaly. -/
def create (initial : TTimestamp) : TTopicInfo := { interval := ⟨initial, initial⟩ }

/-- What `UpdateTopicMap` does to the entry of a known topic: one more
anomaly, and the first or the last timestamp moved out to this one. -/
def add (info : TTopicInfo) (timestamp : TTimestamp) : TTopicInfo :=
  let interval :=
    if timestamp < info.interval.first then { info.interval with first := timestamp }
    else if info.interval.last < timestamp then { info.interval with last := timestamp }
    else info.interval
  { interval, count := info.count + 1 }

end TTopicInfo

/-- `UpdateTopicMap(topic_map, topic, timestamp)`: the `insert` of an entry
for one anomaly, or the entry already there updated. -/
def updateTopicMap (topicMap : String → Option TTopicInfo) (topic : String) (timestamp : TTimestamp) :
    String → Option TTopicInfo :=
  match topicMap topic with
  | none => Function.update topicMap topic (some (TTopicInfo.create timestamp))
  | some info => Function.update topicMap topic (some (info.add timestamp))

/-- `map[key]` counted up, from 1 for a new key: the rate limit discards of a
topic, and the messages of an unsupported version. -/
def countUp {κ : Type} [DecidableEq κ] (counts : κ → Option Nat) (key : κ) : κ → Option Nat :=
  Function.update counts key (some ((counts key).getD 0 + 1))

/-- `UpdateLruList(s, lru_list, max_list_size)`: an item in the list is
spliced to its front; another is pushed to the front, and the last item
popped when the list is then too long. -/
def updateLruList {α : Type} [DecidableEq α] (s : α) (lruList : List α) (maxListSize : Nat) : List α :=
  if s ∈ lruList then s :: lruList.erase s
  else
    let lruList := s :: lruList
    if lruList.length > maxListSize then lruList.dropLast else lruList

/-! ### Reports and calls -/

/-- `TInfo`: one report, its ID and start time and what it tracks. -/
structure TInfo where
  reportId : UInt64 := 0
  startTime : UInt64 := 0
  discardTopicMap : String → Option TTopicInfo := fun _ => none
  duplicateTopicMap : String → Option TTopicInfo := fun _ => none
  rateLimitDiscardMap : String → Option Nat := fun _ => none
  malformedMsgs : List (List UInt8) := []
  unixStreamUncleanDisconnectMsgs : List (List UInt8) := []
  tcpUncleanDisconnectMsgs : List (List UInt8) := []
  unsupportedVersionMsgs : Int → Option Nat := fun _ => none
  longMsgs : List (List UInt8) := []
  badTopics : List String := []
  malformedMsgCount : Nat := 0
  unixStreamUncleanDisconnectCount : Nat := 0
  tcpUncleanDisconnectCount : Nat := 0
  unsupportedApiKeyMsgCount : Nat := 0
  unsupportedVersionMsgCount : Nat := 0
  badTopicMsgCount : Nat := 0

/-- `TInfo(report_id, start_time)`: an empty report. -/
def TInfo.create (reportId startTime : UInt64) : TInfo := { reportId, startTime }

/-- `TDiscardFileLogger::TDiscardReason`. -/
inductive TDiscardReason where
  | bug
  | failedDeliveryAttemptLimit
  | kafkaErrorAck
  | serverShutdown
  | noAvailablePartitions
  | rateLimit
  | failedTopicAutocreate
deriving DecidableEq, Repr

/-- A call on the tracker: each tracking method with what the reports read
of its arguments (the key and value of `TrackNoMemDiscard` and
`TrackBadTopicDiscard` go only to the logger), and `GetInfo`.  Both
overloads of `TrackBadTopicDiscard` record the topic. -/
inductive TTrackCall where
  | trackDiscard (msg : TMsg) (reason : TDiscardReason)
  | trackDuplicate (msg : TMsg)
  | trackNoMemDiscard (timestamp : TTimestamp) (topic : String)
  | trackMalformedMsgDiscard (msgPrefix : List UInt8)
  | trackStreamClientUncleanDisconnect (isTcp : Bool) (msgPrefix : List UInt8)
  | trackUnsupportedApiKeyDiscard
  | trackUnsupportedMsgVersionDiscard (version : Int)
  | trackBadTopicDiscard (topic : String)
  | trackLongMsgDiscard (msg : TMsg) (value : List UInt8)
  | getInfo
deriving DecidableEq, Repr

/-- `MAX_BAD_TOPICS`. -/
def maxBadTopics : Nat := 25

/-- `MAX_MALFORMED_MSGS`. -/
def maxMalformedMsgs : Nat := 25

/-- `MAX_UNCLEAN_DISCONNECT_MSGS`. -/
def maxUncleanDisconnectMsgs : Nat := 25

/-- `MAX_LONG_MSGS`. -/
def maxLongMsgs : Nat := 25

/-- `EnforceMaxPrefixLen(msg_begin, msg_end)`: at most `MaxMsgPrefixLen`
bytes. -/
def enforceMaxPrefixLen (maxMsgPrefixLen : Nat) (msg : List UInt8) : List UInt8 :=
  msg.take maxMsgPrefixLen

/-- The prefix `TrackLongMsgDiscard` keeps: the topic, a space and the
value. -/
def longMsgPrefix (maxMsgPrefixLen : Nat) (msg : TMsg) (value : List UInt8) : List UInt8 :=
  enforceMaxPrefixLen maxMsgPrefixLen (msg.topic.toUTF8.toList ++ [32] ++ value)

namespace TInfo

/-- What a call records in the filling report once the period is advanced. -/
def record (maxMsgPrefixLen : Nat) (info : TInfo) : TTrackCall → TInfo
  | .trackDiscard msg reason =>
      let info := { info with discardTopicMap := updateTopicMap info.discardTopicMap msg.topic msg.timestamp }
      if reason = .rateLimit then { info with rateLimitDiscardMap := countUp info.rateLimitDiscardMap msg.topic }
      else info
  | .trackDuplicate msg =>
      { info with duplicateTopicMap := updateTopicMap info.duplicateTopicMap msg.topic msg.timestamp }
  | .trackNoMemDiscard timestamp topic =>
      { info with discardTopicMap := updateTopicMap info.discardTopicMap topic timestamp }
  | .trackMalformedMsgDiscard msgPrefix =>
      { info with
        malformedMsgCount := info.malformedMsgCount + 1
        malformedMsgs :=
          updateLruList (enforceMaxPrefixLen maxMsgPrefixLen msgPrefix) info.malformedMsgs maxMalformedMsgs }
  | .trackStreamClientUncleanDisconnect isTcp msgPrefix =>
      if isTcp then
        { info with
          tcpUncleanDisconnectCount := info.tcpUncleanDisconnectCount + 1
          tcpUncleanDisconnectMsgs := updateLruList (enforceMaxPrefixLen maxMsgPrefixLen msgPrefix)
            info.tcpUncleanDisconnectMsgs maxUncleanDisconnectMsgs }
      else
        { info with
          unixStreamUncleanDisconnectCount := info.unixStreamUncleanDisconnectCount + 1
          unixStreamUncleanDisconnectMsgs := updateLruList (enforceMaxPrefixLen maxMsgPrefixLen msgPrefix)
            info.unixStreamUncleanDisconnectMsgs maxUncleanDisconnectMsgs }
  | .trackUnsupportedApiKeyDiscard =>
      { info with unsupportedApiKeyMsgCount := info.unsupportedApiKeyMsgCount + 1 }
  | .trackUnsupportedMsgVersionDiscard version =>
      { info with
        unsupportedVersionMsgCount := info.unsupportedVersionMsgCount + 1
        unsupportedVersionMsgs := countUp info.unsupportedVersionMsgs version }
  | .trackBadTopicDiscard topic =>
      { info with
        badTopicMsgCount := info.badTopicMsgCount + 1
        badTopics := updateLruList topic info.badTopics maxBadTopics }
  | .trackLongMsgDiscard msg value =>
      { info with
        longMsgs := updateLruList (longMsgPrefix maxMsgPrefixLen msg value) info.longMsgs maxLongMsgs
        discardTopicMap := updateTopicMap info.discardTopicMap msg.topic msg.timestamp }
  | .getInfo => info

end TInfo

/-! ### The tracker -/

/-- `TAnomalyTracker`: `ReportInterval`, `MaxMsgPrefixLen`,
`LastGetInfoTime`, and the two reports. -/
structure TAnomalyTracker where
  reportInterval : UInt64
  maxMsgPrefixLen : Nat
  lastGetInfoTime : UInt64
  lastFullReport : Option TInfo
  fillingReport : TInfo

namespace TAnomalyTracker

/-- `TAnomalyTracker(discard_file_logger, report_interval,
max_msg_prefix_len, clock_fn)`, with `now` the clock's reading: the first
report starts then. -/
def create (reportInterval : UInt64) (maxMsgPrefixLen : Nat) (now : UInt64) : TAnomalyTracker :=
  { reportInterval, maxMsgPrefixLen, lastGetInfoTime := now, lastFullReport := none,
    fillingReport := TInfo.create 0 now }

/-- `AdvanceReportPeriod(now)`: the number of whole intervals from the
filling report's start to `now` (none when the clock went back); one moves
the filling report to the last full one, more replace both with empty
reports of the last two periods. -/
def advanceReportPeriod (tracker : TAnomalyTracker) (now : UInt64) : TAnomalyTracker :=
  if tracker.reportInterval = 0 then tracker
  else
    let currentId := tracker.fillingReport.reportId
    let currentStart := tracker.fillingReport.startTime
    let nowOffset := if now ≥ currentStart then now - currentStart else 0
    let periodOffset := nowOffset / tracker.reportInterval
    if periodOffset = 0 then tracker
    else if periodOffset = 1 then
      { tracker with
        lastFullReport := some tracker.fillingReport
        fillingReport := TInfo.create (currentId + 1) (currentStart + tracker.reportInterval) }
    else
      let prevPeriodOffset := periodOffset - 1
      let prevId := currentId + prevPeriodOffset
      let prevStart := currentStart + prevPeriodOffset * tracker.reportInterval
      { tracker with
        lastFullReport := some (TInfo.create prevId prevStart)
        fillingReport := TInfo.create (prevId + 1) (prevStart + tracker.reportInterval) }

/-- `GetInfo(filling_report_copy)`: the filling report and the last full
one, after the period is advanced. -/
def getInfo (tracker : TAnomalyTracker) (now : UInt64) : (TInfo × Option TInfo) × TAnomalyTracker :=
  let tracker := { tracker with lastGetInfoTime := now }
  let tracker := tracker.advanceReportPeriod now
  ((tracker.fillingReport, tracker.lastFullReport), tracker)

/-- `CheckGetInfoRate()`: whether more than a report interval passed since
the last `GetInfo`, which the source counts and logs. -/
def checkGetInfoRate (tracker : TAnomalyTracker) (now : UInt64) : Bool :=
  let delta := if now ≥ tracker.lastGetInfoTime then now - tracker.lastGetInfoTime else 0
  delta > tracker.reportInterval

/-- One call at clock reading `now`. -/
def step (tracker : TAnomalyTracker) (now : UInt64) (call : TTrackCall) : TAnomalyTracker :=
  match call with
  | .getInfo => (tracker.getInfo now).2
  | call =>
      let tracker := tracker.advanceReportPeriod now
      { tracker with fillingReport := tracker.fillingReport.record tracker.maxMsgPrefixLen call }

/-- Calls one after the other, each at its clock reading. -/
def run (tracker : TAnomalyTracker) (trace : List (UInt64 × TTrackCall)) : TAnomalyTracker :=
  trace.foldl (fun tracker reading => tracker.step reading.1 reading.2) tracker

end TAnomalyTracker

/-! ### What the topic maps hold -/

/-- The timestamps recorded for a topic, in order. -/
def stampsOf (entries : List (String × TTimestamp)) (topic : String) : List TTimestamp :=
  (entries.filter fun entry => entry.1 = topic).map Prod.snd

theorem stampsOf_append_self (entries : List (String × TTimestamp)) (topic : String) (timestamp : TTimestamp) :
    stampsOf (entries ++ [(topic, timestamp)]) topic = stampsOf entries topic ++ [timestamp] := by
  simp [stampsOf]

theorem stampsOf_append_other (entries : List (String × TTimestamp)) {topic other : String} (different : other ≠ topic)
    (timestamp : TTimestamp) : stampsOf (entries ++ [(topic, timestamp)]) other = stampsOf entries other := by
  simp [stampsOf, Ne.symm different]

/-- A topic's entry counts its timestamps, and its interval runs from the
earliest of them to the latest. -/
structure Summarizes (info : TTopicInfo) (stamps : List TTimestamp) : Prop where
  count : info.count = stamps.length
  firstMem : info.interval.first ∈ stamps
  lastMem : info.interval.last ∈ stamps
  bounds : ∀ stamp ∈ stamps, info.interval.first.toInt ≤ stamp.toInt ∧ stamp.toInt ≤ info.interval.last.toInt

namespace Summarizes

theorem create (timestamp : TTimestamp) : Summarizes (TTopicInfo.create timestamp) [timestamp] :=
  ⟨rfl, by simp [TTopicInfo.create], by simp [TTopicInfo.create], by simp [TTopicInfo.create]⟩

/-- One more timestamp.  The `else if` of `UpdateTopicMap` does not look at
the last timestamp when this one is before the first: that is right since
the first is never after the last. -/
theorem add {info : TTopicInfo} {stamps : List TTimestamp} (summarizes : Summarizes info stamps)
    (timestamp : TTimestamp) : Summarizes (info.add timestamp) (stamps ++ [timestamp]) := by
  have ordered := (summarizes.bounds _ summarizes.firstMem).2
  have count : (info.add timestamp).count = (stamps ++ [timestamp]).length := by
    simp [TTopicInfo.add, summarizes.count]
  by_cases earlier : timestamp < info.interval.first
  · -- a new first timestamp
    have below := Int64.lt_iff_toInt_lt.mp earlier
    refine ⟨count, by simp [TTopicInfo.add, earlier], by simp [TTopicInfo.add, earlier, summarizes.lastMem], ?_⟩
    intro stamp member
    rcases List.mem_append.mp member with old | new
    · have := summarizes.bounds stamp old
      simp only [TTopicInfo.add, if_pos earlier]
      omega
    · rw [List.mem_singleton.mp new]
      simp only [TTopicInfo.add, if_pos earlier]
      omega
  · have notBelow : info.interval.first.toInt ≤ timestamp.toInt :=
      Int.not_lt.mp (mt Int64.lt_iff_toInt_lt.mpr earlier)
    by_cases later : info.interval.last < timestamp
    · -- a new last timestamp
      have above := Int64.lt_iff_toInt_lt.mp later
      refine ⟨count, by simp [TTopicInfo.add, earlier, later, summarizes.firstMem],
        by simp [TTopicInfo.add, earlier, later], ?_⟩
      intro stamp member
      rcases List.mem_append.mp member with old | new
      · have := summarizes.bounds stamp old
        simp only [TTopicInfo.add, if_neg earlier, if_pos later]
        omega
      · rw [List.mem_singleton.mp new]
        simp only [TTopicInfo.add, if_neg earlier, if_pos later]
        omega
    · -- inside the interval
      have notAbove : timestamp.toInt ≤ info.interval.last.toInt :=
        Int.not_lt.mp (mt Int64.lt_iff_toInt_lt.mpr later)
      refine ⟨count, by simp [TTopicInfo.add, earlier, later, summarizes.firstMem],
        by simp [TTopicInfo.add, earlier, later, summarizes.lastMem], ?_⟩
      intro stamp member
      rcases List.mem_append.mp member with old | new
      · simpa [TTopicInfo.add, earlier, later] using summarizes.bounds stamp old
      · rw [List.mem_singleton.mp new]
        simp only [TTopicInfo.add, if_neg earlier, if_neg later]
        exact ⟨notBelow, notAbove⟩

end Summarizes

/-- A topic map that holds, for each topic, what its timestamps say, and
no entry for a topic without any. -/
structure MapSummarizes (topicMap : String → Option TTopicInfo) (entries : List (String × TTimestamp)) : Prop where
  absent : ∀ topic, topicMap topic = none → stampsOf entries topic = []
  present : ∀ topic info, topicMap topic = some info → Summarizes info (stampsOf entries topic)

namespace MapSummarizes

theorem empty : MapSummarizes (fun _ => none) [] :=
  ⟨fun _ _ => rfl, fun _ _ none => by cases none⟩

/-- `UpdateTopicMap` keeps the map what its timestamps say. -/
theorem update {topicMap : String → Option TTopicInfo} {entries : List (String × TTimestamp)}
    (summarizes : MapSummarizes topicMap entries) (topic : String) (timestamp : TTimestamp) :
    MapSummarizes (updateTopicMap topicMap topic timestamp) (entries ++ [(topic, timestamp)]) := by
  -- the entry of `topic` is the one that changes
  have updated : ∀ info, updateTopicMap topicMap topic timestamp topic = some info →
      Summarizes info (stampsOf entries topic ++ [timestamp]) := by
    intro info found
    unfold updateTopicMap at found
    cases known : topicMap topic with
    | none =>
        simp only [known, Function.update_self, Option.some.injEq] at found
        rw [summarizes.absent topic known, ← found]
        exact Summarizes.create timestamp
    | some old =>
        simp only [known, Function.update_self, Option.some.injEq] at found
        rw [← found]
        exact (summarizes.present topic old known).add timestamp
  have listed : updateTopicMap topicMap topic timestamp topic ≠ none := by
    unfold updateTopicMap
    cases topicMap topic <;> simp
  have unchanged : ∀ other, other ≠ topic → updateTopicMap topicMap topic timestamp other = topicMap other := by
    intro other different
    unfold updateTopicMap
    cases topicMap topic with
    | none => exact Function.update_of_ne different _ _
    | some info => exact Function.update_of_ne different _ _
  constructor
  · intro other none
    by_cases same : other = topic
    · subst same
      exact absurd none listed
    · rw [unchanged other same] at none
      rw [stampsOf_append_other _ same, summarizes.absent other none]
  · intro other info found
    by_cases same : other = topic
    · subst same
      rw [stampsOf_append_self]
      exact updated info found
    · rw [unchanged other same] at found
      rw [stampsOf_append_other _ same]
      exact summarizes.present other info found

end MapSummarizes

/-- The topic map of `UpdateTopicMap` over entries, from an empty map, is
what the entries say. -/
theorem mapSummarizes_foldl (entries : List (String × TTimestamp)) :
    MapSummarizes (entries.foldl (fun topicMap entry => updateTopicMap topicMap entry.1 entry.2) fun _ => none)
      entries := by
  -- induction on the entries, from any map that summarizes those before
  suffices grown : ∀ (topicMap : String → Option TTopicInfo) (before : List (String × TTimestamp)),
      MapSummarizes topicMap before →
      MapSummarizes (entries.foldl (fun topicMap entry => updateTopicMap topicMap entry.1 entry.2) topicMap)
        (before ++ entries) by
    simpa using grown _ [] MapSummarizes.empty
  induction entries with
  | nil => simp
  | cons entry rest ih =>
      intro topicMap before summarizes
      have step := summarizes.update entry.1 entry.2
      rw [List.foldl_cons]
      simpa using ih _ _ step

/-! ### What the bounded lists hold -/

section Lru

variable {α : Type} [DecidableEq α]

/-- `UpdateLruList` keeps the list the first `bound` items of the recency
order. -/
theorem updateLruList_take_recency (items : List α) (s : α) (bound : Nat) :
    updateLruList s ((recency items).take bound) bound = (recency (items ++ [s])).take bound := by
  unfold updateLruList
  by_cases found : s ∈ (recency items).take bound
  · rw [if_pos found, take_recency_append_of_mem found]
  · rw [if_neg found, take_recency_append_of_not_mem found]
    dsimp only
    split
    · -- one too many: the last goes
      rename_i longer
      simp only [List.length_cons, List.length_take] at longer
      rw [List.dropLast_eq_take]
      congr 1
      simp only [List.length_cons, List.length_take]
      omega
    · rename_i fits
      exact (List.take_of_length_le (Nat.le_of_not_lt fits)).symm

/-- From an empty list, `UpdateLruList` over items gives the first `bound`
items of their recency order. -/
theorem foldl_updateLruList (bound : Nat) (items : List α) :
    items.foldl (fun lruList s => updateLruList s lruList bound) [] = (recency items).take bound := by
  suffices grown : ∀ before : List α,
      items.foldl (fun lruList s => updateLruList s lruList bound) ((recency before).take bound) =
        (recency (before ++ items)).take bound by
    simpa using grown []
  induction items with
  | nil => simp
  | cons item rest ih =>
      intro before
      rw [List.foldl_cons, updateLruList_take_recency, ih, List.append_assoc, List.singleton_append]

end Lru

/-! ### What each call records -/

/-- The (topic, timestamp) a call records among the discards. -/
def discardEntries : TTrackCall → List (String × TTimestamp)
  | .trackDiscard msg _ => [(msg.topic, msg.timestamp)]
  | .trackNoMemDiscard timestamp topic => [(topic, timestamp)]
  | .trackLongMsgDiscard msg _ => [(msg.topic, msg.timestamp)]
  | _ => []

/-- The (topic, timestamp) a call records among the possible duplicates. -/
def duplicateEntries : TTrackCall → List (String × TTimestamp)
  | .trackDuplicate msg => [(msg.topic, msg.timestamp)]
  | _ => []

/-- The malformed message prefix a call records. -/
def malformedItems (maxMsgPrefixLen : Nat) : TTrackCall → List (List UInt8)
  | .trackMalformedMsgDiscard msgPrefix => [enforceMaxPrefixLen maxMsgPrefixLen msgPrefix]
  | _ => []

/-- The prefix left by an unclean disconnect of a TCP client (`tcp`) or of a
UNIX stream client that a call records. -/
def uncleanItems (maxMsgPrefixLen : Nat) (tcp : Bool) : TTrackCall → List (List UInt8)
  | .trackStreamClientUncleanDisconnect isTcp msgPrefix =>
      if isTcp = tcp then [enforceMaxPrefixLen maxMsgPrefixLen msgPrefix] else []
  | _ => []

/-- The bad topic a call records. -/
def badTopicItems : TTrackCall → List String
  | .trackBadTopicDiscard topic => [topic]
  | _ => []

/-- The prefix of a too long message a call records. -/
def longMsgItems (maxMsgPrefixLen : Nat) : TTrackCall → List (List UInt8)
  | .trackLongMsgDiscard msg value => [longMsgPrefix maxMsgPrefixLen msg value]
  | _ => []

namespace TInfo

variable (maxMsgPrefixLen : Nat)

/-- A part of the report that each call changes by folding what it records
into it is, after the calls, everything they record folded in. -/
theorem foldl_record_field {β γ : Type} (field : TInfo → β) (recorded : TTrackCall → List γ) (f : β → γ → β)
    (change : ∀ info call, field (info.record maxMsgPrefixLen call) = (recorded call).foldl f (field info))
    (calls : List TTrackCall) (info : TInfo) :
    field (calls.foldl (record maxMsgPrefixLen) info) = (calls.flatMap recorded).foldl f (field info) := by
  induction calls generalizing info with
  | nil => rfl
  | cons call rest ih => rw [List.foldl_cons, ih, change, List.flatMap_cons, List.foldl_append]

theorem reportId_record (info : TInfo) (call : TTrackCall) :
    (info.record maxMsgPrefixLen call).reportId = info.reportId := by
  cases call with
  | trackDiscard msg reason => simp only [record]; split <;> rfl
  | trackStreamClientUncleanDisconnect isTcp msgPrefix => cases isTcp <;> rfl
  | _ => rfl

theorem startTime_record (info : TInfo) (call : TTrackCall) :
    (info.record maxMsgPrefixLen call).startTime = info.startTime := by
  cases call with
  | trackDiscard msg reason => simp only [record]; split <;> rfl
  | trackStreamClientUncleanDisconnect isTcp msgPrefix => cases isTcp <;> rfl
  | _ => rfl

theorem discardTopicMap_record (info : TInfo) (call : TTrackCall) :
    (info.record maxMsgPrefixLen call).discardTopicMap =
      (discardEntries call).foldl (fun topicMap entry => updateTopicMap topicMap entry.1 entry.2)
        info.discardTopicMap := by
  cases call with
  | trackDiscard msg reason => simp only [record]; split <;> rfl
  | trackStreamClientUncleanDisconnect isTcp msgPrefix => cases isTcp <;> rfl
  | _ => rfl

theorem duplicateTopicMap_record (info : TInfo) (call : TTrackCall) :
    (info.record maxMsgPrefixLen call).duplicateTopicMap =
      (duplicateEntries call).foldl (fun topicMap entry => updateTopicMap topicMap entry.1 entry.2)
        info.duplicateTopicMap := by
  cases call with
  | trackDiscard msg reason => simp only [record]; split <;> rfl
  | trackStreamClientUncleanDisconnect isTcp msgPrefix => cases isTcp <;> rfl
  | _ => rfl

theorem malformedMsgs_record (info : TInfo) (call : TTrackCall) :
    (info.record maxMsgPrefixLen call).malformedMsgs =
      (malformedItems maxMsgPrefixLen call).foldl (fun lruList s => updateLruList s lruList maxMalformedMsgs)
        info.malformedMsgs := by
  cases call with
  | trackDiscard msg reason => simp only [record]; split <;> rfl
  | trackStreamClientUncleanDisconnect isTcp msgPrefix => cases isTcp <;> rfl
  | _ => rfl

theorem uncleanMsgs_record (info : TInfo) (call : TTrackCall) :
    (info.record maxMsgPrefixLen call).tcpUncleanDisconnectMsgs =
        (uncleanItems maxMsgPrefixLen true call).foldl
          (fun lruList s => updateLruList s lruList maxUncleanDisconnectMsgs) info.tcpUncleanDisconnectMsgs ∧
      (info.record maxMsgPrefixLen call).unixStreamUncleanDisconnectMsgs =
        (uncleanItems maxMsgPrefixLen false call).foldl
          (fun lruList s => updateLruList s lruList maxUncleanDisconnectMsgs) info.unixStreamUncleanDisconnectMsgs := by
  cases call with
  | trackDiscard msg reason => simp only [record]; split <;> exact ⟨rfl, rfl⟩
  | trackStreamClientUncleanDisconnect isTcp msgPrefix => cases isTcp <;> exact ⟨rfl, rfl⟩
  | _ => exact ⟨rfl, rfl⟩

theorem badTopics_record (info : TInfo) (call : TTrackCall) :
    (info.record maxMsgPrefixLen call).badTopics =
      (badTopicItems call).foldl (fun lruList s => updateLruList s lruList maxBadTopics) info.badTopics := by
  cases call with
  | trackDiscard msg reason => simp only [record]; split <;> rfl
  | trackStreamClientUncleanDisconnect isTcp msgPrefix => cases isTcp <;> rfl
  | _ => rfl

theorem longMsgs_record (info : TInfo) (call : TTrackCall) :
    (info.record maxMsgPrefixLen call).longMsgs =
      (longMsgItems maxMsgPrefixLen call).foldl (fun lruList s => updateLruList s lruList maxLongMsgs)
        info.longMsgs := by
  cases call with
  | trackDiscard msg reason => simp only [record]; split <;> rfl
  | trackStreamClientUncleanDisconnect isTcp msgPrefix => cases isTcp <;> rfl
  | _ => rfl

end TInfo

/-! ### Report periods -/

/-- The report period of a clock reading: the whole report intervals since
the constructor's reading `start`. -/
def periodIndex (start interval latest : Nat) : Nat := (latest - start) / interval

/-- The abstract side of the tracker: the latest clock reading so far, and
the calls of its report period, in order. -/
structure TPeriod where
  latest : Nat
  calls : List TTrackCall

namespace TPeriod

/-- Before any call: the constructor's reading. -/
def create (start : Nat) : TPeriod := ⟨start, []⟩

/-- A call at reading `now` joins the period of the latest reading, or
starts the next one when the latest reading moved on to a later period. -/
def step (start interval : Nat) (period : TPeriod) (now : Nat) (call : TTrackCall) : TPeriod :=
  let latest := max period.latest now
  if periodIndex start interval latest = periodIndex start interval period.latest then
    ⟨latest, period.calls ++ [call]⟩
  else ⟨latest, [call]⟩

/-- Calls one after the other, each at its clock reading. -/
def run (start interval : Nat) (trace : List (UInt64 × TTrackCall)) : TPeriod :=
  trace.foldl (fun period reading => period.step start interval reading.1.toNat reading.2) (create start)

end TPeriod

section Periods

variable {start interval latest : Nat}

/-- A reading lies in the interval of its period. -/
theorem periodIndex_bounds (positive : 0 < interval) (started : start ≤ latest) :
    start + periodIndex start interval latest * interval ≤ latest ∧
      latest < start + periodIndex start interval latest * interval + interval := by
  have low := Nat.div_mul_le_self (latest - start) interval
  have high := @Nat.lt_div_mul_add (latest - start) interval positive
  unfold periodIndex
  generalize (latest - start) / interval * interval = whole at low high
  omega

/-- A reading in the interval of period `k` is in period `k`. -/
theorem periodIndex_eq {k : Nat} (low : start + k * interval ≤ latest)
    (high : latest < start + k * interval + interval) : periodIndex start interval latest = k := by
  unfold periodIndex
  apply Nat.div_eq_of_lt_le
  · omega
  · rw [Nat.add_mul, Nat.one_mul]
    omega

end Periods

namespace TAnomalyTracker

/-! ### What `AdvanceReportPeriod` does -/

variable {tracker : TAnomalyTracker} {now : UInt64}

/-- The whole intervals from the start of the filling report to `now`, or
none when the clock went back. -/
theorem toNat_periodOffset (now currentStart interval : UInt64) :
    ((if now ≥ currentStart then now - currentStart else 0) / interval).toNat =
      (now.toNat - currentStart.toNat) / interval.toNat := by
  rw [UInt64.toNat_div]
  split
  · rename_i after
    rw [UInt64.toNat_sub_of_le _ _ after]
  · rename_i before
    have earlier : now.toNat ≤ currentStart.toNat := by
      have := mt UInt64.le_iff_toNat_le.mpr before
      omega
    rw [Nat.sub_eq_zero_of_le earlier]
    rfl

/-- Still in the filling report's period: nothing changes. -/
theorem advanceReportPeriod_of_same (positive : tracker.reportInterval ≠ 0)
    (same : (now.toNat - tracker.fillingReport.startTime.toNat) / tracker.reportInterval.toNat = 0) :
    tracker.advanceReportPeriod now = tracker := by
  have offset := toNat_periodOffset now tracker.fillingReport.startTime tracker.reportInterval
  unfold advanceReportPeriod
  rw [if_neg positive]
  dsimp only
  rw [if_pos (UInt64.toNat_inj.mp (by rw [offset, same]; rfl))]

/-- In the next period: the filling report becomes the last full one. -/
theorem advanceReportPeriod_of_next (positive : tracker.reportInterval ≠ 0)
    (next : (now.toNat - tracker.fillingReport.startTime.toNat) / tracker.reportInterval.toNat = 1) :
    tracker.advanceReportPeriod now =
      { tracker with
        lastFullReport := some tracker.fillingReport
        fillingReport := TInfo.create (tracker.fillingReport.reportId + 1)
          (tracker.fillingReport.startTime + tracker.reportInterval) } := by
  have offset := toNat_periodOffset now tracker.fillingReport.startTime tracker.reportInterval
  rw [next] at offset
  unfold advanceReportPeriod
  rw [if_neg positive]
  dsimp only
  rw [if_neg (fun zero => by rw [zero] at offset; cases offset),
    if_pos (UInt64.toNat_inj.mp (by rw [offset]; rfl))]

/-- Two periods on or more: both reports are replaced with empty ones, of
the period before the reading's and of the reading's. -/
theorem advanceReportPeriod_of_skip (positive : tracker.reportInterval ≠ 0)
    (skipped : 2 ≤ (now.toNat - tracker.fillingReport.startTime.toNat) / tracker.reportInterval.toNat) :
    ∃ periodOffset : UInt64,
      periodOffset.toNat = (now.toNat - tracker.fillingReport.startTime.toNat) / tracker.reportInterval.toNat ∧
      tracker.advanceReportPeriod now =
        { tracker with
          lastFullReport := some (TInfo.create (tracker.fillingReport.reportId + (periodOffset - 1))
            (tracker.fillingReport.startTime + (periodOffset - 1) * tracker.reportInterval))
          fillingReport := TInfo.create (tracker.fillingReport.reportId + (periodOffset - 1) + 1)
            (tracker.fillingReport.startTime + (periodOffset - 1) * tracker.reportInterval +
              tracker.reportInterval) } := by
  have offset := toNat_periodOffset now tracker.fillingReport.startTime tracker.reportInterval
  refine ⟨_, offset, ?_⟩
  unfold advanceReportPeriod
  rw [if_neg positive]
  dsimp only
  rw [if_neg (fun zero => by rw [zero] at offset; simp at offset; omega),
    if_neg (fun one => by rw [one] at offset; simp at offset; omega)]

theorem reportInterval_advanceReportPeriod :
    (tracker.advanceReportPeriod now).reportInterval = tracker.reportInterval := by
  unfold advanceReportPeriod
  dsimp only
  split_ifs <;> rfl

theorem maxMsgPrefixLen_advanceReportPeriod :
    (tracker.advanceReportPeriod now).maxMsgPrefixLen = tracker.maxMsgPrefixLen := by
  unfold advanceReportPeriod
  dsimp only
  split_ifs <;> rfl

/-- `AdvanceReportPeriod` does not read `LastGetInfoTime`. -/
theorem advanceReportPeriod_lastGetInfoTime (time : UInt64) :
    ({ tracker with lastGetInfoTime := time } : TAnomalyTracker).advanceReportPeriod now =
      { tracker.advanceReportPeriod now with lastGetInfoTime := time } := by
  unfold advanceReportPeriod
  dsimp only
  split_ifs <;> rfl

/-- A call advances the period and records its anomaly in the filling
report. -/
theorem step_reports (call : TTrackCall) :
    (tracker.step now call).fillingReport =
        (tracker.advanceReportPeriod now).fillingReport.record tracker.maxMsgPrefixLen call ∧
      (tracker.step now call).lastFullReport = (tracker.advanceReportPeriod now).lastFullReport ∧
      (tracker.step now call).reportInterval = tracker.reportInterval ∧
      (tracker.step now call).maxMsgPrefixLen = tracker.maxMsgPrefixLen := by
  cases call with
  | getInfo =>
      -- `GetInfo` records nothing
      simp [step, getInfo, advanceReportPeriod_lastGetInfoTime, reportInterval_advanceReportPeriod,
        maxMsgPrefixLen_advanceReportPeriod, TInfo.record]
  | _ => simp [step, reportInterval_advanceReportPeriod, maxMsgPrefixLen_advanceReportPeriod]

end TAnomalyTracker

/-! ### The tracker follows the periods -/

/-- Clock sums and products that stay below `2 ^ 64` do not wrap. -/
theorem toNat_add_of_lt {a b : UInt64} (fits : a.toNat + b.toNat < 2 ^ 64) : (a + b).toNat = a.toNat + b.toNat := by
  rw [UInt64.toNat_add, Nat.mod_eq_of_lt fits]

theorem toNat_mul_of_lt {a b : UInt64} (fits : a.toNat * b.toNat < 2 ^ 64) : (a * b).toNat = a.toNat * b.toNat := by
  rw [UInt64.toNat_mul, Nat.mod_eq_of_lt fits]

/-- The tracker after the calls whose abstract side is `period`: the filling
report is numbered and timed as the period of the latest reading, counted
from the constructor's reading `start`; the last full report is the one
before it; and the filling report is the calls of the period recorded into
an empty report. -/
structure Tracks (start interval : Nat) (period : TPeriod) (tracker : TAnomalyTracker) : Prop where
  interval_eq : tracker.reportInterval.toNat = interval
  started : start ≤ period.latest
  bounded : period.latest < 2 ^ 64
  reportId : tracker.fillingReport.reportId.toNat = periodIndex start interval period.latest
  startTime : tracker.fillingReport.startTime.toNat = start + periodIndex start interval period.latest * interval
  lastFullReport : ∀ report, tracker.lastFullReport = some report →
    report.reportId.toNat + 1 = tracker.fillingReport.reportId.toNat ∧
      report.startTime.toNat + interval = tracker.fillingReport.startTime.toNat
  filled : tracker.fillingReport = period.calls.foldl (TInfo.record tracker.maxMsgPrefixLen)
    (TInfo.create tracker.fillingReport.reportId tracker.fillingReport.startTime)

namespace Tracks

theorem create (reportInterval : UInt64) (maxMsgPrefixLen : Nat) (start : UInt64) :
    Tracks start.toNat reportInterval.toNat (TPeriod.create start.toNat)
      (TAnomalyTracker.create reportInterval maxMsgPrefixLen start) where
  interval_eq := rfl
  started := Nat.le_refl _
  bounded := start.toNat_lt
  reportId := by simp [periodIndex, TAnomalyTracker.create, TPeriod.create, TInfo.create]
  startTime := by simp [periodIndex, TAnomalyTracker.create, TPeriod.create, TInfo.create]
  lastFullReport := fun _ none => by cases none
  filled := rfl

variable {start interval : Nat} {period : TPeriod} {tracker : TAnomalyTracker} {now : UInt64}

theorem reportInterval_ne_zero (tracks : Tracks start interval period tracker) (positive : 0 < interval) :
    tracker.reportInterval ≠ 0 := by
  intro zero
  have counted := tracks.interval_eq
  rw [zero] at counted
  simp at counted
  omega

/-- A reading still in the filling report's period: the call joins it. -/
theorem step_of_same (tracks : Tracks start interval period tracker) (positive : 0 < interval) (call : TTrackCall)
    (same : (now.toNat - tracker.fillingReport.startTime.toNat) / interval = 0) :
    Tracks start interval (period.step start interval now.toNat call) (tracker.step now call) := by
  obtain ⟨filling, last, sameInterval, sameLength⟩ := @TAnomalyTracker.step_reports tracker now call
  have unchanged := @TAnomalyTracker.advanceReportPeriod_of_same tracker now (tracks.reportInterval_ne_zero positive)
    (by rw [tracks.interval_eq]; exact same)
  -- the reading is before the end of the period
  have bounds := periodIndex_bounds positive tracks.started
  have within := @Nat.lt_div_mul_add (now.toNat - tracker.fillingReport.startTime.toNat) interval positive
  rw [same, Nat.zero_mul, Nat.zero_add] at within
  have startTime := tracks.startTime
  have kept : periodIndex start interval (max period.latest now.toNat) = periodIndex start interval period.latest :=
    periodIndex_eq (Nat.le_trans bounds.1 (Nat.le_max_left _ _)) (Nat.max_lt.mpr ⟨bounds.2, by omega⟩)
  have stepped : period.step start interval now.toNat call = ⟨max period.latest now.toNat, period.calls ++ [call]⟩ := by
    simp only [TPeriod.step, kept, if_true]
  rw [stepped]
  refine ⟨?_, Nat.le_trans tracks.started (Nat.le_max_left _ _), Nat.max_lt.mpr ⟨tracks.bounded, now.toNat_lt⟩,
    ?_, ?_, ?_, ?_⟩
  · rw [sameInterval]
    exact tracks.interval_eq
  · rw [filling, unchanged, TInfo.reportId_record, kept]
    exact tracks.reportId
  · rw [filling, unchanged, TInfo.startTime_record, kept]
    exact tracks.startTime
  · intro report found
    rw [last, unchanged] at found
    rw [filling, unchanged, TInfo.reportId_record, TInfo.startTime_record]
    exact tracks.lastFullReport report found
  · rw [filling, unchanged, TInfo.reportId_record, TInfo.startTime_record, sameLength, List.foldl_append,
      ← tracks.filled]
    rfl

/-- A reading in the next period: the filling report becomes the last full
one, and the call starts the new period. -/
theorem step_of_next (tracks : Tracks start interval period tracker) (positive : 0 < interval) (call : TTrackCall)
    (next : (now.toNat - tracker.fillingReport.startTime.toNat) / interval = 1) :
    Tracks start interval (period.step start interval now.toNat call) (tracker.step now call) := by
  obtain ⟨filling, last, sameInterval, sameLength⟩ := @TAnomalyTracker.step_reports tracker now call
  have advanced := @TAnomalyTracker.advanceReportPeriod_of_next tracker now (tracks.reportInterval_ne_zero positive)
    (by rw [tracks.interval_eq]; exact next)
  have bounds := periodIndex_bounds positive tracks.started
  have low := Nat.div_mul_le_self (now.toNat - tracker.fillingReport.startTime.toNat) interval
  have high := @Nat.lt_div_mul_add (now.toNat - tracker.fillingReport.startTime.toNat) interval positive
  rw [next, Nat.one_mul] at low high
  have startTime := tracks.startTime
  have reportId := tracks.reportId
  have counted := tracks.interval_eq
  have bounded := now.toNat_lt
  -- the reading is past every earlier one, in the period after theirs
  have later : period.latest < now.toNat := by omega
  have index : periodIndex start interval now.toNat = periodIndex start interval period.latest + 1 :=
    periodIndex_eq (by rw [Nat.add_mul, Nat.one_mul]; omega) (by rw [Nat.add_mul, Nat.one_mul]; omega)
  have stepped : period.step start interval now.toNat call = ⟨now.toNat, [call]⟩ := by
    simp only [TPeriod.step, Nat.max_eq_right (Nat.le_of_lt later), index]
    rw [if_neg (by omega)]
  -- the new number and start time do not wrap
  have fits : periodIndex start interval period.latest + 1 < 2 ^ 64 := by
    have := Nat.le_mul_of_pos_right (periodIndex start interval period.latest + 1) positive
    rw [Nat.add_mul, Nat.one_mul] at this
    omega
  have newId : (tracker.fillingReport.reportId + 1).toNat = periodIndex start interval period.latest + 1 := by
    rw [toNat_add_of_lt (by rw [reportId]; exact fits), reportId]
    rfl
  have newStart : (tracker.fillingReport.startTime + tracker.reportInterval).toNat =
      start + (periodIndex start interval period.latest + 1) * interval := by
    rw [toNat_add_of_lt (by omega), startTime, counted, Nat.add_mul, Nat.one_mul, Nat.add_assoc]
  rw [stepped]
  have started := tracks.started
  refine ⟨?_, show start ≤ now.toNat by omega, bounded, ?_, ?_, ?_, ?_⟩
  · rw [sameInterval]
    exact counted
  · rw [filling, advanced, TInfo.reportId_record, index]
    exact newId
  · rw [filling, advanced, TInfo.startTime_record, index]
    exact newStart
  · intro report found
    rw [last, advanced] at found
    cases found
    rw [filling, advanced, TInfo.reportId_record, TInfo.startTime_record]
    exact ⟨by rw [TInfo.create, newId, reportId], by rw [TInfo.create, newStart, startTime, Nat.add_mul,
      Nat.one_mul, Nat.add_assoc]⟩
  · rw [filling, advanced, TInfo.reportId_record, TInfo.startTime_record, sameLength]
    rfl

/-- A reading two periods on or more: both reports are replaced with empty
ones, of the period before the reading's and of the reading's, and the call
starts the new period. -/
theorem step_of_skip (tracks : Tracks start interval period tracker) (positive : 0 < interval) (call : TTrackCall)
    (skipped : 2 ≤ (now.toNat - tracker.fillingReport.startTime.toNat) / interval) :
    Tracks start interval (period.step start interval now.toNat call) (tracker.step now call) := by
  obtain ⟨filling, last, sameInterval, sameLength⟩ := @TAnomalyTracker.step_reports tracker now call
  obtain ⟨periodOffset, offset, advanced⟩ := @TAnomalyTracker.advanceReportPeriod_of_skip tracker now
    (tracks.reportInterval_ne_zero positive) (by rw [tracks.interval_eq]; exact skipped)
  -- the reading is `skip + 2` whole intervals past the filling report's start
  obtain ⟨skip, passed⟩ : ∃ skip, (now.toNat - tracker.fillingReport.startTime.toNat) / interval = skip + 2 :=
    ⟨(now.toNat - tracker.fillingReport.startTime.toNat) / interval - 2, by omega⟩
  have counted := tracks.interval_eq
  rw [counted, passed] at offset
  have low := Nat.div_mul_le_self (now.toNat - tracker.fillingReport.startTime.toNat) interval
  have high := @Nat.lt_div_mul_add (now.toNat - tracker.fillingReport.startTime.toNat) interval positive
  rw [passed, Nat.add_mul] at low high
  have bounds := periodIndex_bounds positive tracks.started
  have startTime := tracks.startTime
  have reportId := tracks.reportId
  have started := tracks.started
  have bounded := now.toNat_lt
  have later : period.latest < now.toNat := by omega
  have spread : (periodIndex start interval period.latest + (skip + 2)) * interval =
      periodIndex start interval period.latest * interval + skip * interval + 2 * interval := by
    rw [Nat.add_mul, Nat.add_mul]
    omega
  have index : periodIndex start interval now.toNat = periodIndex start interval period.latest + (skip + 2) :=
    periodIndex_eq (by rw [spread]; omega) (by rw [spread]; omega)
  have stepped : period.step start interval now.toNat call = ⟨now.toNat, [call]⟩ := by
    simp only [TPeriod.step, Nat.max_eq_right (Nat.le_of_lt later), index]
    rw [if_neg (by omega)]
  -- none of the offsets, numbers and start times wraps
  have fits : periodIndex start interval period.latest + (skip + 2) < 2 ^ 64 := by
    have := Nat.le_mul_of_pos_right (periodIndex start interval period.latest + (skip + 2)) positive
    omega
  have back : (periodOffset - 1).toNat = skip + 1 := by
    rw [UInt64.toNat_sub_of_le _ _ (UInt64.le_iff_toNat_le.mpr (by rw [offset]; simp)), offset]
    simp
  have prevId : (tracker.fillingReport.reportId + (periodOffset - 1)).toNat =
      periodIndex start interval period.latest + (skip + 1) := by
    rw [toNat_add_of_lt (by rw [reportId, back]; omega), reportId, back]
  have newId : (tracker.fillingReport.reportId + (periodOffset - 1) + 1).toNat =
      periodIndex start interval period.latest + (skip + 2) := by
    rw [toNat_add_of_lt (by rw [prevId]; simp; omega), prevId]
    simp
    omega
  have skipSpan : ((periodOffset - 1) * tracker.reportInterval).toNat = skip * interval + interval := by
    rw [toNat_mul_of_lt (by rw [back, counted, Nat.add_mul, Nat.one_mul]; omega), back, counted, Nat.add_mul,
      Nat.one_mul]
  have prevStart : (tracker.fillingReport.startTime + (periodOffset - 1) * tracker.reportInterval).toNat =
      tracker.fillingReport.startTime.toNat + skip * interval + interval := by
    rw [toNat_add_of_lt (by rw [skipSpan]; omega), skipSpan]
    omega
  have newStart : (tracker.fillingReport.startTime + (periodOffset - 1) * tracker.reportInterval +
      tracker.reportInterval).toNat = start + (periodIndex start interval period.latest + (skip + 2)) * interval := by
    rw [toNat_add_of_lt (by rw [prevStart, counted]; omega), prevStart, counted, spread, startTime]
    omega
  rw [stepped]
  refine ⟨?_, show start ≤ now.toNat by omega, bounded, ?_, ?_, ?_, ?_⟩
  · rw [sameInterval]
    exact counted
  · rw [filling, advanced, TInfo.reportId_record, index]
    exact newId
  · rw [filling, advanced, TInfo.startTime_record, index]
    exact newStart
  · intro report found
    rw [last, advanced] at found
    cases found
    rw [filling, advanced, TInfo.reportId_record, TInfo.startTime_record]
    constructor
    · show (tracker.fillingReport.reportId + (periodOffset - 1)).toNat + 1 =
        (tracker.fillingReport.reportId + (periodOffset - 1) + 1).toNat
      rw [prevId, newId]
      omega
    · show (tracker.fillingReport.startTime + (periodOffset - 1) * tracker.reportInterval).toNat + interval =
        (tracker.fillingReport.startTime + (periodOffset - 1) * tracker.reportInterval + tracker.reportInterval).toNat
      rw [prevStart, newStart, startTime, spread]
      omega
  · rw [filling, advanced, TInfo.reportId_record, TInfo.startTime_record, sameLength]
    rfl

/-- Every call keeps the tracker following the periods: the three cases of
`AdvanceReportPeriod`. -/
theorem step (tracks : Tracks start interval period tracker) (positive : 0 < interval) (call : TTrackCall) :
    Tracks start interval (period.step start interval now.toNat call) (tracker.step now call) := by
  by_cases many : 2 ≤ (now.toNat - tracker.fillingReport.startTime.toNat) / interval
  · exact tracks.step_of_skip positive call many
  · by_cases same : (now.toNat - tracker.fillingReport.startTime.toNat) / interval = 0
    · exact tracks.step_of_same positive call same
    · have next : (now.toNat - tracker.fillingReport.startTime.toNat) / interval = 1 := by
        have := Nat.zero_le ((now.toNat - tracker.fillingReport.startTime.toNat) / interval)
        omega
      exact tracks.step_of_next positive call next

/-- Over a run: induction on the calls. -/
theorem run (tracks : Tracks start interval period tracker) (positive : 0 < interval)
    (trace : List (UInt64 × TTrackCall)) :
    Tracks start interval (trace.foldl (fun period reading => period.step start interval reading.1.toNat reading.2) period)
      (tracker.run trace) := by
  induction trace generalizing period tracker with
  | nil => exact tracks
  | cons reading rest ih => exact ih (tracks.step positive reading.2)

end Tracks

theorem TAnomalyTracker.maxMsgPrefixLen_run (tracker : TAnomalyTracker) (trace : List (UInt64 × TTrackCall)) :
    (tracker.run trace).maxMsgPrefixLen = tracker.maxMsgPrefixLen := by
  induction trace generalizing tracker with
  | nil => rfl
  | cons reading rest ih =>
      rw [TAnomalyTracker.run, List.foldl_cons, ← TAnomalyTracker.run, ih]
      exact (TAnomalyTracker.step_reports reading.2).2.2.2

/-! ### The reports after any run -/

/-- The reports after the calls whose abstract side is `period`: the filling
report has the number and the start time of the latest reading's period, and
the last full report, when there is one, those of the period before; the
latest reading lies in the filling report's interval; each topic's entry in
the discard and duplicate maps counts its timestamps of the period and spans
the earliest to the latest of them; and each bounded list holds the most
recently seen distinct items of the period, the most recent first, at most
its size. -/
structure ReportSpec (maxMsgPrefixLen start interval : Nat) (period : TPeriod) (tracker : TAnomalyTracker) :
    Prop where
  reportId : tracker.fillingReport.reportId.toNat = periodIndex start interval period.latest
  startTime : tracker.fillingReport.startTime.toNat = start + periodIndex start interval period.latest * interval
  lastFullReport : ∀ report, tracker.lastFullReport = some report →
    report.reportId.toNat + 1 = periodIndex start interval period.latest ∧
      report.startTime.toNat + interval = start + periodIndex start interval period.latest * interval
  latestWithin : start + periodIndex start interval period.latest * interval ≤ period.latest ∧
    period.latest < start + (periodIndex start interval period.latest + 1) * interval
  discards : MapSummarizes tracker.fillingReport.discardTopicMap (period.calls.flatMap discardEntries)
  duplicates : MapSummarizes tracker.fillingReport.duplicateTopicMap (period.calls.flatMap duplicateEntries)
  malformedMsgs : tracker.fillingReport.malformedMsgs =
    (recency (period.calls.flatMap (malformedItems maxMsgPrefixLen))).take maxMalformedMsgs
  tcpUncleanDisconnectMsgs : tracker.fillingReport.tcpUncleanDisconnectMsgs =
    (recency (period.calls.flatMap (uncleanItems maxMsgPrefixLen true))).take maxUncleanDisconnectMsgs
  unixStreamUncleanDisconnectMsgs : tracker.fillingReport.unixStreamUncleanDisconnectMsgs =
    (recency (period.calls.flatMap (uncleanItems maxMsgPrefixLen false))).take maxUncleanDisconnectMsgs
  longMsgs : tracker.fillingReport.longMsgs =
    (recency (period.calls.flatMap (longMsgItems maxMsgPrefixLen))).take maxLongMsgs
  badTopics : tracker.fillingReport.badTopics = (recency (period.calls.flatMap badTopicItems)).take maxBadTopics

/-- The invariant gives the reports: the filling report is the period's
calls recorded into an empty report, which each part of the report folds in
its own way. -/
theorem Tracks.spec {start interval : Nat} {period : TPeriod} {tracker : TAnomalyTracker}
    (tracks : Tracks start interval period tracker) (positive : 0 < interval) :
    ReportSpec tracker.maxMsgPrefixLen start interval period tracker := by
  have filled := tracks.filled
  have bounds := periodIndex_bounds positive tracks.started
  refine ⟨tracks.reportId, tracks.startTime, ?_, ⟨bounds.1, by rw [Nat.add_mul, Nat.one_mul, ← Nat.add_assoc]; exact bounds.2⟩,
    ?_, ?_, ?_, ?_, ?_, ?_, ?_⟩
  · intro report found
    obtain ⟨ids, starts⟩ := tracks.lastFullReport report found
    exact ⟨ids.trans tracks.reportId, starts.trans tracks.startTime⟩
  · rw [filled, TInfo.foldl_record_field _ _ _ _ (TInfo.discardTopicMap_record _)]
    exact mapSummarizes_foldl _
  · rw [filled, TInfo.foldl_record_field _ _ _ _ (TInfo.duplicateTopicMap_record _)]
    exact mapSummarizes_foldl _
  · rw [filled, TInfo.foldl_record_field _ _ _ _ (TInfo.malformedMsgs_record _)]
    exact foldl_updateLruList _ _
  · rw [filled, TInfo.foldl_record_field _ _ _ _ (fun info call => (TInfo.uncleanMsgs_record _ info call).1)]
    exact foldl_updateLruList _ _
  · rw [filled, TInfo.foldl_record_field _ _ _ _ (fun info call => (TInfo.uncleanMsgs_record _ info call).2)]
    exact foldl_updateLruList _ _
  · rw [filled, TInfo.foldl_record_field _ _ _ _ (TInfo.longMsgs_record _)]
    exact foldl_updateLruList _ _
  · rw [filled, TInfo.foldl_record_field _ _ _ _ (TInfo.badTopics_record _)]
    exact foldl_updateLruList _ _

/-- With a positive report interval, whatever the clock readings, the
reports after any run of calls from the constructor are those of
`ReportSpec`, for the period of the latest reading so far counted from the
constructor's reading, and the calls of that period. -/
theorem anomalyTracker_reports (reportInterval : UInt64) (positive : 0 < reportInterval.toNat)
    (maxMsgPrefixLen : Nat) (start : UInt64) (trace : List (UInt64 × TTrackCall)) :
    ReportSpec maxMsgPrefixLen start.toNat reportInterval.toNat (TPeriod.run start.toNat reportInterval.toNat trace)
      ((TAnomalyTracker.create reportInterval maxMsgPrefixLen start).run trace) := by
  have tracks := (Tracks.create reportInterval maxMsgPrefixLen start).run positive trace
  have spec := tracks.spec positive
  rwa [TAnomalyTracker.maxMsgPrefixLen_run] at spec

theorem anomalyTracker_reports_tenSeconds :
    0 < (10 : UInt64).toNat ∧
      ReportSpec 16 (100 : UInt64).toNat (10 : UInt64).toNat
        (TPeriod.run (100 : UInt64).toNat (10 : UInt64).toNat
          [(105, .trackBadTopicDiscard "a"), (131, .getInfo), (120, .trackBadTopicDiscard "b")])
        ((TAnomalyTracker.create 10 16 100).run
          [(105, .trackBadTopicDiscard "a"), (131, .getInfo), (120, .trackBadTopicDiscard "b")]) :=
  ⟨by decide, anomalyTracker_reports 10 (by decide) 16 100 _⟩

end Dory
