/-
Module: Dory.Util.TopicMap
Purpose: `TTopicMap` (src/dory/util/topic_map.{h,cc}): messages grouped by
  topic in an `unordered_map` from topic to message list, modelled as a keyed
  list in one admissible iteration order.  `put` is `Put(msg)` (through
  `PutCommon`), `get` is `Get()`.  Every stored list is nonempty and holds
  messages of its topic; read topic by topic, `put` appends the message to
  its topic and `get` hands back every topic's messages in order.  Release
  builds define `NDEBUG`, so the map's asserts are not checked.
Trusted boundary: none
Main exports: TTopicMap, putCommon, put, get, held, msgsOf, Valid,
  msgsOf_put, ofTopic_get, held_put_perm
-/
import Dory.Msg
import Dory.Foundation.KeyedList
import Dory.Foundation.Trace

namespace Dory.Util

open Dory.Foundation

/-- `TTopicMap`: `TopicHash`, from topic to the topic's messages. -/
structure TTopicMap where
  topicHash : List (String × List TMsg) := []
deriving DecidableEq, Repr

namespace TTopicMap

/-- `IsEmpty()`. -/
def isEmpty (topicMap : TTopicMap) : Bool :=
  topicMap.topicHash.isEmpty

/-- `PutCommon(topic)`: the map with an entry for `topic`, inserted with an
empty list when absent. -/
def putCommon (topicMap : TTopicMap) (topic : String) : TTopicMap :=
  match topicMap.topicHash.lookup topic with
  | some _ => topicMap
  | none => { topicHash := topicMap.topicHash ++ [(topic, [])] }

/-- `Put(msg)`: append the message to its topic's list. -/
def put (topicMap : TTopicMap) (msg : TMsg) : TTopicMap :=
  { topicHash := KeyedList.modify (topicMap.putCommon msg.topic).topicHash msg.topic
      fun msgList => msgList ++ [msg] }

/-- `Get()`: every nonempty list, in map order, and the map cleared. -/
def get (topicMap : TTopicMap) : List (List TMsg) × TTopicMap :=
  (topicMap.topicHash.filterMap fun item => if item.2.isEmpty then none else some item.2, {})

/-- Every message the map holds, topic by topic in map order. -/
def held (topicMap : TTopicMap) : List TMsg :=
  topicMap.topicHash.flatMap fun item => item.2

/-- The messages the map holds for one topic. -/
def msgsOf (topicMap : TTopicMap) (topic : String) : List TMsg :=
  KeyedList.groupOf topicMap.topicHash id topic

/-- The invariant of a topic map: unique topics, no empty list, and each list
holds messages of its topic only. -/
structure Valid (topicMap : TTopicMap) : Prop where
  uniqueTopics : (KeyedList.keys topicMap.topicHash).Nodup
  nonempty : ∀ topic msgs, (topic, msgs) ∈ topicMap.topicHash → msgs ≠ []
  grouped : KeyedList.Grouped TMsg.topic topicMap.topicHash id

@[simp] theorem get_snd (topicMap : TTopicMap) : topicMap.get.2 = {} := rfl

@[simp] theorem held_empty : held {} = [] := rfl

@[simp] theorem msgsOf_empty (topic : String) : msgsOf {} topic = [] := rfl

theorem empty_valid : Valid {} :=
  ⟨List.nodup_nil, fun _ _ member => (nomatch member), fun _ _ member => (nomatch member)⟩

/-- An entry after `PutCommon(topic)` is an old entry or the new, empty list
of the topic. -/
theorem mem_putCommon {topicMap : TTopicMap} {topic key : String} {msgs : List TMsg}
    (member : (key, msgs) ∈ (topicMap.putCommon topic).topicHash) :
    (key, msgs) ∈ topicMap.topicHash ∨ (key = topic ∧ msgs = []) := by
  unfold putCommon at member
  split at member
  · exact Or.inl member
  · rcases List.mem_append.mp member with old | new
    · exact Or.inl old
    · simp only [List.mem_singleton, Prod.mk.injEq] at new
      exact Or.inr new

theorem keys_putCommon_nodup {topicMap : TTopicMap} (unique : (KeyedList.keys topicMap.topicHash).Nodup)
    (topic : String) : (KeyedList.keys (topicMap.putCommon topic).topicHash).Nodup := by
  unfold putCommon
  split
  · exact unique
  · rename_i absent
    rw [KeyedList.keys_append, KeyedList.keys_singleton, List.nodup_append]
    refine ⟨unique, List.nodup_singleton topic, ?_⟩
    intro key present other new same
    rw [List.mem_singleton] at new
    subst new same
    exact KeyedList.lookup_eq_none.mp absent present

/-- `PutCommon` leaves every topic's messages as they were. -/
theorem msgsOf_putCommon (topicMap : TTopicMap) (topic other : String) :
    msgsOf (topicMap.putCommon topic) other = msgsOf topicMap other := by
  unfold putCommon
  split
  · rfl
  · rename_i absent
    by_cases same : other = topic
    · subst same
      simp [msgsOf, KeyedList.groupOf, List.lookup_append, absent]
    · have skipped : (other == topic) = false := by simpa using same
      simp [msgsOf, KeyedList.groupOf, List.lookup_append, List.lookup_cons, skipped]

theorem flatten_get (topicMap : TTopicMap) : topicMap.get.1.flatten = topicMap.held :=
  KeyedList.flatten_filterMap_nonempty topicMap.topicHash fun item => item.2

section Valid

variable {topicMap : TTopicMap} (valid : Valid topicMap)
include valid

theorem put_valid (msg : TMsg) : Valid (topicMap.put msg) := by
  refine ⟨?_, ?_, ?_⟩
  · rw [put, KeyedList.keys_modify]
    exact keys_putCommon_nodup valid.uniqueTopics msg.topic
  · intro topic msgs member
    simp only [put] at member
    rcases KeyedList.mem_modify.mp member with ⟨different, old⟩ | ⟨-, value, -, changed⟩
    · rcases mem_putCommon old with old | ⟨same, -⟩
      · exact valid.nonempty topic msgs old
      · exact absurd same different
    · simp only at changed
      rw [changed]
      exact List.append_ne_nil_of_right_ne_nil _ (List.cons_ne_nil _ _)
  · intro topic msgs member held heldMember
    simp only [put] at member
    rcases KeyedList.mem_modify.mp member with ⟨-, old⟩ | ⟨same, value, stored, changed⟩
    · rcases mem_putCommon old with old | ⟨-, rfl⟩
      · exact valid.grouped topic msgs old held heldMember
      · cases heldMember
    · -- the topic's list, with the message appended
      simp only at same changed
      subst same changed
      rcases List.mem_append.mp heldMember with earlier | new
      · rcases mem_putCommon stored with stored | ⟨-, rfl⟩
        · exact valid.grouped _ value stored held earlier
        · cases earlier
      · rw [List.mem_singleton.mp new]

/-- `Put(msg)` appends the message to its topic and changes no other topic. -/
theorem msgsOf_put (msg : TMsg) (topic : String) :
    msgsOf (topicMap.put msg) topic = msgsOf topicMap topic ++ ofTopic topic [msg] := by
  by_cases same : msg.topic = topic
  · subst same
    rw [← msgsOf_putCommon topicMap msg.topic msg.topic, ofTopic_singleton, if_pos rfl]
    have unique := keys_putCommon_nodup valid.uniqueTopics msg.topic
    have present : msg.topic ∈ KeyedList.keys (topicMap.putCommon msg.topic).topicHash := by
      cases found : topicMap.topicHash.lookup msg.topic with
      | some msgs =>
          simp only [putCommon, found]
          exact KeyedList.mem_keys_of_mem (KeyedList.mem_of_lookup found)
      | none => simp [putCommon, found]
    obtain ⟨msgs, stored⟩ := KeyedList.mem_keys.mp present
    have before : msgsOf (topicMap.putCommon msg.topic) msg.topic = msgs :=
      KeyedList.groupOf_of_mem unique _ stored
    have appended : (msg.topic, msgs ++ [msg]) ∈ KeyedList.modify
        (topicMap.putCommon msg.topic).topicHash msg.topic (fun msgList => msgList ++ [msg]) :=
      KeyedList.mem_modify.mpr (Or.inr ⟨rfl, msgs, stored, rfl⟩)
    have after : msgsOf (topicMap.put msg) msg.topic = msgs ++ [msg] :=
      KeyedList.groupOf_of_mem (by rw [put, KeyedList.keys_modify]; exact unique) _ appended
    rw [after, before]
  · rw [ofTopic_singleton, if_neg same, List.append_nil, ← msgsOf_putCommon topicMap msg.topic topic]
    simp only [put, msgsOf, KeyedList.groupOf, KeyedList.lookup_modify_of_ne _ (Ne.symm same)]

/-- The held messages of one topic are that topic's list. -/
theorem ofTopic_held (topic : String) : ofTopic topic topicMap.held = msgsOf topicMap topic :=
  KeyedList.filter_flatMap_eq_groupOf valid.uniqueTopics valid.grouped topic

/-- `Get()` hands back every topic's messages, in order. -/
theorem ofTopic_get (topic : String) :
    ofTopic topic topicMap.get.1.flatten = msgsOf topicMap topic := by
  rw [flatten_get, ofTopic_held valid]

/-- Every list `Get()` returns is nonempty and of one topic. -/
theorem get_batches : ∀ batch ∈ topicMap.get.1, batch ≠ [] ∧ ∃ topic, SingleTopic topic batch := by
  intro batch member
  obtain ⟨⟨topic, msgs⟩, stored, kept⟩ := List.mem_filterMap.mp member
  have nonempty := valid.nonempty topic msgs stored
  simp only [List.isEmpty_iff, nonempty, if_false, Option.some.injEq] at kept
  subst kept
  exact ⟨nonempty, topic, valid.grouped topic msgs stored⟩

/-- After `Put(msg)` the map holds what it held and the message. -/
theorem held_put_perm (msg : TMsg) : (topicMap.put msg).held.Perm (topicMap.held ++ [msg]) := by
  apply perm_of_filter_key_eq TMsg.topic
  intro topic
  change ofTopic topic (topicMap.put msg).held = ofTopic topic (topicMap.held ++ [msg])
  rw [ofTopic_held (put_valid valid msg), msgsOf_put valid, ofTopic_append, ofTopic_held valid]

/-- The map is empty exactly when it holds no message. -/
theorem isEmpty_iff : topicMap.isEmpty = true ↔ topicMap.held = [] := by
  unfold isEmpty held
  rw [List.isEmpty_iff, List.flatMap_eq_nil_iff]
  constructor
  · rintro empty item member
    rw [empty] at member
    cases member
  · intro none
    cases topicHash : topicMap.topicHash with
    | nil => rfl
    | cons item rest =>
        have := none item (by rw [topicHash]; exact List.mem_cons_self)
        exact absurd this (valid.nonempty item.1 item.2 (by rw [topicHash]; exact List.mem_cons_self))

end Valid

end TTopicMap

end Dory.Util
