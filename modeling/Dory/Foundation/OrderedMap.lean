/-
Module: Dory.Foundation.OrderedMap
Purpose: Ordered maps, as `std::map` keeps them: a list of entries whose keys
  increase strictly, which the structure carries as a field.  `find` reads
  the value under a key, or a default when the key is absent; `alter` is
  `map[key]` followed by a change of the value it refers to: the entry under
  the key is changed in place, and an absent key is first inserted with the
  default before the first greater key, so that the keys still increase.
  The lemmas say what `find` reads after `alter`, which entries `alter`
  leaves, and how the concatenated values of the map grow.
Trusted boundary: none
Main exports: OrderedMap, OrderedMap.alter, OrderedMap.find, find_alter,
  find_mem, mem_alter, flatMap_alter_perm
-/
import Mathlib
import Dory.Foundation.KeyedList

namespace Dory.Foundation

/-- Entries whose keys increase strictly. -/
def KeysIncrease {κ ν : Type} [LT κ] (entries : List (κ × ν)) : Prop :=
  entries.Pairwise fun first second => first.1 < second.1

/-- A `std::map`: its entries in key order. -/
structure OrderedMap (κ ν : Type) [LT κ] where
  entries : List (κ × ν)
  increasing : KeysIncrease entries

namespace OrderedMap

variable {κ ν : Type} [LinearOrder κ]

/-- The empty map. -/
def empty : OrderedMap κ ν :=
  ⟨[], List.Pairwise.nil⟩

/-- `alter` on the entries. -/
def alterEntries (key : κ) (default : ν) (change : ν → ν) : List (κ × ν) → List (κ × ν)
  | [] => [(key, change default)]
  | entry :: rest =>
      if entry.1 = key then (key, change entry.2) :: rest
      else if key < entry.1 then (key, change default) :: entry :: rest
      else entry :: alterEntries key default change rest

theorem mem_alterEntries {key : κ} {default : ν} {change : ν → ν} {entries : List (κ × ν)}
    {entry : κ × ν} (member : entry ∈ alterEntries key default change entries) :
    entry ∈ entries ∨ entry.1 = key := by
  induction entries with
  | nil => simp_all [alterEntries]
  | cons first rest inductionHypothesis =>
      unfold alterEntries at member
      split_ifs at member with same before
      · rcases List.mem_cons.mp member with rfl | later
        · exact .inr rfl
        · exact .inl (List.mem_cons_of_mem _ later)
      · rcases List.mem_cons.mp member with rfl | later
        · exact .inr rfl
        · exact .inl later
      · rcases List.mem_cons.mp member with rfl | later
        · exact .inl List.mem_cons_self
        · exact (inductionHypothesis later).imp_left (List.mem_cons_of_mem _)

theorem increasing_alterEntries (key : κ) (default : ν) (change : ν → ν) {entries : List (κ × ν)}
    (increasing : KeysIncrease entries) : KeysIncrease (alterEntries key default change entries) := by
  induction entries with
  | nil => exact List.pairwise_singleton _ _
  | cons first rest inductionHypothesis =>
      unfold KeysIncrease at increasing
      rw [List.pairwise_cons] at increasing
      unfold alterEntries
      split_ifs with same before
      · -- the entry keeps its key
        subst same
        exact List.pairwise_cons.mpr increasing
      · -- the new key is below `first`, hence below everything after it
        refine List.pairwise_cons.mpr ⟨fun other member => ?_, List.pairwise_cons.mpr increasing⟩
        rcases List.mem_cons.mp member with rfl | later
        · exact before
        · exact before.trans (increasing.1 other later)
      · have above : first.1 < key := lt_of_le_of_ne (not_lt.mp before) same
        refine List.pairwise_cons.mpr ⟨fun other member => ?_, inductionHypothesis increasing.2⟩
        rcases mem_alterEntries member with old | rfl
        · exact increasing.1 other old
        · exact above

/-- `map[key]`, then `change` of the value it refers to. -/
def alter (map : OrderedMap κ ν) (key : κ) (default : ν) (change : ν → ν) : OrderedMap κ ν :=
  ⟨alterEntries key default change map.entries, increasing_alterEntries key default change map.increasing⟩

/-- The value under `key`, `default` when the key is absent. -/
def find (map : OrderedMap κ ν) (key : κ) (default : ν) : ν :=
  (map.entries.lookup key).getD default

/-- A key below the first key of increasing entries is absent from them. -/
theorem lookup_of_lt {key : κ} {first : κ × ν} {rest : List (κ × ν)}
    (increasing : KeysIncrease (first :: rest)) (below : key < first.1) :
    (first :: rest).lookup key = none := by
  rw [List.lookup_eq_none_iff]
  intro entry member
  have le : first.1 ≤ entry.1 := by
    rcases List.mem_cons.mp member with rfl | later
    · exact le_rfl
    · exact ((List.pairwise_cons.mp increasing).1 entry later).le
  simpa using (below.trans_le le).ne

theorem lookup_alterEntries_self (key : κ) (default : ν) (change : ν → ν) {entries : List (κ × ν)}
    (increasing : KeysIncrease entries) :
    (alterEntries key default change entries).lookup key =
      some (change ((entries.lookup key).getD default)) := by
  induction entries with
  | nil => simp [alterEntries]
  | cons first rest inductionHypothesis =>
      obtain ⟨firstKey, firstValue⟩ := first
      unfold alterEntries
      split_ifs with same before
      · simp only at same
        subst same
        simp
      · -- the key was absent: it is below every key of the entries
        simp [lookup_of_lt increasing before]
      · have differs : (key == firstKey) = false := by simpa using Ne.symm same
        simp only [List.lookup_cons, differs]
        exact inductionHypothesis (List.pairwise_cons.mp increasing).2

theorem lookup_alterEntries_of_ne {key other : κ} (default : ν) (change : ν → ν) (entries : List (κ × ν))
    (different : other ≠ key) :
    (alterEntries key default change entries).lookup other = entries.lookup other := by
  have skipped : (other == key) = false := by simpa using different
  induction entries with
  | nil => simp [alterEntries, List.lookup_cons, skipped]
  | cons first rest inductionHypothesis =>
      obtain ⟨firstKey, firstValue⟩ := first
      unfold alterEntries
      split_ifs with same before
      · simp only at same
        subst same
        simp [List.lookup_cons, skipped]
      · simp [List.lookup_cons, skipped]
      · simp only [List.lookup_cons, inductionHypothesis]

/-- What `find` reads after `alter`. -/
theorem find_alter (map : OrderedMap κ ν) (key other : κ) (default : ν) (change : ν → ν) :
    (map.alter key default change).find other default =
      if other = key then change (map.find key default) else map.find other default := by
  by_cases same : other = key
  · subst same
    simp [find, alter, lookup_alterEntries_self _ _ _ map.increasing]
  · simp [find, alter, lookup_alterEntries_of_ne _ _ _ same, same]

/-- A found value is an entry's, or the default. -/
theorem find_mem (map : OrderedMap κ ν) (key : κ) (default : ν) :
    (key, map.find key default) ∈ map.entries ∨ map.find key default = default := by
  unfold find
  cases found : map.entries.lookup key with
  | none => exact .inr rfl
  | some value => exact .inl (KeyedList.mem_of_lookup found)

theorem find_empty (key : κ) (default : ν) : (empty : OrderedMap κ ν).find key default = default :=
  rfl

/-- Increasing keys are distinct. -/
theorem nodup_keys (map : OrderedMap κ ν) : (KeyedList.keys map.entries).Nodup :=
  List.pairwise_map.mpr (map.increasing.imp fun below => ne_of_lt below)

/-- Every entry after `alter` is an entry before, or the altered one. -/
theorem mem_alter {map : OrderedMap κ ν} {key : κ} {default : ν} {change : ν → ν} {entry : κ × ν}
    (member : entry ∈ (map.alter key default change).entries) :
    entry ∈ map.entries ∨ entry = (key, change (map.find key default)) := by
  obtain ⟨entryKey, value⟩ := entry
  by_cases same : entryKey = key
  · -- the altered map has one entry under `key`, and `find` reads it
    subst same
    have found := KeyedList.lookup_of_mem (nodup_keys _) member
    rw [alter, lookup_alterEntries_self _ _ _ map.increasing] at found
    exact .inr (by simpa [find] using found.symm)
  · exact .inl ((mem_alterEntries member).resolve_right same)

theorem flatMap_alterEntries_perm {α : Type} (pieces : ν → List α) {extra : List α} (key : κ)
    {default : ν} {change : ν → ν} (grows : ∀ value, (pieces (change value)).Perm (pieces value ++ extra))
    (none : pieces default = []) (entries : List (κ × ν)) :
    ((alterEntries key default change entries).flatMap fun entry => pieces entry.2).Perm
      ((entries.flatMap fun entry => pieces entry.2) ++ extra) := by
  induction entries with
  | nil => simpa [alterEntries, none] using grows default
  | cons first rest inductionHypothesis =>
      unfold alterEntries
      split_ifs with same before
      · -- the pieces of the changed entry grow in place
        simp only [List.flatMap_cons, List.append_assoc]
        refine ((grows first.2).append_right _).trans ?_
        rw [List.append_assoc]
        exact List.perm_append_comm.append_left _
      · -- the inserted entry holds `extra` alone
        simp only [List.flatMap_cons]
        refine ((grows default).append_right _).trans ?_
        rw [none, List.nil_append]
        exact List.perm_append_comm
      · simp only [List.flatMap_cons, List.append_assoc]
        exact inductionHypothesis.append_left _

theorem ext_entries {first second : OrderedMap κ ν} (same : first.entries = second.entries) :
    first = second := by
  cases first
  cases second
  cases same
  rfl

theorem alterEntries_ne_nil (key : κ) (default : ν) (change : ν → ν) (entries : List (κ × ν)) :
    alterEntries key default change entries ≠ [] := by
  cases entries with
  | nil => simp [alterEntries]
  | cons first rest =>
      unfold alterEntries
      split_ifs <;> simp

theorem alterEntries_alterEntries (key : κ) (default : ν) (first second : ν → ν) (entries : List (κ × ν)) :
    alterEntries key default second (alterEntries key default first entries) =
      alterEntries key default (second ∘ first) entries := by
  induction entries with
  | nil => simp [alterEntries]
  | cons entry rest inductionHypothesis =>
      by_cases same : entry.1 = key
      · simp [alterEntries, same]
      · by_cases before : key < entry.1
        · simp [alterEntries, same, before]
        · -- both walk past `entry`
          simp [alterEntries, same, before, inductionHypothesis]

/-- Two changes under one key are one change. -/
theorem alter_alter (map : OrderedMap κ ν) (key : κ) (default : ν) (first second : ν → ν) :
    (map.alter key default first).alter key default second = map.alter key default (second ∘ first) :=
  ext_entries (alterEntries_alterEntries key default first second map.entries)

/-- Changing the value under a present key into itself changes nothing. -/
theorem alter_of_fixed {map : OrderedMap κ ν} {key : κ} {value : ν} (present : (key, value) ∈ map.entries)
    (default : ν) {change : ν → ν} (fixed : change value = value) : map.alter key default change = map := by
  obtain ⟨entries, increasing⟩ := map
  refine ext_entries ?_
  simp only [alter] at present ⊢
  induction entries with
  | nil => simp at present
  | cons entry rest inductionHypothesis =>
      have restIncreasing : KeysIncrease rest := (List.pairwise_cons.mp increasing).2
      unfold alterEntries
      split_ifs with same before
      · -- keys are unique, so `entry` is the entry `(key, value)`
        have unique := nodup_keys ⟨entry :: rest, increasing⟩
        have stored : entry.2 = value :=
          KeyedList.eq_of_mem unique (by rw [← same]; exact List.mem_cons_self) present
        rw [stored, fixed, ← same, ← stored]
      · -- a key below the first is not there at all
        have absent := lookup_of_lt increasing before
        rw [List.lookup_eq_none_iff] at absent
        simpa using absent _ present
      · have later : (key, value) ∈ rest := by
          rcases List.mem_cons.mp present with rfl | later
          · exact absurd rfl same
          · exact later
        rw [inductionHypothesis restIncreasing later]

/-- When `change` adds `extra` to the pieces of a value and the default has
none, `alter` adds `extra` to the pieces of the whole map, up to order. -/
theorem flatMap_alter_perm {α : Type} (pieces : ν → List α) {extra : List α} (map : OrderedMap κ ν)
    (key : κ) {default : ν} {change : ν → ν} (grows : ∀ value, (pieces (change value)).Perm (pieces value ++ extra))
    (none : pieces default = []) :
    ((map.alter key default change).entries.flatMap fun entry => pieces entry.2).Perm
      ((map.entries.flatMap fun entry => pieces entry.2) ++ extra) :=
  flatMap_alterEntries_perm pieces key grows none map.entries

end OrderedMap

end Dory.Foundation
