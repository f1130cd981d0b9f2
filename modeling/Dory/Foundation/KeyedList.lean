/-
Module: Dory.Foundation.KeyedList
Purpose: Association lists with unique keys, as a model of a hash map whose
  iteration order is unspecified: the list order is one admissible iteration
  order.  Lookup is `List.lookup`; `modify` changes one value in place,
  `erase` removes one key, and a new key is appended.  The lemmas describe
  membership after each operation, so that invariants stated with `∈` carry
  across them, and uniqueness of keys makes a membership determine the value.
Trusted boundary: none
Main exports: keys, modify, erase, lookup_of_mem, mem_of_lookup, eq_of_mem,
  mem_modify, mem_erase, keys_modify, nodup_keys_erase, insert, ofFirst,
  ofFirst_of_nodup, mem_ofFirst, keys_ofFirst, mem_keys_ofFirst
-/
import Mathlib

namespace Dory.Foundation.KeyedList

variable {κ ν : Type}

/-- The keys, in iteration order. -/
def keys (entries : List (κ × ν)) : List κ :=
  entries.map Prod.fst

section Decidable

variable [DecidableEq κ]

/-- Replace the value under `key` by `change` of it, in place. -/
def modify (entries : List (κ × ν)) (key : κ) (change : ν → ν) : List (κ × ν) :=
  entries.map fun entry => if entry.1 = key then (entry.1, change entry.2) else entry

/-- Remove the entry under `key`. -/
def erase (entries : List (κ × ν)) (key : κ) : List (κ × ν) :=
  entries.filter fun entry => entry.1 ≠ key

end Decidable

@[simp] theorem keys_nil : keys ([] : List (κ × ν)) = [] := rfl

@[simp] theorem keys_append (first second : List (κ × ν)) :
    keys (first ++ second) = keys first ++ keys second := by
  simp [keys]

@[simp] theorem keys_singleton (key : κ) (value : ν) : keys [(key, value)] = [key] := rfl

@[simp] theorem keys_map_value {μ : Type} (entries : List (κ × ν)) (change : κ × ν → μ) :
    keys (entries.map fun entry => (entry.1, change entry)) = keys entries := by
  simp [keys, Function.comp_def]

theorem mem_keys {entries : List (κ × ν)} {key : κ} :
    key ∈ keys entries ↔ ∃ value, (key, value) ∈ entries := by
  simp [keys]

theorem mem_keys_of_mem {entries : List (κ × ν)} {key : κ} {value : ν}
    (member : (key, value) ∈ entries) : key ∈ keys entries :=
  mem_keys.mpr ⟨value, member⟩

section Decidable

variable [DecidableEq κ]

/-- A found value is stored under its key. -/
theorem mem_of_lookup {entries : List (κ × ν)} {key : κ} {value : ν}
    (found : entries.lookup key = some value) : (key, value) ∈ entries := by
  obtain ⟨before, after, rfl, -⟩ := List.lookup_eq_some_iff.mp found
  simp

end Decidable

/-- With unique keys, one key has one value. -/
theorem eq_of_mem {entries : List (κ × ν)} (unique : (keys entries).Nodup) {key : κ}
    {first second : ν} (one : (key, first) ∈ entries) (two : (key, second) ∈ entries) :
    first = second := by
  induction entries with
  | nil => simp at one
  | cons entry rest inductionHypothesis =>
      simp only [keys, List.map_cons, List.nodup_cons] at unique
      rcases List.mem_cons.mp one with same | laterOne <;>
        rcases List.mem_cons.mp two with same' | laterTwo
      · rw [← same] at same'
        exact (Prod.mk.inj same').2.symm
      · subst same
        exact absurd (List.mem_map.mpr ⟨_, laterTwo, rfl⟩) unique.1
      · subst same'
        exact absurd (List.mem_map.mpr ⟨_, laterOne, rfl⟩) unique.1
      · exact inductionHypothesis unique.2 laterOne laterTwo

section Decidable

variable [DecidableEq κ]

/-- With unique keys, a stored value is the one lookup finds. -/
theorem lookup_of_mem {entries : List (κ × ν)} (unique : (keys entries).Nodup) {key : κ}
    {value : ν} (member : (key, value) ∈ entries) : entries.lookup key = some value := by
  cases found : entries.lookup key with
  | none =>
      rw [List.lookup_eq_none_iff] at found
      simpa using found _ member
  | some other =>
      exact congrArg some (eq_of_mem unique (mem_of_lookup found) member)

theorem lookup_eq_none {entries : List (κ × ν)} {key : κ} :
    entries.lookup key = none ↔ key ∉ keys entries := by
  rw [List.lookup_eq_none_iff, mem_keys]
  constructor
  · rintro absent ⟨value, member⟩
    simpa using absent _ member
  · intro absent entry member
    simp only [bne_iff_ne, ne_eq]
    rintro rfl
    exact absent ⟨entry.2, member⟩

@[simp] theorem keys_modify (entries : List (κ × ν)) (key : κ) (change : ν → ν) :
    keys (modify entries key change) = keys entries := by
  simp only [keys, modify, List.map_map]
  congr 1
  funext entry
  by_cases same : entry.1 = key <;> simp [same]

theorem mem_modify {entries : List (κ × ν)} {key : κ} {change : ν → ν} {entry : κ × ν} :
    entry ∈ modify entries key change ↔
      (entry.1 ≠ key ∧ entry ∈ entries) ∨
      (entry.1 = key ∧ ∃ value, (key, value) ∈ entries ∧ entry.2 = change value) := by
  simp only [modify, List.mem_map]
  constructor
  · rintro ⟨original, member, rfl⟩
    by_cases same : original.1 = key
    · subst same
      exact Or.inr ⟨by simp, original.2, member, by simp⟩
    · exact Or.inl ⟨by simp [same], by simpa [same] using member⟩
  · rintro (⟨other, member⟩ | ⟨same, value, member, changed⟩)
    · exact ⟨entry, member, by simp [other]⟩
    · refine ⟨(key, value), member, ?_⟩
      obtain ⟨first, second⟩ := entry
      simp only at same changed
      simp [same, changed]

theorem mem_erase {entries : List (κ × ν)} {key : κ} {entry : κ × ν} :
    entry ∈ erase entries key ↔ entry ∈ entries ∧ entry.1 ≠ key := by
  simp [erase]

theorem nodup_keys_erase {entries : List (κ × ν)} (unique : (keys entries).Nodup) (key : κ) :
    (keys (erase entries key)).Nodup := by
  exact List.Nodup.sublist (List.Sublist.map _ List.filter_sublist) unique

/-- Changing one key leaves the lookup of every other key as it was. -/
theorem lookup_modify_of_ne {entries : List (κ × ν)} {key other : κ} (change : ν → ν)
    (different : other ≠ key) : (modify entries key change).lookup other = entries.lookup other := by
  induction entries with
  | nil => rfl
  | cons entry rest inductionHypothesis =>
      obtain ⟨first, value⟩ := entry
      by_cases same : first = key
      · subst same
        have skipped : (other == first) = false := by simpa using different
        simp only [modify, List.map_cons, if_true] at inductionHypothesis ⊢
        rw [List.lookup_cons, List.lookup_cons, skipped]
        exact inductionHypothesis
      · simp only [modify, List.map_cons, same, if_false] at inductionHypothesis ⊢
        rw [List.lookup_cons, List.lookup_cons, inductionHypothesis]

theorem lookup_erase_of_ne {entries : List (κ × ν)} {key other : κ} (different : other ≠ key) :
    (erase entries key).lookup other = entries.lookup other := by
  induction entries with
  | nil => rfl
  | cons entry rest inductionHypothesis =>
      obtain ⟨first, value⟩ := entry
      by_cases same : first = key
      · subst same
        have skipped : (other == first) = false := by simpa using different
        simp only [erase, List.filter_cons, ne_eq, not_true_eq_false, decide_false,
          Bool.false_eq_true, if_false] at inductionHypothesis ⊢
        rw [List.lookup_cons, skipped]
        exact inductionHypothesis
      · simp only [erase, List.filter_cons, ne_eq, same, not_false_eq_true, decide_true,
          if_true] at inductionHypothesis ⊢
        rw [List.lookup_cons, List.lookup_cons, inductionHypothesis]

@[simp] theorem lookup_erase_self (entries : List (κ × ν)) (key : κ) :
    (erase entries key).lookup key = none := by
  rw [lookup_eq_none, mem_keys]
  rintro ⟨value, member⟩
  exact (mem_erase.mp member).2 rfl

/-- Changing the value under `key` is what its lookup then finds. -/
theorem lookup_modify_self (entries : List (κ × ν)) (key : κ) (change : ν → ν) :
    (modify entries key change).lookup key = (entries.lookup key).map change := by
  induction entries with
  | nil => rfl
  | cons entry rest inductionHypothesis =>
      obtain ⟨first, value⟩ := entry
      by_cases same : first = key
      · subst same
        simp [modify]
      · have skipped : (key == first) = false := by simpa using Ne.symm same
        simp only [modify, List.map_cons, same, if_false] at inductionHypothesis ⊢
        rw [List.lookup_cons, List.lookup_cons, skipped, inductionHypothesis]

@[simp] theorem erase_modify_self (entries : List (κ × ν)) (key : κ) (change : ν → ν) :
    erase (modify entries key change) key = erase entries key := by
  induction entries with
  | nil => rfl
  | cons entry rest inductionHypothesis =>
      obtain ⟨first, value⟩ := entry
      by_cases same : first = key
      · subst same
        simpa [modify, erase] using inductionHypothesis
      · simpa [modify, erase, same] using inductionHypothesis

theorem erase_of_not_mem {entries : List (κ × ν)} {key : κ} (absent : key ∉ keys entries) :
    erase entries key = entries := by
  rw [erase, List.filter_eq_self]
  intro entry member
  have present := mem_keys_of_mem (show (entry.1, entry.2) ∈ entries from member)
  simp only [ne_eq, decide_eq_true_eq]
  rintro rfl
  exact absent present

/-- With unique keys, the pieces of all entries are those of the entry under
`key` and those of the others, up to order. -/
theorem flatMap_perm_of_lookup {α : Type} {entries : List (κ × ν)} (unique : (keys entries).Nodup)
    {key : κ} {value : ν} (found : entries.lookup key = some value) (pieces : κ × ν → List α) :
    (entries.flatMap pieces).Perm (pieces (key, value) ++ (erase entries key).flatMap pieces) := by
  induction entries with
  | nil => simp at found
  | cons entry rest inductionHypothesis =>
      obtain ⟨first, stored⟩ := entry
      simp only [keys, List.map_cons, List.nodup_cons] at unique
      by_cases same : first = key
      · -- the entry under `key` comes first, and the rest has no other
        subst same
        have storedEq : stored = value := by simpa [List.lookup_cons] using found
        have erased : erase ((first, stored) :: rest) first = rest := by
          rw [← erase_of_not_mem unique.1]
          simp [erase]
        rw [erased, List.flatMap_cons, storedEq]
      · have skipped : (key == first) = false := by simpa using Ne.symm same
        rw [List.lookup_cons, skipped] at found
        have later := inductionHypothesis unique.2 found
        have kept : erase ((first, stored) :: rest) key = (first, stored) :: erase rest key := by
          simp [erase, same]
        rw [kept, List.flatMap_cons, List.flatMap_cons]
        exact (later.append_left _).trans (List.perm_append_comm_assoc _ _ _)

/-- On a list where `key` tells the elements apart, searching for the key of
a member finds that member. -/
theorem find?_key_of_mem {β : Type} (key : β → κ) {elements : List β}
    (unique : (elements.map key).Nodup) {x : β} (member : x ∈ elements) :
    elements.find? (fun y => key y == key x) = some x := by
  induction elements with
  | nil => simp at member
  | cons y ys inductionHypothesis =>
      simp only [List.map_cons, List.nodup_cons] at unique
      rcases List.mem_cons.mp member with rfl | later
      · simp
      · have different : key y ≠ key x := fun same =>
          unique.1 (same ▸ List.mem_map.mpr ⟨x, later, rfl⟩)
        rw [List.find?_cons_of_neg (by simpa using different)]
        exact inductionHypothesis unique.2 later

/-- Dropping the entries whose keys occur in a prefix leaves the rest, when
keys are unique. -/
theorem filter_not_mem_keys_append {first second : List (κ × ν)}
    (unique : (keys (first ++ second)).Nodup) :
    (first ++ second).filter (fun entry => decide (entry.1 ∉ keys first)) = second := by
  rw [keys_append, List.nodup_append] at unique
  rw [List.filter_append]
  have dropped : first.filter (fun entry => decide (entry.1 ∉ keys first)) = [] := by
    rw [List.filter_eq_nil_iff]
    intro entry member
    simpa using mem_keys_of_mem (show (entry.1, entry.2) ∈ first from member)
  have kept : second.filter (fun entry => decide (entry.1 ∉ keys first)) = second := by
    rw [List.filter_eq_self]
    intro entry member
    simp only [decide_eq_true_eq]
    intro earlier
    exact unique.2.2 _ earlier _ (mem_keys_of_mem (show (entry.1, entry.2) ∈ second from member)) rfl
  rw [dropped, kept, List.nil_append]

end Decidable

/-!
### Groups

A keyed list whose values hold the elements of their key, as a hash map of
per-key lists holds a stream grouped by key.  Read back for one key, the
concatenation of the groups is that key's group.
-/

section Groups

variable {α : Type} [DecidableEq κ]

/-- The elements stored under `key`, empty when the key is absent. -/
def groupOf (entries : List (κ × ν)) (elements : ν → List α) (key : κ) : List α :=
  ((entries.lookup key).map elements).getD []

theorem groupOf_of_mem {entries : List (κ × ν)} (unique : (keys entries).Nodup)
    (elements : ν → List α) {key : κ} {value : ν} (member : (key, value) ∈ entries) :
    groupOf entries elements key = elements value := by
  simp [groupOf, lookup_of_mem unique member]

theorem groupOf_of_not_mem {entries : List (κ × ν)} (elements : ν → List α) {key : κ}
    (absent : key ∉ keys entries) : groupOf entries elements key = [] := by
  simp [groupOf, lookup_eq_none.mpr absent]

variable (keyOf : α → κ) {entries : List (κ × ν)} {elements : ν → List α}

/-- Every group holds elements of its own key. -/
def Grouped (entries : List (κ × ν)) (elements : ν → List α) : Prop :=
  ∀ key value, (key, value) ∈ entries → ∀ x ∈ elements value, keyOf x = key

variable {keyOf}

theorem Grouped.groupOf (grouped : Grouped keyOf entries elements) (key : κ) :
    ∀ x ∈ groupOf entries elements key, keyOf x = key := by
  unfold KeyedList.groupOf
  cases found : entries.lookup key with
  | none =>
      intro x member
      simp at member
  | some value => exact grouped key value (mem_of_lookup found)

/-- The concatenated groups, read back for one key, are that key's group. -/
theorem filter_flatMap_eq_groupOf (unique : (keys entries).Nodup)
    (grouped : Grouped keyOf entries elements) (key : κ) :
    (entries.flatMap fun entry => elements entry.2).filter (fun x => keyOf x == key) =
      groupOf entries elements key := by
  induction entries with
  | nil => rfl
  | cons entry rest inductionHypothesis =>
      obtain ⟨first, value⟩ := entry
      simp only [keys, List.map_cons, List.nodup_cons] at unique
      have restGrouped : Grouped keyOf rest elements :=
        fun other stored member => grouped other stored (List.mem_cons_of_mem _ member)
      have own := grouped first value List.mem_cons_self
      rw [List.flatMap_cons, List.filter_append, inductionHypothesis unique.2 restGrouped]
      by_cases same : first = key
      · -- the first group is the key's; no later group holds the key
        subst same
        rw [List.filter_eq_self.mpr (fun x member => by simp [own x member]),
          groupOf_of_not_mem elements unique.1]
        simp [KeyedList.groupOf]
      · rw [List.filter_eq_nil_iff.mpr (fun x member => by simp [own x member, same]),
          List.nil_append]
        have skipped : (key == first) = false := by simpa using Ne.symm same
        simp only [KeyedList.groupOf, List.lookup_cons, skipped]

/-- The groups of distinct keys, concatenated and read back for one key. -/
theorem filter_flatten_groupOf (grouped : Grouped keyOf entries elements) {chosen : List κ}
    (distinct : chosen.Nodup) (key : κ) :
    (chosen.map (groupOf entries elements)).flatten.filter (fun x => keyOf x == key) =
      if key ∈ chosen then groupOf entries elements key else [] := by
  induction chosen with
  | nil => simp
  | cons first rest inductionHypothesis =>
      simp only [List.nodup_cons] at distinct
      have own := grouped.groupOf first
      rw [List.map_cons, List.flatten_cons, List.filter_append, inductionHypothesis distinct.2]
      by_cases same : first = key
      · subst same
        rw [List.filter_eq_self.mpr (fun x member => by simp [own x member]), if_neg distinct.1,
          if_pos List.mem_cons_self, List.append_nil]
      · rw [List.filter_eq_nil_iff.mpr (fun x member => by simp [own x member, same]),
          List.nil_append]
        simp [Ne.symm same]

end Groups

/-- Concatenating the nonempty lists is concatenating all of them. -/
theorem flatten_filterMap_nonempty {β α : Type} (items : List β) (elements : β → List α) :
    (items.filterMap fun item =>
        if (elements item).isEmpty then none else some (elements item)).flatten =
      items.flatMap elements := by
  induction items with
  | nil => rfl
  | cons item rest inductionHypothesis =>
      rw [List.filterMap_cons, List.flatMap_cons]
      cases empty : (elements item).isEmpty with
      | true =>
          simp only [if_true]
          rw [List.isEmpty_iff.mp empty, List.nil_append]
          exact inductionHypothesis
      | false =>
          simp only [Bool.false_eq_true, if_false, List.flatten_cons]
          rw [inductionHypothesis]

/-!
### Insertion that keeps the first value

`std::unordered_map::insert` adds a key that is not present and leaves a
present key with its value.  Inserting items one after another under their
keys keeps the first item of each key (`ofFirst`).
-/

section Insertion

variable [DecidableEq κ]

/-- Add a key that is not present; a present key keeps its value. -/
def insert (entries : List (κ × ν)) (key : κ) (value : ν) : List (κ × ν) :=
  if key ∈ keys entries then entries else entries ++ [(key, value)]

theorem insert_of_mem {entries : List (κ × ν)} {key : κ} (present : key ∈ keys entries) (value : ν) :
    insert entries key value = entries :=
  if_pos present

theorem insert_of_not_mem {entries : List (κ × ν)} {key : κ} (absent : key ∉ keys entries) (value : ν) :
    insert entries key value = entries ++ [(key, value)] :=
  if_neg absent

@[simp] theorem mem_keys_insert {entries : List (κ × ν)} {key other : κ} {value : ν} :
    other ∈ keys (insert entries key value) ↔ other ∈ keys entries ∨ other = key := by
  by_cases present : key ∈ keys entries
  · rw [insert_of_mem present]
    constructor
    · exact Or.inl
    · rintro (member | rfl)
      · exact member
      · exact present
  · simp [insert_of_not_mem present]

/-- The items inserted one after another under their keys: the first item
of each key, in the order of their first appearance. -/
def ofFirst {α : Type} (key : α → κ) (items : List α) : List (κ × α) :=
  items.foldl (fun entries item => insert entries (key item) item) []

variable {α : Type} {key : α → κ}

@[simp] theorem ofFirst_nil : ofFirst key [] = [] := rfl

theorem ofFirst_append_singleton (items : List α) (item : α) :
    ofFirst key (items ++ [item]) = insert (ofFirst key items) (key item) item := by
  simp [ofFirst]

/-- With keys that differ, every item is the first of its key. -/
theorem ofFirst_of_nodup {items : List α} (unique : (items.map key).Nodup) :
    ofFirst key items = items.map fun item => (key item, item) := by
  induction items using List.reverseRecOn with
  | nil => rfl
  | append_singleton init last ih =>
      rw [List.map_append, List.nodup_append] at unique
      have absent : key last ∉ keys (ofFirst key init) := by
        rw [ih unique.1]
        simpa [keys] using fun item member same => unique.2.2 _ (List.mem_map_of_mem member) _ (by simp) same
      rw [ofFirst_append_singleton, insert_of_not_mem absent, ih unique.1, List.map_append]
      rfl

/-- Every entry holds one of the items, under that item's key. -/
theorem mem_ofFirst {items : List α} {entry : κ × α} (member : entry ∈ ofFirst key items) :
    entry.2 ∈ items ∧ key entry.2 = entry.1 := by
  induction items using List.reverseRecOn with
  | nil => simp at member
  | append_singleton init last ih =>
      rw [ofFirst_append_singleton] at member
      by_cases present : key last ∈ keys (ofFirst key init)
      · rw [insert_of_mem present] at member
        exact ⟨List.mem_append_left _ (ih member).1, (ih member).2⟩
      · rw [insert_of_not_mem present] at member
        rcases List.mem_append.mp member with old | new
        · exact ⟨List.mem_append_left _ (ih old).1, (ih old).2⟩
        · rw [List.mem_singleton.mp new]
          exact ⟨List.mem_append_right _ List.mem_cons_self, rfl⟩

/-- The keys are the keys of the items kept. -/
theorem keys_ofFirst (items : List α) : keys (ofFirst key items) = ((ofFirst key items).map Prod.snd).map key := by
  rw [List.map_map, keys]
  exact List.map_congr_left fun entry member => (mem_ofFirst member).2.symm

@[simp] theorem mem_keys_ofFirst {items : List α} {k : κ} :
    k ∈ keys (ofFirst key items) ↔ ∃ item ∈ items, key item = k := by
  induction items using List.reverseRecOn with
  | nil => simp
  | append_singleton init last ih =>
      rw [ofFirst_append_singleton, mem_keys_insert, ih]
      simp only [List.mem_append, List.mem_singleton]
      constructor
      · rintro (⟨item, member, rfl⟩ | rfl)
        · exact ⟨item, .inl member, rfl⟩
        · exact ⟨last, .inr rfl, rfl⟩
      · rintro ⟨item, member | rfl, rfl⟩
        · exact .inl ⟨item, member, rfl⟩
        · exact .inr rfl

omit [DecidableEq κ] in
/-- Inserting the entries under new keys that stay distinct: the renamed
entries, in order. -/
theorem foldl_insert_rename {κ' : Type} [DecidableEq κ'] (rename : κ → κ') {entries : List (κ × ν)}
    (distinct : (keys (entries.map fun entry => (rename entry.1, entry.2))).Nodup) :
    entries.foldl (fun map entry => insert map (rename entry.1) entry.2) [] =
      entries.map fun entry => (rename entry.1, entry.2) := by
  induction entries using List.reverseRecOn with
  | nil => rfl
  | append_singleton init last ih =>
      rw [List.map_append, keys_append, List.nodup_append] at distinct
      have absent : rename last.1 ∉ keys (init.map fun entry => (rename entry.1, entry.2)) := fun member =>
        distinct.2.2 _ member _ (by simp [keys]) rfl
      rw [List.foldl_append, List.foldl_cons, List.foldl_nil, ih distinct.1, insert_of_not_mem absent,
        List.map_append]
      rfl

end Insertion

end Dory.Foundation.KeyedList
