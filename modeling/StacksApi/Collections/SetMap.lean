import Mathlib.Data.List.Nodup
import Mathlib.Data.List.Lookmap

/-!
# Maps to shared sets

A map from keys to sets that are changed in place.  A set is an object of its
own: who holds on to one sees its later changes, also when the map has dropped
it.  The map drops a set that has become empty, and a new set is another object.
-/

namespace StacksApi.Collections

universe u v

variable {κ : Type u} {α : Type v}

theorem lookup_eq_some_iff_mem [DecidableEq κ] {entries : List (κ × α)}
    (distinct : (entries.map Prod.fst).Nodup) {key : κ} {value : α} :
    entries.lookup key = some value ↔ (key, value) ∈ entries := by
  induction entries with
  | nil => simp
  | cons entry entries ih =>
      rw [List.map_cons, List.nodup_cons] at distinct
      rw [List.lookup_cons, List.mem_cons]
      by_cases same : key = entry.1
      · have absent : (key, value) ∉ entries := by
          intro mem
          apply distinct.1
          rw [← same]
          exact List.mem_map_of_mem mem
        simp [same, Prod.ext_iff, eq_comm, same ▸ absent]
      · simp [same, ih distinct.2, Prod.ext_iff, beq_eq_false_iff_ne.mpr same]

theorem lookup_eq_none_iff_notMem [DecidableEq κ] {entries : List (κ × α)} {key : κ} :
    entries.lookup key = none ↔ key ∉ entries.map Prod.fst := by
  rw [List.lookup_eq_none_iff, List.mem_map]
  constructor
  · rintro differs ⟨entry, mem, rfl⟩
    simpa using differs entry mem
  · intro absent entry mem
    rw [bne_iff_ne]
    rintro rfl
    exact absent ⟨entry, mem, rfl⟩

/-- A set in the order in which its elements were added. -/
def addToSet [DecidableEq α] (value : α) (set : List α) : List α :=
  if value ∈ set then set else set ++ [value]

section AddToSet

variable [DecidableEq α] {value other : α} {set : List α}

@[simp]
theorem mem_addToSet : other ∈ addToSet value set ↔ other = value ∨ other ∈ set := by
  unfold addToSet
  split
  · next mem =>
      constructor
      · exact Or.inr
      · rintro (rfl | old)
        · exact mem
        · exact old
  · simp [or_comm]

theorem nodup_addToSet (nodup : set.Nodup) : (addToSet value set).Nodup := by
  unfold addToSet
  split
  · exact nodup
  · next absent => exact nodup.append (List.nodup_singleton value) (by simpa using absent)

theorem addToSet_ne_nil : addToSet value set ≠ [] :=
  List.ne_nil_of_mem (mem_addToSet.mpr (Or.inl rfl))

end AddToSet

/-- Sets are named by their place in `sets`, which keeps those that were dropped. -/
structure SetMap (κ : Type u) (α : Type v) where
  sets : List (List α)
  keys : List (κ × Nat)
  nodup : ∀ set ∈ sets, set.Nodup
  distinctKeys : (keys.map Prod.fst).Nodup
  distinctSets : (keys.map Prod.snd).Nodup
  allocated : ∀ entry ∈ keys, entry.2 < sets.length
  occupied : ∀ entry ∈ keys, sets.getD entry.2 [] ≠ []

namespace SetMap

/-- The map without keys. -/
def empty : SetMap κ α where
  sets := []
  keys := []
  nodup := by simp
  distinctKeys := List.nodup_nil
  distinctSets := List.nodup_nil
  allocated := by simp
  occupied := by simp

/-- The present elements of a set. -/
def setOf (map : SetMap κ α) (set : Nat) : List α :=
  map.sets.getD set []

theorem nodup_setOf (map : SetMap κ α) (set : Nat) : (map.setOf set).Nodup := by
  rw [setOf, List.getD_eq_getElem?_getD]
  cases found : map.sets[set]? with
  | none => exact List.nodup_nil
  | some elements => exact map.nodup elements (List.mem_of_getElem? found)

variable [DecidableEq κ]

/-- The set that a key has. -/
def find (map : SetMap κ α) (key : κ) : Option Nat :=
  map.keys.lookup key

/-- The elements of the set that a key has. -/
def get (map : SetMap κ α) (key : κ) : Option (List α) :=
  (map.find key).map map.setOf

/-- The keys with the elements of their sets. -/
def entries (map : SetMap κ α) : List (κ × List α) :=
  map.keys.map fun entry => (entry.1, map.setOf entry.2)

/-- The elements of a key, none when it has no set. -/
def members (map : SetMap κ α) (key : κ) : List α :=
  (map.get key).getD []

variable {map : SetMap κ α} {key other : κ} {value : α} {set : Nat}

theorem find_eq_some_iff : map.find key = some set ↔ (key, set) ∈ map.keys :=
  lookup_eq_some_iff_mem map.distinctKeys

theorem find_lt (found : map.find key = some set) : set < map.sets.length :=
  map.allocated (key, set) (find_eq_some_iff.mp found)

theorem setOf_ne_nil (found : map.find key = some set) : map.setOf set ≠ [] :=
  map.occupied (key, set) (find_eq_some_iff.mp found)

/-- Two keys do not share a set. -/
theorem find_injective (found : map.find key = some set) (foundOther : map.find other = some set) :
    key = other := by
  have same := List.inj_on_of_nodup_map map.distinctSets (find_eq_some_iff.mp found)
    (find_eq_some_iff.mp foundOther) rfl
  exact congrArg Prod.fst same

theorem lookup_entries (map : SetMap κ α) (key : κ) : map.entries.lookup key = map.get key := by
  unfold entries get find
  induction map.keys with
  | nil => rfl
  | cons entry keys ih =>
      rw [List.map_cons, List.lookup_cons, List.lookup_cons]
      cases key == entry.1 with
      | true => rfl
      | false => exact ih

/-- The keys are distinct, their sets are not empty and have no element twice. -/
theorem get_ne_nil {elements : List α} (found : map.get key = some elements) :
    elements ≠ [] ∧ elements.Nodup := by
  obtain ⟨set, isSet, rfl⟩ := Option.map_eq_some_iff.mp found
  exact ⟨setOf_ne_nil isSet, map.nodup_setOf set⟩

theorem members_of_find (found : map.find key = some set) : map.members key = map.setOf set := by
  rw [members, get, found]
  rfl

theorem members_of_find_none (absent : map.find key = none) : map.members key = [] := by
  rw [members, get, absent]
  rfl

theorem nodup_members (map : SetMap κ α) (key : κ) : (map.members key).Nodup := by
  cases found : map.find key with
  | none =>
      rw [members_of_find_none found]
      exact List.nodup_nil
  | some set =>
      rw [members_of_find found]
      exact map.nodup_setOf set

/-! ### Changes in place -/

/-- A set gets other elements. -/
def replace (map : SetMap κ α) (set : Nat) (elements : List α) (nodup : elements.Nodup)
    (nonempty : elements ≠ []) : SetMap κ α where
  sets := map.sets.set set elements
  keys := map.keys
  nodup := by
    intro stored mem
    rcases List.mem_or_eq_of_mem_set mem with old | rfl
    · exact map.nodup stored old
    · exact nodup
  distinctKeys := map.distinctKeys
  distinctSets := map.distinctSets
  allocated := by
    intro entry mem
    rw [List.length_set]
    exact map.allocated entry mem
  occupied := by
    intro entry mem
    rw [List.getD_eq_getElem?_getD, List.getElem?_set]
    have allocated := map.allocated entry mem
    by_cases same : set = entry.2
    · simpa [same, allocated] using nonempty
    · simpa [same, List.getD_eq_getElem?_getD] using map.occupied entry mem

/-- A key without a set gets a new one. -/
def allocate (map : SetMap κ α) (key : κ) (absent : map.find key = none) (elements : List α)
    (nodup : elements.Nodup) (nonempty : elements ≠ []) : SetMap κ α where
  sets := map.sets ++ [elements]
  keys := map.keys ++ [(key, map.sets.length)]
  nodup := by
    intro stored mem
    rcases List.mem_append.mp mem with old | new
    · exact map.nodup stored old
    · rw [List.mem_singleton.mp new]
      exact nodup
  distinctKeys := by
    rw [List.map_append]
    apply map.distinctKeys.append (List.nodup_singleton key)
    simpa using lookup_eq_none_iff_notMem.mp absent
  distinctSets := by
    rw [List.map_append]
    apply map.distinctSets.append (List.nodup_singleton map.sets.length)
    intro set mem new
    obtain ⟨entry, entryMem, rfl⟩ := List.mem_map.mp mem
    have bound := map.allocated entry entryMem
    rw [List.mem_singleton.mp new] at bound
    exact Nat.lt_irrefl _ bound
  allocated := by
    intro entry mem
    rw [List.length_append, List.length_singleton]
    rcases List.mem_append.mp mem with old | new
    · exact Nat.lt_succ_of_lt (map.allocated entry old)
    · rw [List.mem_singleton.mp new]
      exact Nat.lt_succ_self _
  occupied := by
    intro entry mem
    rcases List.mem_append.mp mem with old | new
    · rw [List.getD_eq_getElem?_getD, List.getElem?_append_left (map.allocated entry old),
        ← List.getD_eq_getElem?_getD]
      exact map.occupied entry old
    · rw [List.mem_singleton.mp new]
      simpa [List.getD_eq_getElem?_getD] using nonempty

/-- A key loses its set, which is left empty. -/
def drop (map : SetMap κ α) (key : κ) (set : Nat) (found : map.find key = some set) :
    SetMap κ α where
  sets := map.sets.set set []
  keys := map.keys.filter fun entry => entry.1 ≠ key
  nodup := by
    intro stored mem
    rcases List.mem_or_eq_of_mem_set mem with old | rfl
    · exact map.nodup stored old
    · exact List.nodup_nil
  distinctKeys := map.distinctKeys.sublist (List.filter_sublist.map Prod.fst)
  distinctSets := map.distinctSets.sublist (List.filter_sublist.map Prod.snd)
  allocated := by
    intro entry mem
    rw [List.length_set]
    exact map.allocated entry (List.mem_of_mem_filter mem)
  occupied := by
    intro entry mem
    obtain ⟨old, kept⟩ := List.mem_filter.mp mem
    have differs : set ≠ entry.2 := by
      rintro rfl
      apply of_decide_eq_true kept
      exact find_injective (find_eq_some_iff.mpr old) found
    rw [List.getD_eq_getElem?_getD, List.getElem?_set_ne differs, ← List.getD_eq_getElem?_getD]
    exact map.occupied entry old

section Changes

variable {elements : List α} {nodup : elements.Nodup} {nonempty : elements ≠ []}

@[simp]
theorem find_replace : (map.replace set elements nodup nonempty).find key = map.find key :=
  rfl

omit [DecidableEq κ] in
theorem setOf_replace_self (allocated : set < map.sets.length) :
    (map.replace set elements nodup nonempty).setOf set = elements := by
  simp [setOf, replace, allocated]

omit [DecidableEq κ] in
theorem setOf_replace_of_ne {changed : Nat} (differs : changed ≠ set) :
    (map.replace changed elements nodup nonempty).setOf set = map.setOf set := by
  simp [setOf, replace, List.getD_eq_getElem?_getD, List.getElem?_set_ne differs]

theorem find_allocate_self (absent : map.find key = none) :
    (map.allocate key absent elements nodup nonempty).find key = some map.sets.length := by
  rw [find_eq_some_iff]
  exact List.mem_append_right _ (List.mem_singleton_self _)

theorem find_allocate_of_ne (absent : map.find key = none) (differs : other ≠ key) :
    (map.allocate key absent elements nodup nonempty).find other = map.find other := by
  ext set
  rw [find_eq_some_iff, find_eq_some_iff, allocate, List.mem_append, List.mem_singleton]
  simp [differs]

theorem setOf_allocate_self (absent : map.find key = none) :
    (map.allocate key absent elements nodup nonempty).setOf map.sets.length = elements := by
  simp [setOf, allocate]

theorem setOf_allocate_of_lt (absent : map.find key = none) (old : set < map.sets.length) :
    (map.allocate key absent elements nodup nonempty).setOf set = map.setOf set := by
  simp [setOf, allocate, List.getD_eq_getElem?_getD, List.getElem?_append_left old]

theorem find_drop_self (found : map.find key = some set) :
    (map.drop key set found).find key = none := by
  rw [find, lookup_eq_none_iff_notMem, drop]
  simp

theorem find_drop_of_ne (found : map.find key = some set) (differs : other ≠ key) :
    (map.drop key set found).find other = map.find other := by
  ext otherSet
  rw [find_eq_some_iff, find_eq_some_iff, drop, List.mem_filter]
  simp [differs]

theorem setOf_drop_of_ne {dropped : Nat} (found : map.find key = some dropped)
    (differs : dropped ≠ set) : (map.drop key dropped found).setOf set = map.setOf set := by
  simp [setOf, drop, List.getD_eq_getElem?_getD, List.getElem?_set_ne differs]

/-- A set is looked up by its key only: what other keys have stays. -/
theorem members_of_same_find {map' : SetMap κ α} (same : map'.find key = map.find key)
    (kept : ∀ set, map.find key = some set → map'.setOf set = map.setOf set) :
    map'.members key = map.members key := by
  cases found : map.find key with
  | none => rw [members_of_find_none (same.trans found), members_of_find_none found]
  | some set =>
      rw [members_of_find (same.trans found), members_of_find found, kept set found]

end Changes

variable [DecidableEq α]

/-- The value joins the set of the key, which is created when there is none. -/
def insert (map : SetMap κ α) (key : κ) (value : α) : SetMap κ α :=
  match absent : map.find key with
  | some set =>
      map.replace set (addToSet value (map.setOf set)) (nodup_addToSet (map.nodup_setOf set))
        addToSet_ne_nil
  | none =>
      map.allocate key absent (addToSet value []) (nodup_addToSet List.nodup_nil) addToSet_ne_nil

/-- The value leaves the set of the key, which is dropped when it was the last. -/
def erase (map : SetMap κ α) (key : κ) (value : α) : SetMap κ α :=
  match found : map.find key with
  | some set =>
      if nonempty : (map.setOf set).erase value ≠ [] then
        map.replace set ((map.setOf set).erase value) ((map.nodup_setOf set).erase value) nonempty
      else map.drop key set found
  | none => map

theorem insert_of_find (found : map.find key = some set) :
    map.insert key value = map.replace set (addToSet value (map.setOf set))
      (nodup_addToSet (map.nodup_setOf set)) addToSet_ne_nil := by
  unfold insert
  split
  · next stored isSet =>
      obtain rfl := Option.some.inj (isSet.symm.trans found)
      rfl
  · next absent => exact absurd (found.symm.trans absent) nofun

theorem insert_of_find_none (absent : map.find key = none) :
    map.insert key value = map.allocate key absent (addToSet value [])
      (nodup_addToSet List.nodup_nil) addToSet_ne_nil := by
  unfold insert
  split
  · next isSet => exact absurd (isSet.symm.trans absent) nofun
  · rfl

theorem erase_of_find_none (absent : map.find key = none) : map.erase key value = map := by
  unfold erase
  split
  · next isSet => exact absurd (isSet.symm.trans absent) nofun
  · rfl

theorem erase_of_ne_nil (found : map.find key = some set)
    (nonempty : (map.setOf set).erase value ≠ []) :
    map.erase key value = map.replace set ((map.setOf set).erase value)
      ((map.nodup_setOf set).erase value) nonempty := by
  unfold erase
  split
  · next stored isSet =>
      obtain rfl := Option.some.inj (isSet.symm.trans found)
      exact dif_pos nonempty
  · next absent => exact absurd (found.symm.trans absent) nofun

theorem erase_of_eq_nil (found : map.find key = some set)
    (last : (map.setOf set).erase value = []) :
    map.erase key value = map.drop key set found := by
  unfold erase
  split
  · next stored isSet =>
      obtain rfl := Option.some.inj (isSet.symm.trans found)
      exact dif_neg (fun nonempty => nonempty last)
  · next absent => exact absurd (found.symm.trans absent) nofun

/-! ### The elements after a change -/

theorem members_insert_self : (map.insert key value).members key =
    addToSet value (map.members key) := by
  cases found : map.find key with
  | none =>
      rw [insert_of_find_none found, members_of_find (find_allocate_self found),
        setOf_allocate_self, members_of_find_none found]
  | some set =>
      rw [insert_of_find found, members_of_find (find_replace.trans found),
        setOf_replace_self (find_lt found), members_of_find found]

theorem members_erase_self : (map.erase key value).members key =
    (map.members key).erase value := by
  cases found : map.find key with
  | none =>
      rw [erase_of_find_none found, members_of_find_none found]
      rfl
  | some set =>
      rw [members_of_find found]
      by_cases last : (map.setOf set).erase value = []
      · rw [erase_of_eq_nil found last, members_of_find_none (find_drop_self found), last]
      · rw [erase_of_ne_nil found last, members_of_find (find_replace.trans found),
          setOf_replace_self (find_lt found)]

theorem members_insert_of_ne (differs : other ≠ key) :
    (map.insert key value).members other = map.members other := by
  cases found : map.find key with
  | none =>
      rw [insert_of_find_none found]
      apply members_of_same_find (find_allocate_of_ne found differs)
      exact fun set isSet => setOf_allocate_of_lt found (find_lt isSet)
  | some changed =>
      rw [insert_of_find found]
      apply members_of_same_find find_replace
      intro set isSet
      apply setOf_replace_of_ne
      rintro rfl
      exact differs (find_injective isSet found)

theorem members_erase_of_ne (differs : other ≠ key) :
    (map.erase key value).members other = map.members other := by
  cases found : map.find key with
  | none => rw [erase_of_find_none found]
  | some changed =>
      have apart : ∀ set, map.find other = some set → changed ≠ set := by
        rintro set isSet rfl
        exact differs (find_injective isSet found)
      by_cases last : (map.setOf changed).erase value = []
      · rw [erase_of_eq_nil found last]
        apply members_of_same_find (find_drop_of_ne found differs)
        exact fun set isSet => setOf_drop_of_ne found (apart set isSet)
      · rw [erase_of_ne_nil found last]
        apply members_of_same_find find_replace
        exact fun set isSet => setOf_replace_of_ne (apart set isSet)

theorem mem_members_insert {added : α} : value ∈ (map.insert key added).members other ↔
    other = key ∧ value = added ∨ value ∈ map.members other := by
  by_cases same : other = key
  · subst same
    simp [members_insert_self]
  · simp [members_insert_of_ne same, same]

theorem mem_members_erase {removed : α} : value ∈ (map.erase key removed).members other ↔
    value ∈ map.members other ∧ ¬(other = key ∧ value = removed) := by
  by_cases same : other = key
  · subst same
    simp [members_erase_self, (map.nodup_members other).mem_erase_iff, and_comm]
  · simp [members_erase_of_ne same, same]

/-! ### The identity of sets -/

theorem find_insert (found : map.find other = some set) :
    (map.insert key value).find other = some set := by
  cases foundKey : map.find key with
  | none =>
      have differs : other ≠ key := by
        rintro rfl
        exact absurd (found.symm.trans foundKey) nofun
      rw [insert_of_find_none foundKey, find_allocate_of_ne foundKey differs, found]
  | some changed => rw [insert_of_find foundKey, find_replace, found]

/-- A key with an element left keeps its set. -/
theorem find_erase {removed : α} (found : map.find other = some set)
    (left : value ∈ (map.erase key removed).members other) :
    (map.erase key removed).find other = some set := by
  cases foundKey : map.find key with
  | none => rw [erase_of_find_none foundKey, found]
  | some changed =>
      by_cases last : (map.setOf changed).erase removed = []
      · have differs : other ≠ key := by
          rintro rfl
          rw [members_erase_self, members_of_find foundKey, last] at left
          exact absurd left List.not_mem_nil
        rw [erase_of_eq_nil foundKey last, find_drop_of_ne foundKey differs, found]
      · rw [erase_of_ne_nil foundKey last, find_replace, found]

/-! ### Sets that a key once had -/

/-- A set that no key has is empty. -/
def Tidy (map : SetMap κ α) : Prop :=
  ∀ set, (∀ key, map.find key ≠ some set) → map.setOf set = []

/-- The set is that of the key or of none. -/
structure Owned (map : SetMap κ α) (key : κ) (set : Nat) : Prop where
  allocated : set < map.sets.length
  owner : ∀ other, map.find other = some set → other = key

/-- What any changes of a map keep: sets are not given to other keys, and those that are
dropped are empty. -/
structure Evolves (map map' : SetMap κ α) : Prop where
  length_le : map.sets.length ≤ map'.sets.length
  find : ∀ key set, map'.find key = some set → set < map.sets.length → map.find key = some set
  tidy : map.Tidy → map'.Tidy

omit [DecidableEq α] in
theorem tidy_empty : (empty : SetMap κ α).Tidy :=
  fun _ _ => rfl

omit [DecidableEq α] in
theorem owned_of_find (found : map.find key = some set) : map.Owned key set where
  allocated := find_lt found
  owner _ foundOther := find_injective foundOther found

omit [DecidableEq α] in
theorem Owned.evolves {map' : SetMap κ α} (owned : map.Owned key set)
    (evolves : map.Evolves map') : map'.Owned key set where
  allocated := Nat.lt_of_lt_of_le owned.allocated evolves.length_le
  owner other found := owned.owner other (evolves.find other set found owned.allocated)

omit [DecidableEq α] in
theorem Evolves.refl (map : SetMap κ α) : map.Evolves map where
  length_le := Nat.le_refl _
  find _ _ found _ := found
  tidy := id

omit [DecidableEq α] in
theorem Evolves.trans {map' map'' : SetMap κ α} (first : map.Evolves map')
    (second : map'.Evolves map'') : map.Evolves map'' where
  length_le := Nat.le_trans first.length_le second.length_le
  find key set found old :=
    first.find key set (second.find key set found (Nat.lt_of_lt_of_le old first.length_le)) old
  tidy := fun tidy => second.tidy (first.tidy tidy)

omit [DecidableEq α] in
/-- A value in an owned set is among the members of the key. -/
theorem find_of_mem_setOf (tidy : map.Tidy) (owned : map.Owned key set)
    (mem : value ∈ map.setOf set) : map.find key = some set := by
  by_contra dropped
  have unowned : ∀ other, map.find other ≠ some set := by
    intro other found
    rw [owned.owner other found] at found
    exact dropped found
  rw [tidy set unowned] at mem
  cases mem

omit [DecidableEq α] in
theorem evolves_replace {elements : List α} {nodup : elements.Nodup} {nonempty : elements ≠ []}
    (found : map.find key = some set) : map.Evolves (map.replace set elements nodup nonempty) where
  length_le := Nat.le_of_eq List.length_set.symm
  find _ _ foundOther _ := foundOther
  tidy tidy other unowned := by
    have apart : set ≠ other := by
      rintro rfl
      exact unowned key found
    rw [setOf_replace_of_ne apart]
    exact tidy other unowned

omit [DecidableEq α] in
theorem evolves_allocate {elements : List α} {nodup : elements.Nodup} {nonempty : elements ≠ []}
    (absent : map.find key = none) :
    map.Evolves (map.allocate key absent elements nodup nonempty) where
  length_le := by
    rw [allocate, List.length_append]
    exact Nat.le_add_right _ _
  find other set found old := by
    by_cases same : other = key
    · rw [same, find_allocate_self absent] at found
      cases found
      exact absurd old (Nat.lt_irrefl _)
    · rw [find_allocate_of_ne absent same] at found
      exact found
  tidy tidy set unowned := by
    rcases Nat.lt_trichotomy set map.sets.length with old | rfl | beyond
    · rw [setOf_allocate_of_lt absent old]
      apply tidy set
      intro other found
      have differs : other ≠ key := by
        rintro rfl
        rw [absent] at found
        cases found
      exact unowned other ((find_allocate_of_ne absent differs).trans found)
    · exact absurd (find_allocate_self absent) (unowned key)
    · have unallocated : (map.allocate key absent elements nodup nonempty).sets.length ≤ set := by
        rw [allocate, List.length_append]
        exact beyond
      rw [setOf, List.getD_eq_getElem?_getD, List.getElem?_eq_none unallocated]
      rfl

omit [DecidableEq α] in
theorem evolves_drop (found : map.find key = some set) :
    map.Evolves (map.drop key set found) where
  length_le := Nat.le_of_eq List.length_set.symm
  find other otherSet foundOther _ := by
    by_cases same : other = key
    · rw [same, find_drop_self found] at foundOther
      cases foundOther
    · rw [find_drop_of_ne found same] at foundOther
      exact foundOther
  tidy tidy other unowned := by
    by_cases same : set = other
    · subst same
      rw [setOf, List.getD_eq_getElem?_getD, drop, List.getElem?_set_self']
      cases map.sets[set]? <;> rfl
    · rw [setOf_drop_of_ne found same]
      apply tidy other
      intro owner foundOther
      have differs : owner ≠ key := by
        rintro rfl
        exact same (Option.some.inj (found.symm.trans foundOther))
      exact unowned owner ((find_drop_of_ne found differs).trans foundOther)

theorem evolves_insert : map.Evolves (map.insert key value) := by
  cases found : map.find key with
  | some set =>
      rw [insert_of_find found]
      exact evolves_replace found
  | none =>
      rw [insert_of_find_none found]
      exact evolves_allocate found

theorem evolves_erase : map.Evolves (map.erase key value) := by
  cases found : map.find key with
  | none =>
      rw [erase_of_find_none found]
      exact Evolves.refl map
  | some set =>
      by_cases last : (map.setOf set).erase value = []
      · rw [erase_of_eq_nil found last]
        exact evolves_drop found
      · rw [erase_of_ne_nil found last]
        exact evolves_replace found

end SetMap

end StacksApi.Collections
