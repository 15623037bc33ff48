import Mathlib.Data.List.Induction
import StacksApi.Collections.SetMap

/-!
# Maps in the order of insertion

The entries of a map in the order in which their keys were first set.  A key that is
set again keeps its place, so that the order of the entries is not the order in which
their values were set.
-/

namespace StacksApi.Collections

universe u v w

variable {κ : Type u} {α : Type v} {β : Type w} [DecidableEq κ]

/-- `Map.set`: a new key comes last, a known one keeps its place. -/
def setEntry (key : κ) (value : α) : List (κ × α) → List (κ × α)
  | [] => [(key, value)]
  | entry :: entries =>
      if entry.1 = key then (key, value) :: entries else entry :: setEntry key value entries

/-- `[...map.values()]` -/
def mapValues (entries : List (κ × α)) : List α :=
  entries.map Prod.snd

/-- Replace every value. -/
def updateValues (f : α → β) (entries : List (κ × α)) : List (κ × β) :=
  entries.map fun entry => (entry.1, f entry.2)

variable {key other : κ} {value : α} {entries : List (κ × α)}

theorem keys_setEntry (key : κ) (value : α) (entries : List (κ × α)) :
    (setEntry key value entries).map Prod.fst =
      if key ∈ entries.map Prod.fst then entries.map Prod.fst
      else entries.map Prod.fst ++ [key] := by
  induction entries with
  | nil => rfl
  | cons entry entries ih =>
      rw [setEntry]
      by_cases same : entry.1 = key
      · simp [same]
      · have other : ¬key = entry.1 := fun eq => same eq.symm
        rw [if_neg same, List.map_cons, ih, List.map_cons]
        by_cases known : key ∈ entries.map Prod.fst
        · simp [known]
        · simp [known, other]

theorem nodup_keys_setEntry (distinct : (entries.map Prod.fst).Nodup) :
    ((setEntry key value entries).map Prod.fst).Nodup := by
  rw [keys_setEntry]
  split
  · exact distinct
  · next absent =>
      rw [← List.concat_eq_append]
      exact List.Nodup.concat absent distinct

theorem setEntry_of_absent (absent : key ∉ entries.map Prod.fst) :
    setEntry key value entries = entries ++ [(key, value)] := by
  induction entries with
  | nil => rfl
  | cons entry entries ih =>
      rw [List.map_cons, List.mem_cons, not_or] at absent
      rw [setEntry, if_neg fun same => absent.1 same.symm, ih absent.2, List.cons_append]

/-- Setting what is set already changes nothing. -/
theorem setEntry_of_mem (distinct : (entries.map Prod.fst).Nodup) (mem : (key, value) ∈ entries) :
    setEntry key value entries = entries := by
  induction entries with
  | nil => cases mem
  | cons entry entries ih =>
      rw [List.map_cons, List.nodup_cons] at distinct
      rw [setEntry]
      rcases List.mem_cons.mp mem with rfl | later
      · rw [if_pos rfl]
      · have other : entry.1 ≠ key := fun same =>
          distinct.1 (same ▸ List.mem_map_of_mem later)
        rw [if_neg other, ih distinct.2 later]

theorem mem_setEntry {entry : κ × α} (mem : entry ∈ setEntry key value entries) :
    entry = (key, value) ∨ entry ∈ entries := by
  induction entries with
  | nil => exact Or.inl (List.mem_singleton.mp mem)
  | cons first entries ih =>
      rw [setEntry] at mem
      split at mem
      · rcases List.mem_cons.mp mem with rfl | mem
        · exact Or.inl rfl
        · exact Or.inr (List.mem_cons_of_mem _ mem)
      · rcases List.mem_cons.mp mem with rfl | mem
        · exact Or.inr List.mem_cons_self
        · exact (ih mem).imp_right (List.mem_cons_of_mem _)

theorem mem_mapValues_setEntry {other : α}
    (mem : other ∈ mapValues (setEntry key value entries)) :
    other = value ∨ other ∈ mapValues entries := by
  obtain ⟨entry, entryMem, rfl⟩ := List.mem_map.mp mem
  rcases mem_setEntry entryMem with rfl | stored
  · exact Or.inl rfl
  · exact Or.inr (List.mem_map_of_mem stored)

theorem mem_mapValues_setEntry_self : value ∈ mapValues (setEntry key value entries) := by
  induction entries with
  | nil => exact List.mem_singleton_self value
  | cons entry entries ih =>
      rw [setEntry]
      split
      · exact List.mem_cons_self
      · exact List.mem_cons_of_mem _ ih

omit [DecidableEq κ] in
@[simp]
theorem keys_updateValues (f : α → β) (entries : List (κ × α)) :
    (updateValues f entries).map Prod.fst = entries.map Prod.fst := by
  rw [updateValues, List.map_map]
  rfl

theorem updateValues_setEntry (f : α → β) (key : κ) (value : α) (entries : List (κ × α)) :
    updateValues f (setEntry key value entries) =
      setEntry key (f value) (updateValues f entries) := by
  induction entries with
  | nil => rfl
  | cons entry entries ih =>
      change updateValues f (if entry.1 = key then _ else _) =
        if entry.1 = key then (key, f value) :: updateValues f entries
        else (entry.1, f entry.2) :: setEntry key (f value) (updateValues f entries)
      split
      · rfl
      · rw [← ih]
        rfl

omit [DecidableEq κ] in
theorem updateValues_updateValues {γ : Type w} (g : β → γ) (f : α → β) (entries : List (κ × α)) :
    updateValues g (updateValues f entries) = updateValues (fun value => g (f value)) entries := by
  rw [updateValues, updateValues, List.map_map]
  rfl

omit [DecidableEq κ] in
@[simp]
theorem mapValues_updateValues (f : α → β) (entries : List (κ × α)) :
    mapValues (updateValues f entries) = (mapValues entries).map f := by
  rw [mapValues, mapValues, updateValues, List.map_map, List.map_map]
  rfl

omit [DecidableEq κ] in
theorem lookup_map_value [BEq κ] [LawfulBEq κ] (f : κ → α → β) (entries : List (κ × α)) (key : κ) :
    (entries.map fun entry => (entry.1, f entry.1 entry.2)).lookup key =
      (entries.lookup key).map (f key) := by
  induction entries with
  | nil => rfl
  | cons entry entries ih =>
      rw [List.map_cons, List.lookup_cons, List.lookup_cons, ih]
      cases same : key == entry.1 with
      | true => rw [eq_of_beq same, Option.map_some]
      | false => rfl

omit [DecidableEq κ] in
theorem lookup_updateValues [BEq κ] [LawfulBEq κ] (f : α → β) (entries : List (κ × α)) (key : κ) :
    (updateValues f entries).lookup key = (entries.lookup key).map f :=
  lookup_map_value (fun _ => f) entries key

/-- Of the entries with a key there is the one that is found. -/
theorem filterMap_key_eq_lookup (distinct : (entries.map Prod.fst).Nodup) (f : α → β) (key : κ) :
    (entries.filterMap fun entry => if entry.1 = key then some (f entry.2) else none) =
      ((entries.lookup key).map f).toList := by
  induction entries with
  | nil => rfl
  | cons entry entries ih =>
      rw [List.map_cons, List.nodup_cons] at distinct
      rw [List.lookup_cons, List.filterMap_cons]
      by_cases same : entry.1 = key
      · have absent : entries.lookup key = none := by
          rw [lookup_eq_none_iff_notMem, ← same]
          exact distinct.1
        rw [if_pos same, ih distinct.2, absent, beq_iff_eq.mpr same.symm]
        rfl
      · rw [if_neg same, ih distinct.2, beq_eq_false_iff_ne.mpr fun eq => same eq.symm]

/-! ## Maps whose keys belong to their values -/

/-- Every value stands under its own key. -/
structure Keyed (keyOf : α → κ) (entries : List (κ × α)) : Prop where
  distinct : (entries.map Prod.fst).Nodup
  own : ∀ entry ∈ entries, entry.1 = keyOf entry.2

namespace Keyed

variable {keyOf : α → κ}

omit [DecidableEq κ] in
theorem nil : Keyed keyOf [] :=
  ⟨List.nodup_nil, fun _ mem => nomatch mem⟩

theorem setEntry (keyed : Keyed keyOf entries) (value : α) :
    Keyed keyOf (setEntry (keyOf value) value entries) := by
  refine ⟨nodup_keys_setEntry keyed.distinct, ?_⟩
  intro entry mem
  rcases mem_setEntry mem with rfl | mem
  · rfl
  · exact keyed.own entry mem

omit [DecidableEq κ] in
theorem updateValues (keyed : Keyed keyOf entries) {f : α → α}
    (same : ∀ value, keyOf (f value) = keyOf value) : Keyed keyOf (updateValues f entries) := by
  refine ⟨(keys_updateValues f entries).symm ▸ keyed.distinct, ?_⟩
  intro entry mem
  obtain ⟨original, originalMem, rfl⟩ := List.mem_map.mp mem
  exact (keyed.own original originalMem).trans (same original.2).symm

omit [DecidableEq κ] in
theorem map_keyOf (keyed : Keyed keyOf entries) :
    (mapValues entries).map keyOf = entries.map Prod.fst := by
  rw [mapValues, List.map_map]
  exact List.map_congr_left fun entry mem => (keyed.own entry mem).symm

omit [DecidableEq κ] in
/-- Values are told apart by their keys. -/
theorem nodup_map_keyOf (keyed : Keyed keyOf entries) : ((mapValues entries).map keyOf).Nodup :=
  keyed.map_keyOf ▸ keyed.distinct

theorem lookup_eq_some_iff (keyed : Keyed keyOf entries) :
    entries.lookup key = some value ↔ value ∈ mapValues entries ∧ keyOf value = key := by
  rw [lookup_eq_some_iff_mem keyed.distinct]
  constructor
  · intro mem
    exact ⟨List.mem_map_of_mem mem, (keyed.own _ mem).symm⟩
  · rintro ⟨mem, rfl⟩
    obtain ⟨entry, entryMem, rfl⟩ := List.mem_map.mp mem
    rw [← keyed.own entry entryMem]
    exact entryMem

/-- Where equal keys belong to equal values, a value that is set stood there before or
comes last. -/
theorem setEntry_cases (keyed : Keyed keyOf entries)
    (coherent : ∀ stored ∈ mapValues entries, keyOf stored = keyOf value → stored = value) :
    value ∈ mapValues entries ∧ Collections.setEntry (keyOf value) value entries = entries ∨
      Collections.setEntry (keyOf value) value entries = entries ++ [(keyOf value, value)] := by
  by_cases known : keyOf value ∈ entries.map Prod.fst
  · left
    rw [← keyed.map_keyOf] at known
    obtain ⟨stored, mem, same⟩ := List.mem_map.mp known
    obtain rfl := coherent stored mem same
    obtain ⟨entry, entryMem, rfl⟩ := List.mem_map.mp mem
    refine ⟨mem, setEntry_of_mem keyed.distinct ?_⟩
    rw [← keyed.own entry entryMem]
    exact entryMem
  · exact Or.inr (setEntry_of_absent known)

end Keyed

/-! ## Values that are set one after the other -/

/-- The map after each value was set under its own key. -/
def setAll (keyOf : α → κ) (values : List α) : List (κ × α) :=
  values.foldl (fun entries value => setEntry (keyOf value) value entries) []

section SetAll

variable {keyOf : α → κ}

@[simp]
theorem setAll_append (first second : List α) :
    setAll keyOf (first ++ second) =
      second.foldl (fun entries value => setEntry (keyOf value) value entries)
        (setAll keyOf first) :=
  List.foldl_append

/-- A change of the values that keeps their keys may come before or after they are set. -/
theorem updateValues_foldl_setEntry {f : α → α} (same : ∀ value, keyOf (f value) = keyOf value)
    (values : List α) (entries : List (κ × α)) :
    updateValues f
        (values.foldl (fun entries value => setEntry (keyOf value) value entries) entries) =
      (values.map f).foldl (fun entries value => setEntry (keyOf value) value entries)
        (updateValues f entries) := by
  induction values generalizing entries with
  | nil => rfl
  | cons value values ih =>
      rw [List.foldl_cons, List.map_cons, List.foldl_cons, ih, updateValues_setEntry, same]

theorem keyed_setAll (values : List α) : Keyed keyOf (setAll keyOf values) :=
  List.foldlRecOn values _ Keyed.nil fun _ keyed value _ => keyed.setEntry value

/-- Where equal keys belong to equal values, the map holds all that was set. -/
theorem mem_setAll_iff {values : List α} (coherent : ∀ first ∈ values, ∀ second ∈ values,
    keyOf first = keyOf second → first = second) (value : α) :
    value ∈ mapValues (setAll keyOf values) ↔ value ∈ values := by
  induction values using List.reverseRecOn generalizing value with
  | nil => rfl
  | append_singleton past last ih =>
      have held := ih fun first firstMem second secondMem =>
        coherent first (List.mem_append_left _ firstMem) second (List.mem_append_left _ secondMem)
      have lastMem : last ∈ past ++ [last] := List.mem_append_right _ (List.mem_singleton_self last)
      have known : ∀ stored ∈ mapValues (setAll keyOf past), keyOf stored = keyOf last →
          stored = last := fun stored mem =>
        coherent stored (List.mem_append_left _ ((held stored).mp mem)) last lastMem
      rw [setAll_append, List.foldl_cons, List.foldl_nil, List.mem_append, List.mem_singleton]
      rcases (keyed_setAll past).setEntry_cases known with ⟨mem, same⟩ | same
      · rw [same, held]
        constructor
        · exact Or.inl
        · rintro (earlier | rfl)
          · exact earlier
          · exact (held value).mp mem
      · rw [same, mapValues, List.map_append, List.mem_append, List.map_singleton,
          List.mem_singleton]
        exact or_congr_left (held value)

end SetAll

end StacksApi.Collections
