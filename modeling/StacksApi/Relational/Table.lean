import Mathlib.Data.List.Basic
import Mathlib.Data.List.Nodup
import Mathlib.Data.List.Perm.Basic
import Mathlib.Logic.Function.Basic

/-!
# Tables of rows

A table is the list of its rows in the order of their insertion.  The statements
below change a table and yield what `RETURNING` yields.  `Flagged` is for rows
that repeat, under a key, a flag that belongs to a row of another table: setting
the flag of one key in every such table keeps them in step, and a table that is
in step is determined by the flags and by its rows with the flag left out.
-/

namespace StacksApi.Relational

universe u v

variable {α : Type u} {κ : Type v}

/-! ## Statements -/

/-- `UPDATE` with a `WHERE` clause: the table, and the updated rows. -/
def updateRows (matched : α → Bool) (set : α → α) (rows : List α) : List α × List α :=
  (rows.map fun row => if matched row then set row else row, (rows.filter matched).map set)

/-- `DELETE` with a `WHERE` clause: the table, and the deleted rows. -/
def deleteRows (matched : α → Bool) (rows : List α) : List α × List α :=
  (rows.filter fun row => !matched row, rows.filter matched)

/-- `INSERT` with `ON CONFLICT DO NOTHING`: the table, and the number of rows inserted. -/
def insertRow (conflicts : α → α → Bool) (row : α) (rows : List α) : List α × Nat :=
  if rows.any (conflicts row) then (rows, 0) else (rows ++ [row], 1)

/-- A row of an updated table stood there before or was updated. -/
theorem mem_updateRows {matched : α → Bool} {set : α → α} {rows : List α} {row : α}
    (mem : row ∈ (updateRows matched set rows).1) :
    row ∈ rows ∨ row ∈ (updateRows matched set rows).2 := by
  obtain ⟨original, originalMem, same⟩ := List.mem_map.mp mem
  split at same
  · next holds =>
      right
      rw [← same]
      exact List.mem_map_of_mem (List.mem_filter.mpr ⟨originalMem, holds⟩)
  · left
    rw [← same]
    exact originalMem

/-- The updated rows stand in the table. -/
theorem mem_updateRows_fst {matched : α → Bool} {set : α → α} {rows : List α} {row : α}
    (mem : row ∈ (updateRows matched set rows).2) : row ∈ (updateRows matched set rows).1 := by
  obtain ⟨original, found, rfl⟩ := List.mem_map.mp mem
  obtain ⟨originalMem, holds⟩ := List.mem_filter.mp found
  exact List.mem_map.mpr ⟨original, originalMem, if_pos holds⟩

theorem insertRow_of_conflict {conflicts : α → α → Bool} {row : α} {rows : List α}
    (conflict : rows.any (conflicts row) = true) : insertRow conflicts row rows = (rows, 0) :=
  if_pos conflict

theorem insertRow_of_fresh {conflicts : α → α → Bool} {row : α} {rows : List α}
    (fresh : rows.any (conflicts row) = false) :
    insertRow conflicts row rows = (rows ++ [row], 1) :=
  if_neg (by simp [fresh])

/-- A query that only rows of one unique key satisfy yields that row. -/
theorem filter_eq_singleton {key : α → κ} {rows : List α} {matched : α → Bool} {row : α}
    (nodup : (rows.map key).Nodup) (mem : row ∈ rows) (holds : matched row = true)
    (only : ∀ other ∈ rows, matched other = true → key other = key row) :
    rows.filter matched = [row] := by
  have all : ∀ other ∈ rows.filter matched, other = row := by
    intro other otherMem
    obtain ⟨inRows, found⟩ := List.mem_filter.mp otherMem
    exact List.inj_on_of_nodup_map nodup inRows mem (only other inRows found)
  have distinct : (rows.filter matched).Nodup := (List.Nodup.of_map key nodup).filter matched
  apply List.perm_singleton.mp
  apply (List.perm_ext_iff_of_nodup distinct (List.nodup_singleton row)).mpr
  intro other
  rw [List.mem_singleton]
  constructor
  · exact all other
  · rintro rfl
    exact List.mem_filter.mpr ⟨mem, holds⟩

/-! ## Rows that carry a flag -/

/-- Rows with a key and a flag that can be set without touching anything else. -/
class Flagged (α : Type u) (κ : outParam (Type v)) where
  key : α → κ
  flag : α → Bool
  withFlag : Bool → α → α
  key_withFlag : ∀ value row, key (withFlag value row) = key row
  flag_withFlag : ∀ value row, flag (withFlag value row) = value
  withFlag_withFlag : ∀ value value' row,
    withFlag value (withFlag value' row) = withFlag value row
  withFlag_flag : ∀ row, withFlag (flag row) row = row

attribute [simp] Flagged.key_withFlag Flagged.flag_withFlag Flagged.withFlag_withFlag
  Flagged.withFlag_flag

open Flagged

variable [Flagged α κ]

/-- The flag of every row is the one assigned to its key. -/
def Follows (assignment : κ → Bool) (rows : List α) : Prop :=
  ∀ row ∈ rows, flag row = assignment (key row)

/-- The rows with all flags raised, that is, up to their flags. -/
def raised (rows : List α) : List α :=
  rows.map (withFlag true)

@[simp]
theorem raised_append (first second : List α) :
    raised (first ++ second) = raised first ++ raised second :=
  List.map_append

theorem raised_map_withFlag (value : Bool) (rows : List α) :
    raised (rows.map (withFlag value)) = raised rows := by
  simp only [raised, List.map_map]
  apply List.map_congr_left
  intro row _
  exact withFlag_withFlag true value row

/-- Tables that agree up to flags have the same rows up to flags. -/
theorem exists_of_raised_eq {first second : List α} (same : raised first = raised second)
    {row : α} (mem : row ∈ first) : ∃ other ∈ second, withFlag true other = withFlag true row := by
  have raisedMem : withFlag true row ∈ raised second := same ▸ List.mem_map_of_mem mem
  exact List.mem_map.mp raisedMem

theorem exists_key_of_raised_eq {first second : List α} (same : raised first = raised second)
    {row : α} (mem : row ∈ first) : ∃ other ∈ second, key other = key row := by
  obtain ⟨other, otherMem, equal⟩ := exists_of_raised_eq same mem
  refine ⟨other, otherMem, ?_⟩
  rw [← key_withFlag true other, equal, key_withFlag]

theorem raised_updateRows (matched : α → Bool) (value : Bool) (rows : List α) :
    raised (updateRows matched (withFlag value) rows).1 = raised rows := by
  simp only [raised, updateRows, List.map_map]
  apply List.map_congr_left
  intro row _
  simp only [Function.comp_apply]
  split
  · exact withFlag_withFlag true value row
  · rfl

theorem Follows.append {assignment : κ → Bool} {first second : List α}
    (inFirst : Follows assignment first) (inSecond : Follows assignment second) :
    Follows assignment (first ++ second) := by
  intro row mem
  rcases List.mem_append.mp mem with old | new
  · exact inFirst row old
  · exact inSecond row new

theorem Follows.congr {assignment assignment' : κ → Bool} {rows : List α}
    (follows : Follows assignment rows)
    (same : ∀ row ∈ rows, assignment' (key row) = assignment (key row)) :
    Follows assignment' rows := by
  intro row mem
  rw [follows row mem, same row mem]

/-- A table in step is its rows up to flags with the assigned flags put in. -/
theorem Follows.eq_map {assignment : κ → Bool} {rows : List α}
    (follows : Follows assignment rows) :
    rows = (raised rows).map fun row => withFlag (assignment (key row)) row := by
  rw [raised, List.map_map]
  conv_lhs => rw [← List.map_id rows]
  apply List.map_congr_left
  intro row mem
  simp only [Function.comp_apply, key_withFlag, withFlag_withFlag, ← follows row mem,
    withFlag_flag, id_eq]

/-- Tables in step with the same flags that agree up to flags agree. -/
theorem Follows.perm {first second : List α} {assignment assignment' : κ → Bool}
    (inFirst : Follows assignment first) (inSecond : Follows assignment' second)
    (perm : (raised first).Perm (raised second))
    (same : ∀ row ∈ first, assignment (key row) = assignment' (key row)) :
    first.Perm second := by
  rw [inFirst.eq_map, inSecond.eq_map]
  have agree : (raised first).map (fun row => withFlag (assignment (key row)) row) =
      (raised first).map fun row => withFlag (assignment' (key row)) row := by
    apply List.map_congr_left
    intro row mem
    obtain ⟨original, originalMem, rfl⟩ := List.mem_map.mp mem
    simp only [key_withFlag]
    rw [same original originalMem]
  rw [agree]
  exact perm.map _

/-- A filter that does not look at flags may come before or after they are raised. -/
theorem raised_filter {matched : α → Bool}
    (blind : ∀ row, matched (withFlag true row) = matched row) (rows : List α) :
    raised (rows.filter matched) = (raised rows).filter matched := by
  rw [raised, raised, List.filter_map]
  congr 1
  exact List.filter_congr fun row _ => (blind row).symm

theorem raised_filter_key [DecidableEq κ] (target : κ) (rows : List α) :
    raised (rows.filter fun row => decide (key row = target)) =
      (raised rows).filter fun row => decide (key row = target) :=
  raised_filter (fun row => by rw [key_withFlag]) rows

/-- Rows that were read in some order from a table with other flags can be read in that
order from this one. -/
theorem exists_scan_of_raised {matched : α → Bool} {rows read : List α}
    (perm : (raised (rows.filter matched)).Perm (raised read)) :
    ∃ scanned, rows.Perm scanned ∧ raised (scanned.filter matched) = raised read := by
  have sources : List.Forall₂ (fun image row => image = withFlag true row)
      (raised (rows.filter matched)) (rows.filter matched) := by
    rw [raised, List.forall₂_map_left_iff]
    exact List.forall₂_same.mpr fun _ _ => rfl
  obtain ⟨front, images, frontPerm⟩ := List.perm_comp_forall₂ perm.symm sources
  have same : raised read = raised front := by
    have equal : List.Forall₂ (fun image row => image = row) (raised read) (raised front) :=
      List.forall₂_map_right_iff.mpr images
    rwa [List.forall₂_eq_eq_eq] at equal
  have frontMatched : front.filter matched = front := by
    apply List.filter_eq_self.mpr
    intro row mem
    exact (List.mem_filter.mp (frontPerm.subset mem)).2
  refine ⟨front ++ rows.filter fun row => !matched row, ?_, ?_⟩
  · exact (List.filter_append_perm matched rows).symm.trans (frontPerm.symm.append_right _)
  · rw [List.filter_append, frontMatched, List.filter_filter]
    simp [same]

section SetFlag

variable [DecidableEq κ]

/-- Set the flag of the rows of one key where it differs. -/
def setFlag (target : κ) (value : Bool) (rows : List α) : List α × List α :=
  updateRows (fun row => decide (key row = target) && (flag row != value)) (withFlag value) rows

theorem setFlag_fst (target : κ) (value : Bool) (rows : List α) :
    (setFlag target value rows).1 =
      rows.map fun row => if key row = target then withFlag value row else row := by
  apply List.map_congr_left
  intro row _
  by_cases sameKey : key row = target
  · by_cases sameFlag : flag row = value
    · have already : withFlag value row = row := by rw [← sameFlag, withFlag_flag]
      simp [sameKey, sameFlag, already]
    · simp [sameKey, sameFlag]
  · simp [sameKey]

/-- A row that was not there before has the new flag. -/
theorem flag_of_mem_setFlag_snd {target : κ} {value : Bool} {rows : List α} {row : α}
    (mem : row ∈ (setFlag target value rows).2) : flag row = value := by
  obtain ⟨original, -, rfl⟩ := List.mem_map.mp mem
  exact flag_withFlag value original

@[simp]
theorem raised_setFlag (target : κ) (value : Bool) (rows : List α) :
    raised (setFlag target value rows).1 = raised rows :=
  raised_updateRows _ value rows

/-- Setting the flags of a key keeps a table in step with the changed assignment. -/
theorem Follows.setFlag {assignment : κ → Bool} {rows : List α}
    (follows : Follows assignment rows) (target : κ) (value : Bool) :
    Follows (Function.update assignment target value) (setFlag target value rows).1 := by
  rw [setFlag_fst]
  intro row mem
  obtain ⟨original, originalMem, rfl⟩ := List.mem_map.mp mem
  by_cases sameKey : key original = target
  · rw [if_pos sameKey, flag_withFlag, key_withFlag, sameKey, Function.update_self]
  · rw [if_neg sameKey, Function.update_of_ne sameKey]
    exact follows original originalMem

end SetFlag

end StacksApi.Relational
