import StacksApi.Relational.Table

/-!
# Setting the flags of several keys

The effect on a table of raising the flags of some keys and lowering those of
others, and the rows whose flag changes thereby.  Two such changes in a row are one,
as long as the second does not lower what the first raised; where their keys are
disjoint, the second changes the rows that it would have changed without the first.
-/

namespace StacksApi.Relational

universe u v

variable {α : Type u} {κ : Type v} [Flagged α κ] [DecidableEq κ]

open Flagged

/-- The row with its flag raised or lowered, if its key is among those of either kind. -/
def reflag (up down : List κ) (row : α) : α :=
  if key row ∈ up then withFlag true row
  else if key row ∈ down then withFlag false row
  else row

/-- The rows whose flag is lowered and that have one of the keys. -/
def raisedRows (up : List κ) (rows : List α) : List α :=
  rows.filter fun row => decide (key row ∈ up) && !flag row

/-- The rows whose flag is raised and that have one of the keys. -/
def loweredRows (down : List κ) (rows : List α) : List α :=
  rows.filter fun row => decide (key row ∈ down) && flag row

section Row

variable {up down : List κ} {row : α}

theorem reflag_of_mem_up (mem : key row ∈ up) : reflag up down row = withFlag true row :=
  if_pos mem

theorem reflag_of_mem_down (notUp : key row ∉ up) (mem : key row ∈ down) :
    reflag up down row = withFlag false row := by
  rw [reflag, if_neg notUp, if_pos mem]

theorem reflag_of_not_mem (notUp : key row ∉ up) (notDown : key row ∉ down) :
    reflag up down row = row := by
  rw [reflag, if_neg notUp, if_neg notDown]

@[simp]
theorem key_reflag (up down : List κ) (row : α) : key (reflag up down row) = key row := by
  unfold reflag
  split
  · exact key_withFlag true row
  · split
    · exact key_withFlag false row
    · rfl

theorem withFlag_reflag (value : Bool) (up down : List κ) (row : α) :
    withFlag value (reflag up down row) = withFlag value row := by
  unfold reflag
  split
  · exact withFlag_withFlag value true row
  · split
    · exact withFlag_withFlag value false row
    · rfl

theorem flag_reflag_congr {β : Type u} [Flagged β κ] {row : α} {other : β}
    (sameKey : key row = key other) (sameFlag : flag row = flag other) :
    flag (reflag up down row) = flag (reflag up down other) := by
  simp only [reflag, sameKey]
  split
  · rw [flag_withFlag, flag_withFlag]
  · split
    · rw [flag_withFlag, flag_withFlag]
    · exact sameFlag

/-- Only membership in the lists of keys matters. -/
theorem reflag_congr {up' down' : List κ} (sameUp : ∀ k, k ∈ up ↔ k ∈ up')
    (sameDown : ∀ k, k ∈ down ↔ k ∈ down') (row : α) :
    reflag up down row = reflag up' down' row := by
  simp only [reflag, sameUp, sameDown]

/-- Two changes are one if the second lowers nothing that the first raised. -/
theorem reflag_reflag {up' down' : List κ} (disjoint : ∀ k ∈ up, k ∉ down') (row : α) :
    reflag up' down' (reflag up down row) = reflag (up ++ up') (down ++ down') row := by
  by_cases later : key row ∈ up'
  · rw [reflag_of_mem_up (by rwa [key_reflag]), withFlag_reflag,
      reflag_of_mem_up (List.mem_append_right up later)]
  · by_cases first : key row ∈ up
    · have kept : key row ∉ down' := disjoint _ first
      rw [reflag_of_not_mem (by rwa [key_reflag]) (by rwa [key_reflag]), reflag_of_mem_up first,
        reflag_of_mem_up (List.mem_append_left up' first)]
    · have notUp : key row ∉ up ++ up' := fun mem => (List.mem_append.mp mem).elim first later
      by_cases lowered : key row ∈ down'
      · rw [reflag_of_mem_down (by rwa [key_reflag]) (by rwa [key_reflag]), withFlag_reflag,
          reflag_of_mem_down notUp (List.mem_append_right down lowered)]
      · rw [reflag_of_not_mem (by rwa [key_reflag]) (by rwa [key_reflag])]
        simp only [reflag, List.mem_append, later, lowered, or_false]

end Row

/-! ## Tables -/

section Table

variable {up down : List κ} {rows : List α}

theorem setFlag_true_fst (target : κ) (rows : List α) :
    (setFlag target true rows).1 = rows.map (reflag [target] []) := by
  rw [setFlag_fst]
  apply List.map_congr_left
  intro row _
  simp only [reflag, List.mem_singleton, List.not_mem_nil, if_false]

theorem setFlag_false_fst (target : κ) (rows : List α) :
    (setFlag target false rows).1 = rows.map (reflag [] [target]) := by
  rw [setFlag_fst]
  apply List.map_congr_left
  intro row _
  simp only [reflag, List.mem_singleton, List.not_mem_nil, if_false]

theorem setFlag_true_snd (target : κ) (rows : List α) :
    (setFlag target true rows).2 = (raisedRows [target] rows).map (withFlag true) := by
  have same : (fun row : α => decide (key row = target) && (flag row != true)) =
      fun row => decide (key row ∈ [target]) && !flag row := by
    funext row
    cases flag row <;> simp
  rw [setFlag, updateRows, same]
  rfl

theorem setFlag_false_snd (target : κ) (rows : List α) :
    (setFlag target false rows).2 = (loweredRows [target] rows).map (withFlag false) := by
  have same : (fun row : α => decide (key row = target) && (flag row != false)) =
      fun row => decide (key row ∈ [target]) && flag row := by
    funext row
    cases flag row <;> simp
  rw [setFlag, updateRows, same]
  rfl

theorem map_key_map_reflag (up down : List κ) (rows : List α) :
    (rows.map (reflag up down)).map key = rows.map key := by
  rw [List.map_map]
  exact List.map_congr_left fun row _ => key_reflag up down row

theorem reflag_nil (row : α) : reflag [] [] row = row :=
  reflag_of_not_mem List.not_mem_nil List.not_mem_nil

/-- Rows of other keys are found after a change as they were before. -/
theorem filter_map_reflag {matched : α → Bool}
    (untouched : ∀ row ∈ rows, key row ∈ up ∨ key row ∈ down →
      matched row = false ∧ matched (reflag up down row) = false) :
    (rows.map (reflag up down)).filter matched = rows.filter matched := by
  rw [List.filter_map]
  have same : rows.filter (matched ∘ reflag up down) = rows.filter matched := by
    apply List.filter_congr
    intro row mem
    by_cases touched : key row ∈ up ∨ key row ∈ down
    · obtain ⟨before, after⟩ := untouched row mem touched
      rw [Function.comp_apply, before, after]
    · rw [Function.comp_apply, reflag_of_not_mem (fun mem => touched (Or.inl mem))
        fun mem => touched (Or.inr mem)]
  rw [same]
  conv_rhs => rw [← List.map_id (rows.filter matched)]
  apply List.map_congr_left
  intro row mem
  obtain ⟨inRows, found⟩ := List.mem_filter.mp mem
  have free : ¬(key row ∈ up ∨ key row ∈ down) := by
    intro touched
    rw [(untouched row inRows touched).1] at found
    cases found
  exact reflag_of_not_mem (fun mem => free (Or.inl mem)) fun mem => free (Or.inr mem)

theorem raisedRows_map_reflag {up' : List κ} (freeUp : ∀ k ∈ up', k ∉ up)
    (freeDown : ∀ k ∈ up', k ∉ down) :
    raisedRows up' (rows.map (reflag up down)) = raisedRows up' rows := by
  apply filter_map_reflag
  intro row _ touched
  have other : key row ∉ up' := fun mem => touched.elim (freeUp _ mem) (freeDown _ mem)
  simp [other]

theorem loweredRows_map_reflag {down' : List κ} (freeUp : ∀ k ∈ down', k ∉ up)
    (freeDown : ∀ k ∈ down', k ∉ down) :
    loweredRows down' (rows.map (reflag up down)) = loweredRows down' rows := by
  apply filter_map_reflag
  intro row _ touched
  have other : key row ∉ down' := fun mem => touched.elim (freeUp _ mem) (freeDown _ mem)
  simp [other]

/-- A list is divided by two conditions that exclude each other. -/
theorem length_filter_or {β : Type u} {first second both : β → Bool} {items : List β}
    (split : ∀ item ∈ items, both item = (first item || second item))
    (exclusive : ∀ item ∈ items, first item = true → second item = false) :
    (items.filter both).length = (items.filter first).length + (items.filter second).length := by
  induction items with
  | nil => rfl
  | cons item items ih =>
      have rest := ih (fun other mem => split other (List.mem_cons_of_mem item mem))
        fun other mem => exclusive other (List.mem_cons_of_mem item mem)
      rw [List.filter_cons, List.filter_cons, List.filter_cons, split item List.mem_cons_self]
      cases inFirst : first item with
      | true =>
          rw [exclusive item List.mem_cons_self inFirst]
          simp only [Bool.or_false, if_true, Bool.false_eq_true, if_false, List.length_cons, rest]
          omega
      | false =>
          cases second item with
          | true =>
              simp only [Bool.or_true, if_true, Bool.false_eq_true, if_false, List.length_cons,
                rest]
              omega
          | false => simp only [Bool.or_false, Bool.false_eq_true, if_false, rest]

/-- The rows of some keys or of others are counted apart when no key is among both. -/
theorem length_filter_keys_append {keys keys' : List κ} (keep : α → Bool)
    (disjoint : ∀ k ∈ keys, k ∉ keys') :
    (rows.filter fun row => decide (key row ∈ keys ++ keys') && keep row).length =
      (rows.filter fun row => decide (key row ∈ keys) && keep row).length +
        (rows.filter fun row => decide (key row ∈ keys') && keep row).length := by
  apply length_filter_or
  · intro row _
    simp only [List.mem_append, Bool.decide_or, Bool.and_or_distrib_right]
  · intro row _ found
    rw [Bool.and_eq_true, decide_eq_true_eq] at found
    simp [disjoint _ found.1]

theorem length_raisedRows_append {up' : List κ} (disjoint : ∀ k ∈ up, k ∉ up') :
    (raisedRows (up ++ up') rows).length =
      (raisedRows up rows).length + (raisedRows up' rows).length :=
  length_filter_keys_append (fun row => !flag row) disjoint

theorem length_loweredRows_append {down' : List κ} (disjoint : ∀ k ∈ down, k ∉ down') :
    (loweredRows (down ++ down') rows).length =
      (loweredRows down rows).length + (loweredRows down' rows).length :=
  length_filter_keys_append flag disjoint

theorem mem_raisedRows {row : α} :
    row ∈ raisedRows up rows ↔ row ∈ rows ∧ key row ∈ up ∧ flag row = false := by
  rw [raisedRows, List.mem_filter, Bool.and_eq_true, decide_eq_true_eq, Bool.not_eq_true']

theorem raisedRows_eq_filter {matched : α → Bool}
    (same : ∀ row ∈ rows, matched row = true ↔ key row ∈ up ∧ flag row = false) :
    raisedRows up rows = rows.filter matched := by
  apply List.filter_congr
  intro row mem
  rw [Bool.eq_iff_iff, same row mem, Bool.and_eq_true, decide_eq_true_eq, Bool.not_eq_true']

theorem loweredRows_eq_filter {matched : α → Bool}
    (same : ∀ row ∈ rows, matched row = true ↔ key row ∈ down ∧ flag row = true) :
    loweredRows down rows = rows.filter matched := by
  apply List.filter_congr
  intro row mem
  rw [Bool.eq_iff_iff, same row mem, Bool.and_eq_true, decide_eq_true_eq]

theorem loweredRows_congr {down' : List κ} (same : ∀ k, k ∈ down ↔ k ∈ down') :
    loweredRows down rows = loweredRows down' rows := by
  simp only [loweredRows, same]

end Table

end StacksApi.Relational
