import Mathlib.Algebra.BigOperators.Group.List.Basic
import Mathlib.Algebra.Order.Group.Int
import Mathlib.Algebra.Ring.Int.Defs
import Mathlib.Data.List.Dedup
import Mathlib.Data.List.Sort
import Mathlib.Order.Defs.LinearOrder

/-!
# Queries

What `ORDER BY … DESC`, `LIMIT`, aggregation with `GROUP BY` and `FULL JOIN`
yield from a table that is read in some order.  An order of reading only shows
where rows tie: sums and groups do not depend on it, and a sorted result does not
where the sort key identifies the rows.
-/

namespace StacksApi.Relational

universe u v w

variable {α : Type u} {κ : Type v}

/-! ## Sorted rows -/

section Order

variable [LinearOrder κ] {key : α → κ} {first second rows : List α}

/-- `ORDER BY key DESC`; rows with equal keys stay in the order of reading. -/
def orderByDesc (key : α → κ) (rows : List α) : List α :=
  rows.insertionSort fun row other => key other ≤ key row

theorem orderByDesc_perm (key : α → κ) (rows : List α) : (orderByDesc key rows).Perm rows :=
  List.perm_insertionSort _ rows

theorem mem_orderByDesc {row : α} : row ∈ orderByDesc key rows ↔ row ∈ rows :=
  (orderByDesc_perm key rows).mem_iff

theorem pairwise_orderByDesc (key : α → κ) (rows : List α) :
    (orderByDesc key rows).Pairwise fun row other => key other ≤ key row := by
  have total : Std.Total fun row other : α => key other ≤ key row :=
    ⟨fun row other => le_total (key other) (key row)⟩
  have trans : IsTrans α fun row other => key other ≤ key row :=
    ⟨fun _ _ _ left right => le_trans right left⟩
  exact List.pairwise_insertionSort _ rows

/-- Where the key identifies the rows, the order of reading does not show. -/
theorem orderByDesc_eq_of_perm (perm : first.Perm second)
    (unique : ∀ row ∈ first, ∀ other ∈ first, key row = key other → row = other) :
    orderByDesc key first = orderByDesc key second := by
  apply @List.Perm.eq_of_pairwise _ fun row other => key other ≤ key row
  · intro row other rowMem otherMem below above
    apply unique row (mem_orderByDesc.mp rowMem) other
    · exact perm.mem_iff.mpr (mem_orderByDesc.mp otherMem)
    · exact le_antisymm above below
  · exact pairwise_orderByDesc key first
  · exact pairwise_orderByDesc key second
  · exact (orderByDesc_perm key first).trans (perm.trans (orderByDesc_perm key second).symm)

/-- `LIMIT 1` takes a row whose key no other row exceeds. -/
theorem le_of_head?_orderByDesc {row : α} (head : (orderByDesc key rows).head? = some row) :
    row ∈ rows ∧ ∀ other ∈ rows, key other ≤ key row := by
  have sorted := pairwise_orderByDesc key rows
  have perm := orderByDesc_perm key rows
  cases ordered : orderByDesc key rows with
  | nil =>
      rw [ordered] at head
      cases head
  | cons top rest =>
      rw [ordered] at head sorted perm
      cases head
      refine ⟨perm.mem_iff.mp List.mem_cons_self, ?_⟩
      intro other mem
      rcases List.mem_cons.mp (perm.mem_iff.mpr mem) with rfl | below
      · exact le_refl (key other)
      · exact List.rel_of_pairwise_cons sorted below

theorem exists_head?_orderByDesc (nonempty : rows ≠ []) :
    ∃ row, (orderByDesc key rows).head? = some row := by
  cases ordered : orderByDesc key rows with
  | nil => exact absurd (List.nil_perm.mp (ordered ▸ orderByDesc_perm key rows)) nonempty
  | cons top rest => exact ⟨top, rfl⟩

/-- `LIMIT 1` takes the row whose key exceeds those of all others. -/
theorem head?_orderByDesc_eq {row : α} (mem : row ∈ rows)
    (top : ∀ other ∈ rows, other = row ∨ key other < key row) :
    (orderByDesc key rows).head? = some row := by
  obtain ⟨first, head⟩ := @exists_head?_orderByDesc α κ _ key rows (List.ne_nil_of_mem mem)
  obtain ⟨firstMem, greatest⟩ := le_of_head?_orderByDesc head
  rcases top first firstMem with rfl | below
  · exact head
  · exact absurd (greatest row mem) (not_le_of_gt below)

/-- Rows from a key on stand at the front, so that the first rows miss none of them
but those beyond their number. -/
theorem countP_take_orderByDesc (key : α → κ) (rows : List α) (limit : Nat) (since : κ) :
    ((orderByDesc key rows).take limit).countP (fun row => since ≤ key row) =
      min limit (rows.countP fun row => since ≤ key row) := by
  rw [← (orderByDesc_perm key rows).countP_eq]
  have sorted := pairwise_orderByDesc key rows
  generalize orderByDesc key rows = ordered at sorted ⊢
  induction ordered generalizing limit with
  | nil => simp
  | cons row rest ih =>
      obtain ⟨above, sorted⟩ := List.pairwise_cons.mp sorted
      cases limit with
      | zero => simp
      | succ limit =>
          rw [List.take_succ_cons, List.countP_cons, List.countP_cons, ih limit sorted]
          by_cases recent : since ≤ key row
          · simp only [recent, decide_true, if_true]
            omega
          · have older : rest.countP (fun row => since ≤ key row) = 0 := by
              rw [List.countP_eq_zero]
              intro other mem isRecent
              exact recent ((of_decide_eq_true isRecent).trans (above other mem))
            simp [recent, older]

/-- Rows with a sorted order of strictly increasing keys are sorted into that order. -/
theorem insertionSort_eq_of_perm {sorted : List α} (perm : rows.Perm sorted)
    (increasing : sorted.Pairwise fun row other => key row < key other) :
    rows.insertionSort (fun row other => key row ≤ key other) = sorted := by
  have total : Std.Total fun row other : α => key row ≤ key other :=
    ⟨fun row other => le_total (key row) (key other)⟩
  have trans : IsTrans α fun row other => key row ≤ key other :=
    ⟨fun _ _ _ left right => le_trans left right⟩
  have sortedPerm :=
    (List.perm_insertionSort (fun row other => key row ≤ key other) rows).trans perm
  apply @List.Perm.eq_of_pairwise _ fun row other => key row ≤ key other
  · intro row other rowMem otherMem below above
    have nodup : (sorted.map key).Nodup := List.pairwise_map.mpr (increasing.imp ne_of_lt)
    exact List.inj_on_of_nodup_map nodup (sortedPerm.mem_iff.mp rowMem) otherMem
      (le_antisymm below above)
  · exact List.pairwise_insertionSort _ rows
  · exact increasing.imp le_of_lt
  · exact sortedPerm

end Order

/-- `LIMIT` and `OFFSET` -/
def page (limit offset : Nat) (rows : List α) : List α :=
  (rows.drop offset).take limit

/-! ## Aggregates -/

/-- `sum(amount)`, which is null when there are no rows. -/
def sumColumn (amount : α → Int) : List α → Option Int
  | [] => none
  | rows => some (rows.map amount).sum

/-- Filtered sums agree when every row contributes alike to both. -/
theorem sum_filter_congr {keep keep' : α → Bool} {amount amount' : α → Int} {rows : List α}
    (same : ∀ row ∈ rows,
      (if keep row then amount row else 0) = if keep' row then amount' row else 0) :
    ((rows.filter keep).map amount).sum = ((rows.filter keep').map amount').sum := by
  induction rows with
  | nil => rfl
  | cons row rows ih =>
      have first := same row List.mem_cons_self
      have rest := ih fun later mem => same later (List.mem_cons_of_mem _ mem)
      have split : ∀ (keep : α → Bool) (amount : α → Int),
          (((row :: rows).filter keep).map amount).sum =
            (if keep row then amount row else 0) + ((rows.filter keep).map amount).sum := by
        intro keep amount
        by_cases kept : keep row = true <;> simp [kept]
      rw [split, split, first, rest]

@[simp]
theorem getD_sumColumn (amount : α → Int) (rows : List α) :
    (sumColumn amount rows).getD 0 = (rows.map amount).sum := by
  cases rows <;> rfl

section Group

variable [DecidableEq κ] {β : Type w} {first second : List α}

/-- `SELECT key, sum(amount) … GROUP BY key` -/
def groupSum (key : α → κ) (amount : α → Int) (rows : List α) : List (κ × Int) :=
  (rows.map key).dedup.map fun group =>
    (group, ((rows.filter fun row => key row = group).map amount).sum)

theorem map_fst_groupSum (key : α → κ) (amount : α → Int) (rows : List α) :
    (groupSum key amount rows).map Prod.fst = (rows.map key).dedup := by
  rw [groupSum, List.map_map]
  exact List.map_id _

theorem nodup_groupSum (key : α → κ) (amount : α → Int) (rows : List α) :
    ((groupSum key amount rows).map Prod.fst).Nodup := by
  rw [map_fst_groupSum]
  exact List.nodup_dedup _

theorem groupSum_perm (key : α → κ) (amount : α → Int) (perm : first.Perm second) :
    (groupSum key amount first).Perm (groupSum key amount second) := by
  have sums : ∀ group, ((first.filter fun row => key row = group).map amount).sum =
      ((second.filter fun row => key row = group).map amount).sum :=
    fun group => ((perm.filter _).map amount).sum_eq
  rw [groupSum, groupSum]
  simp only [sums]
  exact ((perm.map key).dedup).map _

/-- `SELECT key, COUNT(*) … GROUP BY key` -/
def groupCount (key : α → κ) (rows : List α) : List (κ × Int) :=
  (rows.map key).dedup.map fun group => (group, (rows.countP fun row => key row = group : Int))

/-- Counting is summing ones. -/
theorem groupCount_eq_groupSum (key : α → κ) (rows : List α) :
    groupCount key rows = groupSum key (fun _ => 1) rows := by
  rw [groupCount, groupSum]
  apply List.map_congr_left
  intro group _
  rw [List.map_const', List.sum_replicate, List.countP_eq_length_filter, nsmul_one]

theorem lookup_of_mem {entries : List (κ × β)} (nodup : (entries.map Prod.fst).Nodup) {key : κ}
    {value : β} (mem : (key, value) ∈ entries) : entries.lookup key = some value := by
  induction entries with
  | nil => cases mem
  | cons entry entries ih =>
      rw [List.map_cons, List.nodup_cons] at nodup
      rcases List.mem_cons.mp mem with rfl | later
      · exact List.lookup_cons_self
      · have differs : key ≠ entry.1 := by
          rintro rfl
          exact nodup.1 (List.mem_map.mpr ⟨_, later, rfl⟩)
        rw [List.lookup_cons, beq_false_of_ne differs]
        exact ih nodup.2 later

/-- The total of a key is null exactly when no row has it. -/
theorem lookup_groupSum (key : α → κ) (amount : α → Int) (rows : List α) (group : κ) :
    (groupSum key amount rows).lookup group =
      sumColumn amount (rows.filter fun row => key row = group) := by
  cases found : rows.filter fun row => key row = group with
  | nil =>
      have absent : group ∉ (groupSum key amount rows).map Prod.fst := by
        rw [map_fst_groupSum, List.mem_dedup]
        intro mem
        obtain ⟨row, rowMem, same⟩ := List.mem_map.mp mem
        exact List.filter_eq_nil_iff.mp found row rowMem (decide_eq_true same)
      rw [sumColumn, List.lookup_eq_none_iff]
      intro entry mem
      exact bne_iff_ne.mpr fun same => absent (same ▸ List.mem_map_of_mem mem)
  | cons first rest =>
      apply lookup_of_mem (nodup_groupSum key amount rows)
      have firstMem : first ∈ rows.filter fun row => key row = group := found ▸ List.mem_cons_self
      obtain ⟨mem, same⟩ := List.mem_filter.mp firstMem
      refine List.mem_map.mpr ⟨group, ?_, by rw [found]⟩
      exact List.mem_dedup.mpr (List.mem_map.mpr ⟨first, mem, of_decide_eq_true same⟩)

/-- Two tables of totals joined on their keys, each side null where it lacks the key. -/
def fullJoin (left right : List (κ × Int)) : List (κ × Option Int × Option Int) :=
  left.map (fun (key, total) => (key, some total, right.lookup key)) ++
    (right.filter fun (key, _) => key ∉ left.map Prod.fst).map
      fun (key, total) => (key, none, some total)

theorem lookup_eq_of_perm {left right : List (κ × Int)} (perm : left.Perm right)
    (nodup : (left.map Prod.fst).Nodup) (key : κ) : left.lookup key = right.lookup key := by
  induction perm with
  | nil => rfl
  | cons entry _ ih =>
      rw [List.map_cons, List.nodup_cons] at nodup
      rw [List.lookup_cons, List.lookup_cons, ih nodup.2]
  | swap entry other rest =>
      obtain ⟨entryKey, total⟩ := entry
      obtain ⟨otherKey, otherTotal⟩ := other
      rw [List.map_cons, List.map_cons, List.nodup_cons] at nodup
      have different : otherKey ≠ entryKey := fun same =>
        nodup.1 (same ▸ List.mem_cons_self)
      by_cases isEntry : key = entryKey
      · have notOther : (key == otherKey) = false :=
          beq_false_of_ne (isEntry ▸ Ne.symm different)
        simp only [List.lookup_cons, notOther]
      · simp only [List.lookup_cons, beq_false_of_ne isEntry]
  | trans firstPerm _ firstIh secondIh =>
      exact (firstIh nodup).trans (secondIh ((firstPerm.map Prod.fst).nodup_iff.mp nodup))

theorem fullJoin_perm {left left' right right' : List (κ × Int)} (leftPerm : left.Perm left')
    (rightPerm : right.Perm right') (nodup : (right.map Prod.fst).Nodup) :
    (fullJoin left right).Perm (fullJoin left' right') := by
  have sameLookup : ∀ key, right.lookup key = right'.lookup key :=
    lookup_eq_of_perm rightPerm nodup
  have sameKeys : ∀ key, key ∉ left.map Prod.fst ↔ key ∉ left'.map Prod.fst :=
    fun key => not_congr (leftPerm.map Prod.fst).mem_iff
  rw [fullJoin, fullJoin]
  simp only [sameLookup, sameKeys]
  exact (leftPerm.map _).append ((rightPerm.filter _).map _)

theorem map_fst_fullJoin (left right : List (κ × Int)) :
    (fullJoin left right).map Prod.fst =
      left.map Prod.fst ++ (right.map Prod.fst).filter fun key => key ∉ left.map Prod.fst := by
  rw [fullJoin, List.map_append, List.map_map, List.map_map, List.filter_map]
  rfl

theorem nodup_fullJoin {left right : List (κ × Int)} (leftNodup : (left.map Prod.fst).Nodup)
    (rightNodup : (right.map Prod.fst).Nodup) : ((fullJoin left right).map Prod.fst).Nodup := by
  rw [map_fst_fullJoin]
  apply leftNodup.append (rightNodup.filter _)
  intro key inLeft inRight
  exact of_decide_eq_true (List.mem_filter.mp inRight).2 inLeft

/-- The join has a row for each key of either side. -/
theorem mem_keys_fullJoin {left right : List (κ × Int)} {key : κ} :
    key ∈ (fullJoin left right).map Prod.fst ↔
      key ∈ left.map Prod.fst ∨ key ∈ right.map Prod.fst := by
  rw [map_fst_fullJoin, List.mem_append, List.mem_filter]
  by_cases inLeft : key ∈ left.map Prod.fst <;> simp [inLeft]

/-- Each row of the join has the totals of its key, null where there is none. -/
theorem totals_of_mem_fullJoin {left right : List (κ × Int)} {key : κ}
    {credit debit : Option Int} (leftNodup : (left.map Prod.fst).Nodup)
    (rightNodup : (right.map Prod.fst).Nodup) (mem : (key, credit, debit) ∈ fullJoin left right) :
    credit = left.lookup key ∧ debit = right.lookup key := by
  rw [fullJoin, List.mem_append, List.mem_map, List.mem_map] at mem
  rcases mem with ⟨⟨group, total⟩, leftMem, same⟩ | ⟨⟨group, total⟩, rightMem, same⟩
  · cases same
    exact ⟨(lookup_of_mem leftNodup leftMem).symm, rfl⟩
  · cases same
    obtain ⟨inRight, notLeft⟩ := List.mem_filter.mp rightMem
    refine ⟨?_, (lookup_of_mem rightNodup inRight).symm⟩
    symm
    rw [List.lookup_eq_none_iff]
    intro entry entryMem
    exact bne_iff_ne.mpr fun same => of_decide_eq_true notLeft (same ▸ List.mem_map_of_mem entryMem)

end Group

end StacksApi.Relational
