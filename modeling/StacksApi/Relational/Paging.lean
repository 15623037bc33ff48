import StacksApi.Relational.Query
import StacksApi.Transition.Fallible

/-!
# Paging

A listing that is read page by page, each page by a query of its own.  Where no two rows
have the same sort key, the pages fit together in whatever order each query reads the rows.
-/

namespace StacksApi.Relational

open StacksApi.Transition

universe u v

variable {α : Type u} {κ : Type v}

/-! ## Pages of one list -/

theorem take_append_page (limit offset : Nat) (rows : List α) :
    rows.take offset ++ page limit offset rows = rows.take (offset + limit) :=
  List.take_add.symm

theorem page_eq_nil_iff {limit offset : Nat} {rows : List α} :
    page limit offset rows = [] ↔ limit = 0 ∨ rows.length ≤ offset := by
  rw [page, List.take_eq_nil_iff, List.drop_eq_nil_iff]

/-! ## Rows of distinct keys -/

section Order

variable [LinearOrder κ] {key : α → κ} {first second rows : List α}

theorem pairwise_lt_orderByDesc (distinct : (rows.map key).Nodup) :
    (orderByDesc key rows).Pairwise fun row other => key other < key row := by
  have nodup : ((orderByDesc key rows).map key).Nodup :=
    ((orderByDesc_perm key rows).map key).nodup_iff.mpr distinct
  have differs : (orderByDesc key rows).Pairwise fun row other => key row ≠ key other :=
    List.pairwise_map.mp nodup
  apply ((pairwise_orderByDesc key rows).and differs).imp
  rintro row other ⟨below, differs⟩
  exact lt_of_le_of_ne below (Ne.symm differs)

theorem orderByDesc_eq_of_nodup (perm : first.Perm second) (distinct : (first.map key).Nodup) :
    orderByDesc key first = orderByDesc key second :=
  orderByDesc_eq_of_perm perm fun _ rowMem _ otherMem =>
    List.inj_on_of_nodup_map distinct rowMem otherMem

end Order

/-! ## Reading page by page -/

section Pages

variable {ε : Type} {α β : Type} {κ : Type v}

/-- What the queries yield at the offsets `0`, `limit`, `2 * limit`, …, one after another. -/
def readPages (query : Nat → Nat → Except ε (List β)) (limit : Nat) : Nat → Except ε (List β)
  | 0 => .ok []
  | count + 1 => do
      let earlier ← readPages query limit count
      let results ← query count (count * limit)
      return earlier ++ results

/-- Read page by page until no row is left, the queries yield the record of each of the rows
exactly once, by strictly descending key. -/
def PagesList [LinearOrder κ] (key : α → κ) (record : α → Except ε β) (rows : List α)
    (query : Nat → Nat → Except ε (List β)) (limit : Nat) : Prop :=
  ∃ (ordered : List α) (results : List β), ordered.Perm rows ∧
    ordered.Pairwise (fun row other => key other < key row) ∧ ordered.mapM record = .ok results ∧
    ∀ count, rows.length ≤ count * limit → readPages query limit count = .ok results

variable {query : Nat → Nat → Except ε (List β)} {limit : Nat} {record : α → Except ε β}

/-- Pages of one list fit together. -/
theorem readPages_eq {ordered : List α}
    (pages : ∀ number offset, query number offset = (page limit offset ordered).mapM record)
    (count : Nat) : readPages query limit count = (ordered.take (count * limit)).mapM record := by
  induction count with
  | zero =>
      rw [Nat.zero_mul, List.take_zero]
      rfl
  | succ count ih =>
      rw [readPages, ih, pages, Nat.succ_mul, ← take_append_page, List.mapM_append]

/-- Queries that sort the rows by a key of which no two are the same list them all, however
each of them reads the rows. -/
theorem pagesList_of_nodup [LinearOrder κ] {key : α → κ} {rows : List α} {read : Nat → List α}
    (distinct : (rows.map key).Nodup) (perm : ∀ number, rows.Perm (read number))
    (records : ∀ row ∈ rows, Succeeds (record row))
    (pages : ∀ number offset,
      query number offset = (page limit offset (orderByDesc key (read number))).mapM record) :
    PagesList key record rows query limit := by
  have ordered : ∀ number, orderByDesc key (read number) = orderByDesc key rows :=
    fun number => (orderByDesc_eq_of_nodup (perm number) distinct).symm
  obtain ⟨results, computed⟩ : Succeeds ((orderByDesc key rows).mapM record) :=
    succeeds_mapM_iff.mpr fun row mem => records row (mem_orderByDesc.mp mem)
  refine ⟨orderByDesc key rows, results, orderByDesc_perm key rows,
    pairwise_lt_orderByDesc distinct, computed, fun count enough => ?_⟩
  have same : ∀ number offset,
      query number offset = (page limit offset (orderByDesc key rows)).mapM record :=
    fun number offset => (pages number offset).trans (by rw [ordered])
  have all : (orderByDesc key rows).length ≤ count * limit :=
    (orderByDesc_perm key rows).length_eq.trans_le enough
  rw [readPages_eq same, List.take_of_length_le all, computed]

end Pages

end StacksApi.Relational
