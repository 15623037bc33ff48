import StacksApi.Relational.Paging
import StacksApi.Transition.Reading

/-!
# Walking through pages of a changing table

A client asks for one page after the other until one comes that is not full, and rows may
come and go all the while.  It sees every row that no change moves to the front.
-/

namespace StacksApi.Relational

open StacksApi.Transition

universe u v w x

/-! ## Ranks -/

section Rank

variable {α : Type u} {κ : Type v} [LinearOrder κ] {key : α → κ} {row : α}
variable {rows rows' : List α} {limit offset : Nat}

/-- How many rows are listed before a row. -/
def rank (key : α → κ) (row : α) (rows : List α) : Nat :=
  rows.countP fun other => key row < key other

theorem rank_eq_of_perm (perm : rows.Perm rows') : rank key row rows = rank key row rows' :=
  perm.countP_eq _

theorem getElem?_rank (descending : rows.Pairwise fun row other => key other < key row)
    (mem : row ∈ rows) : rows[rank key row rows]? = some row := by
  induction rows with
  | nil => cases mem
  | cons first rest ih =>
      obtain ⟨below, descending⟩ := List.pairwise_cons.mp descending
      rw [rank, List.countP_cons]
      rcases List.mem_cons.mp mem with rfl | mem
      · have none : rest.countP (fun other => key row < key other) = 0 := by
          rw [List.countP_eq_zero]
          intro other otherMem above
          exact lt_asymm (below other otherMem) (of_decide_eq_true above)
        simp [none]
      · simp only [below row mem, decide_true, if_true, List.getElem?_cons_succ]
        exact ih descending mem

theorem rank_lt_length (mem : row ∈ rows) : rank key row rows < rows.length := by
  apply lt_of_le_of_ne List.countP_le_length
  intro all
  exact lt_irrefl (key row) (of_decide_eq_true (List.countP_eq_length.mp all row mem))

/-- A row moves back when no row before it goes without another in its position. -/
theorem rank_le_rank (distinct : (rows.map key).Nodup)
    (kept : ∀ other ∈ rows, key row < key other → ∃ other' ∈ rows', key other' = key other) :
    rank key row rows ≤ rank key row rows' := by
  rw [rank, rank, List.countP_eq_length_filter, List.countP_eq_length_filter,
    ← List.length_map key, ← List.length_map key]
  refine (List.subperm_of_subset ?_ ?_).length_le
  · exact distinct.sublist (List.filter_sublist.map key)
  · intro value mem
    obtain ⟨other, otherMem, rfl⟩ := List.mem_map.mp mem
    obtain ⟨otherMem, above⟩ := List.mem_filter.mp otherMem
    have above := of_decide_eq_true above
    obtain ⟨other', mem', same⟩ := kept other otherMem above
    refine List.mem_map.mpr ⟨other', List.mem_filter.mpr ⟨mem', decide_eq_true ?_⟩, same⟩
    rwa [same]

/-- The row is on the page that reaches over its rank. -/
theorem mem_page_of_rank (distinct : (rows.map key).Nodup) (mem : row ∈ rows)
    (ahead : offset ≤ rank key row rows) (within : rank key row rows < offset + limit) :
    row ∈ page limit offset (orderByDesc key rows) := by
  have perm := orderByDesc_perm key rows
  have found := getElem?_rank (pairwise_lt_orderByDesc distinct) (mem_orderByDesc.mpr mem)
  rw [rank_eq_of_perm perm] at found
  apply List.mem_of_getElem? (i := rank key row rows - offset)
  rw [page, List.getElem?_take_of_lt (by omega), List.getElem?_drop, Nat.add_sub_cancel' ahead]
  exact found

/-- No row stands behind a page that is not full. -/
theorem rank_lt_of_short (mem : row ∈ rows)
    (short : (page limit offset (orderByDesc key rows)).length < limit) :
    rank key row rows < offset + limit := by
  have inside := @rank_lt_length _ _ _ key _ _ mem
  rw [page, List.length_take, List.length_drop, (orderByDesc_perm key rows).length_eq] at short
  omega

end Rank

/-! ## Walks -/

section Walks

variable {τ : Type u} {ε : Type v} {β : Type w} {σ : Type x} [Preorder σ]
variable {sees : σ → τ → Prop} {request : Nat → Reading τ ε (List β)} {limit : Nat}

/-- The client asks for the page at an offset, and for the next one as long as pages come
full. -/
inductive WalksPages (sees : σ → τ → Prop) (request : Nat → Reading τ ε (List β)) (limit : Nat) :
    σ → Nat → σ → List β → Prop
  | short {start last : σ} {offset : Nat} {page : List β}
      (ends : Reading.Ends sees start (request offset) last (.ok page))
      (short : page.length < limit) : WalksPages sees request limit start offset last page
  | full {start answered next last : σ} {offset : Nat} {page rest : List β}
      (ends : Reading.Ends sees start (request offset) answered (.ok page))
      (full : limit ≤ page.length) (later : answered ≤ next)
      (walks : WalksPages sees request limit next (offset + limit) last rest) :
      WalksPages sees request limit start offset last (page ++ rest)

theorem WalksPages.le {start last : σ} {offset : Nat} {shown : List β}
    (walks : WalksPages sees request limit start offset last shown) : start ≤ last := by
  induction walks with
  | short ends _ => exact ends.le
  | full ends _ later _ ih => exact (ends.le.trans later).trans ih

/-- What has a rank in every moment is shown to the client, if its rank never falls: a page
that reaches over the rank shows it, and one that is not full reaches over all ranks from its
offset on. -/
theorem WalksPages.exists_shown {shows : β → Prop} {rank : σ → Nat} {start last : σ}
    {offset : Nat} {shown : List β}
    (walks : WalksPages sees request limit start offset last shown)
    (grows : ∀ earlier later, start ≤ earlier → earlier ≤ later → later ≤ last →
      rank earlier ≤ rank later)
    (answers : ∀ first final offset page, start ≤ first → final ≤ last →
      Reading.Ends sees first (request offset) final (.ok page) →
        ∃ answered, first ≤ answered ∧ answered ≤ final ∧
          (page.length < limit → rank answered < offset + limit) ∧
          (offset ≤ rank answered → rank answered < offset + limit → ∃ item ∈ page, shows item))
    (ahead : offset ≤ rank start) : ∃ item ∈ shown, shows item := by
  induction walks with
  | short ends short =>
      obtain ⟨answered, after, before, behind, found⟩ :=
        answers _ _ _ _ le_rfl le_rfl ends
      exact found (ahead.trans (grows _ _ le_rfl after before)) (behind short)
  | @full start middle next last offset _ _ ends full later walks ih =>
      have ended := walks.le
      obtain ⟨answered, after, before, -, found⟩ :=
        answers _ _ _ _ le_rfl (later.trans ended) ends
      have aheadNow := ahead.trans (grows _ _ le_rfl after (before.trans (later.trans ended)))
      by_cases within : rank answered < offset + limit
      · obtain ⟨item, mem, holds⟩ := found aheadNow within
        exact ⟨item, List.mem_append_left _ mem, holds⟩
      · -- the rank is behind the page, and stays behind its end
        have order : start ≤ next := after.trans (before.trans later)
        obtain ⟨item, mem, holds⟩ := ih
          (fun _ _ later => grows _ _ (order.trans later))
          (fun _ _ _ _ later => answers _ _ _ _ (order.trans later))
          ((Nat.le_of_not_lt within).trans (grows _ _ after (before.trans later) ended))
        exact ⟨item, List.mem_append_right _ mem, holds⟩

/-- While all pages are those of one list, the client sees the rest of it. -/
theorem WalksPages.forall₂_drop {α : Type u} {rows : List α} {shows : α → β → Prop}
    {start last : σ} {offset : Nat} {shown : List β}
    (walks : WalksPages sees request limit start offset last shown)
    (answers : ∀ first final offset results, start ≤ first → final ≤ last →
      Reading.Ends sees first (request offset) final (.ok results) →
        (page limit offset rows).Forall₂ shows results) :
    (rows.drop offset).Forall₂ shows shown := by
  induction walks with
  | @short start last offset results ends short =>
      have each := answers _ _ _ _ le_rfl le_rfl ends
      have all : page limit offset rows = rows.drop offset := by
        rw [← each.length_eq, page, List.length_take] at short
        exact List.take_of_length_le (by omega)
      exact all ▸ each
  | @full start answered next last offset results rest ends full later walks ih =>
      have each := answers _ _ _ _ le_rfl (later.trans walks.le) ends
      have behind := ih fun _ _ _ _ after => answers _ _ _ _ ((ends.le.trans later).trans after)
      rw [← List.take_append_drop limit (rows.drop offset), List.drop_drop]
      exact List.rel_append each behind

end Walks

end StacksApi.Relational
