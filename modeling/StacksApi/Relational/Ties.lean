import StacksApi.Relational.Paging

/-!
# Pages of tied rows

Where rows have the same sort key, each query that reads a page may have them in an order of
its own.  The pages still list every row once when the rows of each key are all on one page,
and otherwise there are orders in which they list a row twice and miss another.
-/

namespace StacksApi.Relational

open StacksApi.Transition

universe u v

variable {α : Type u} {κ : Type v}

/-! ## Pages of several orders -/

/-- What is listed when the page of each number is cut from an order of its own. -/
def listedPages (limit : Nat) (ordered : Nat → List α) (count : Nat) : List α :=
  (List.range count).flatMap fun number => page limit (number * limit) (ordered number)

theorem listedPages_succ (limit : Nat) (ordered : Nat → List α) (count : Nat) :
    listedPages limit ordered (count + 1) =
      listedPages limit ordered count ++ page limit (count * limit) (ordered count) := by
  rw [listedPages, List.range_succ, List.flatMap_append, List.flatMap_singleton]
  rfl

/-- Pages that could be cut from one list are a front of it. -/
theorem listedPages_eq_take {limit : Nat} {ordered : Nat → List α} {rows : List α}
    (same : ∀ number, page limit (number * limit) (ordered number) =
      page limit (number * limit) rows) (count : Nat) :
    listedPages limit ordered count = rows.take (count * limit) := by
  induction count with
  | zero =>
      rw [Nat.zero_mul, List.take_zero]
      rfl
  | succ count ih => rw [listedPages_succ, ih, same, take_append_page, Nat.succ_mul]

/-- A page depends on what stands before its end. -/
theorem page_eq_of_take_eq {limit offset boundary : Nat} {first second : List α}
    (same : first.take boundary = second.take boundary) (before : offset + limit ≤ boundary) :
    page limit offset first = page limit offset second := by
  have cut : ∀ rows : List α, page limit offset rows =
      ((rows.take boundary).take (offset + limit)).drop offset := by
    intro rows
    rw [List.take_take, Nat.min_eq_left before, List.drop_take, Nat.add_sub_cancel_left]
    rfl
  rw [cut first, cut second, same]

/-- A page depends on what stands from its start on. -/
theorem page_eq_of_drop_eq {limit offset boundary : Nat} {first second : List α}
    (same : first.drop boundary = second.drop boundary) (behind : boundary ≤ offset) :
    page limit offset first = page limit offset second := by
  have cut : ∀ rows : List α, rows.drop offset = (rows.drop boundary).drop (offset - boundary) := by
    intro rows
    rw [List.drop_drop, Nat.add_sub_cancel' behind]
  rw [page, page, cut first, cut second, same]

section Boundary

variable {limit start : Nat} {front back : List α} {middle : α}

/-- What stands right before a page is not on it. -/
theorem page_congr_before (boundary : front.length + 1 = start * limit) (first second : α) :
    page limit (start * limit) (front ++ first :: middle :: back) =
      page limit (start * limit) (front ++ second :: middle :: back) := by
  refine page_eq_of_drop_eq ?_ boundary.le
  rw [List.drop_length_add_append, List.drop_length_add_append]
  rfl

/-- What stands at the start of a page is on no other. -/
theorem page_congr_start (boundary : front.length + 1 = start * limit) {number : Nat}
    (other : number ≠ start) (first second : α) :
    page limit (number * limit) (front ++ middle :: first :: back) =
      page limit (number * limit) (front ++ middle :: second :: back) := by
  rcases Nat.lt_or_gt_of_ne other with earlier | later
  · have ends : number * limit + limit ≤ front.length + 1 := by
      rw [boundary, ← Nat.succ_mul]
      exact Nat.mul_le_mul_right limit earlier
    refine page_eq_of_take_eq ?_ ends
    rw [List.take_length_add_append, List.take_length_add_append]
    rfl
  · have starts : front.length + 2 ≤ number * limit := by
      have positive : 0 < limit :=
        Nat.pos_of_mul_pos_left ((Nat.succ_pos front.length).trans_eq boundary)
      have further := Nat.mul_le_mul_right limit later
      rw [Nat.succ_mul, ← boundary] at further
      omega
    refine page_eq_of_drop_eq ?_ starts
    rw [List.drop_length_add_append, List.drop_length_add_append]
    rfl

end Boundary

/-- Queries that read their pages from orders of their own. -/
theorem readPages_eq_listedPages {ε : Type} {α β : Type} {query : Nat → Nat → Except ε (List β)}
    {limit : Nat} {record : α → Except ε β} {ordered : Nat → List α}
    (pages : ∀ number, query number (number * limit) =
      (page limit (number * limit) (ordered number)).mapM record) (count : Nat) :
    readPages query limit count = (listedPages limit ordered count).mapM record := by
  induction count with
  | zero => rfl
  | succ count ih => rw [readPages, ih, pages, listedPages_succ, List.mapM_append]

/-- Where one of two neighbours is repeated in place of the other, nothing is missing only
if they are the same. -/
theorem eq_of_repeated_perm {front back : List α} {before behind : α}
    (perm : (front ++ before :: before :: back).Perm (front ++ before :: behind :: back)) :
    before = behind := by
  have tails := (List.perm_append_left_iff front).mp perm
  have neighbours : ([before] ++ back).Perm ([behind] ++ back) := (List.perm_cons before).mp tails
  exact List.singleton_perm_singleton.mp ((List.perm_append_right_iff back).mp neighbours)

/-- Rows with ids of their own are not all read where one of two neighbours is repeated in
place of the other. -/
theorem not_perm_of_repeated {ε : Type} {α β γ : Type} {record : α → Except ε β} {idOf : α → γ}
    {identify : β → γ} {rows front back : List α} {before behind : α} {results records : List β}
    (identified : ∀ row result, record row = .ok result → identify result = idOf row)
    (distinct : (rows.map idOf).Nodup) (perm : rows.Perm (front ++ before :: behind :: back))
    (read : (front ++ before :: before :: back).mapM record = .ok results)
    (recorded : rows.mapM record = .ok records) : ¬results.Perm records := by
  intro all
  have ids := all.map identify
  rw [map_eq_map_of_mapM_ok read fun row _ result => identified row result,
    map_eq_map_of_mapM_ok recorded fun row _ result => identified row result] at ids
  have allIds := ids.trans (perm.map idOf)
  simp only [List.map_append, List.map_cons] at allIds
  have same : idOf before = idOf behind := eq_of_repeated_perm allIds
  have nodup := (perm.map idOf).nodup_iff.mp distinct
  rw [List.map_append, List.map_cons, List.map_cons] at nodup
  have apart := (List.nodup_cons.mp nodup.of_append_right).1
  rw [same] at apart
  exact apart List.mem_cons_self

/-! ## Sorted rows -/

section Sorted

variable {keep : α → Bool} {sorted : List α}

/-- Rows of which none that is kept stands behind one that is not. -/
theorem take_countP_of_pairwise
    (closed : sorted.Pairwise fun row other => keep other = true → keep row = true) :
    sorted.take (sorted.countP keep) = sorted.filter keep := by
  induction sorted with
  | nil => rfl
  | cons row rest ih =>
      obtain ⟨first, closed⟩ := List.pairwise_cons.mp closed
      by_cases kept : keep row = true
      · rw [List.countP_cons_of_pos kept, List.take_succ_cons, List.filter_cons_of_pos kept,
          ih closed]
      · have none : ∀ other ∈ row :: rest, ¬keep other = true :=
          List.forall_mem_cons.mpr ⟨kept, fun other mem keeps => kept (first other mem keeps)⟩
        rw [List.countP_eq_zero.mpr none, List.filter_eq_nil_iff.mpr none]
        rfl

/-- A row is kept exactly when it stands before the number of those that are. -/
theorem keep_getElem_iff
    (closed : sorted.Pairwise fun row other => keep other = true → keep row = true)
    {index : Nat} (inside : index < sorted.length) :
    keep sorted[index] = true ↔ index < sorted.countP keep := by
  induction sorted generalizing index with
  | nil => exact absurd inside (Nat.not_lt_zero _)
  | cons row rest ih =>
      obtain ⟨first, closed⟩ := List.pairwise_cons.mp closed
      by_cases kept : keep row = true
      · rw [List.countP_cons_of_pos kept]
        cases index with
        | zero => exact iff_of_true kept (Nat.succ_pos _)
        | succ index =>
            rw [List.getElem_cons_succ, Nat.succ_lt_succ_iff]
            exact ih closed _
      · have none : ∀ other ∈ row :: rest, ¬keep other = true :=
          List.forall_mem_cons.mpr ⟨kept, fun other mem keeps => kept (first other mem keeps)⟩
        rw [List.countP_eq_zero.mpr none]
        exact iff_of_false (none _ (List.getElem_mem inside)) (Nat.not_lt_zero _)

end Sorted

/-! ## Ties -/

section Ties

variable [LinearOrder κ] (key : α → κ) (limit : Nat)

/-- The rows of every key, which stand together when the rows are sorted, are on one page. -/
def TiesOnOnePage (rows : List α) : Prop :=
  ∀ value, ∃ number,
    number * limit ≤ rows.countP (fun row => value < key row) ∧
      rows.countP (fun row => value ≤ key row) ≤ (number + 1) * limit

variable {key limit} {rows first second : List α}

theorem closed_of_descending {sorted : List α}
    (descending : sorted.Pairwise fun row other => key other ≤ key row) (value : κ) :
    (sorted.Pairwise fun row other =>
        decide (value < key other) = true → decide (value < key row) = true) ∧
      sorted.Pairwise fun row other =>
        decide (value ≤ key other) = true → decide (value ≤ key row) = true := by
  constructor
  · refine descending.imp fun below above => ?_
    exact decide_eq_true ((of_decide_eq_true above).trans_le below)
  · refine descending.imp fun below above => ?_
    exact decide_eq_true ((of_decide_eq_true above).trans below)

/-- The rows of a key stand behind those above it and before those below it. -/
theorem key_getElem_of_between {sorted : List α}
    (descending : sorted.Pairwise fun row other => key other ≤ key row) {value : κ} {index : Nat}
    (inside : index < sorted.length) (later : sorted.countP (fun row => value < key row) ≤ index)
    (earlier : index < sorted.countP fun row => value ≤ key row) : key sorted[index] = value := by
  obtain ⟨closedAbove, closedFrom⟩ := closed_of_descending descending value
  apply le_antisymm
  · rw [← not_lt, ← decide_eq_true_eq (p := value < _), keep_getElem_iff closedAbove inside]
    exact Nat.not_lt.mpr later
  · rw [← decide_eq_true_eq (p := value ≤ _), keep_getElem_iff closedFrom inside]
    exact earlier

/-- A place before which the rows of no key are cut in two has the same rows before it in
all sorted orders. -/
theorem take_perm_of_uncut (perm : first.Perm second)
    (firstDescending : first.Pairwise fun row other => key other ≤ key row)
    (secondDescending : second.Pairwise fun row other => key other ≤ key row) {place : Nat}
    (uncut : ∀ value, first.countP (fun row => value < key row) < place →
      first.countP (fun row => value ≤ key row) ≤ place) :
    (first.take place).Perm (second.take place) := by
  by_cases inside : place < first.length
  · -- the rows before the place are those above the key at it
    obtain ⟨value, valueAt⟩ : ∃ value, key first[place] = value := ⟨_, rfl⟩
    obtain ⟨firstAbove, firstFrom⟩ := closed_of_descending firstDescending value
    have notAbove : ¬place < first.countP fun row => value < key row := by
      rw [← keep_getElem_iff firstAbove inside, decide_eq_true_eq, valueAt]
      exact lt_irrefl value
    have within : place < first.countP fun row => value ≤ key row := by
      rw [← keep_getElem_iff firstFrom inside, decide_eq_true_eq, valueAt]
    have count : first.countP (fun row => value < key row) = place := by
      by_contra differs
      have cut := uncut value (by omega)
      omega
    have secondAbove := (closed_of_descending secondDescending value).1
    rw [← count, take_countP_of_pairwise firstAbove, perm.countP_eq,
      take_countP_of_pairwise secondAbove]
    exact perm.filter _
  · rw [List.take_of_length_le (Nat.le_of_not_lt inside),
      List.take_of_length_le (perm.length_eq ▸ Nat.le_of_not_lt inside)]
    exact perm

theorem countP_from_eq (rows : List α) (value : κ) :
    rows.countP (fun row => value ≤ key row) =
      rows.countP (fun row => value < key row) + (rows.map key).count value := by
  induction rows with
  | nil => rfl
  | cons row rest ih =>
      rw [List.countP_cons, List.countP_cons, List.map_cons, List.count_cons, ih]
      rcases lt_trichotomy value (key row) with below | same | above
      · simp only [below, below.le, below.ne', decide_true, beq_iff_eq, if_true, if_false]
        omega
      · simp only [same, le_refl, lt_irrefl, decide_true, decide_false, beq_self_eq_true, if_true,
          Bool.false_eq_true, if_false]
        omega
      · simp [above.not_gt, above.not_ge, above.ne]

/-- Rows of distinct keys are not tied. -/
theorem tiesOnOnePage_of_nodup (positive : 0 < limit) (distinct : (rows.map key).Nodup) :
    TiesOnOnePage key limit rows := by
  intro value
  obtain ⟨above, aboveCount⟩ : ∃ above,
      rows.countP (fun row => value < key row) = above := ⟨_, rfl⟩
  have single := List.nodup_iff_count_le_one.mp distinct value
  have parts := Nat.div_add_mod' above limit
  have small := Nat.mod_lt above positive
  refine ⟨above / limit, ?_, ?_⟩
  · rw [aboveCount]
    exact Nat.div_mul_le_self above limit
  · rw [countP_from_eq, aboveCount, Nat.succ_mul]
    omega

/-- All rows are on the first page. -/
theorem tiesOnOnePage_of_length_le (single : rows.length ≤ limit) :
    TiesOnOnePage key limit rows := by
  intro value
  refine ⟨0, ?_, ?_⟩
  · rw [Nat.zero_mul]
    exact Nat.zero_le _
  · rw [Nat.zero_add, Nat.one_mul]
    exact List.countP_le_length.trans single

/-- Rows that are tied on one page are not cut in two by a page. -/
theorem TiesOnOnePage.uncut (ties : TiesOnOnePage key limit rows) (count : Nat) (value : κ)
    (above : rows.countP (fun row => value < key row) < count * limit) :
    rows.countP (fun row => value ≤ key row) ≤ count * limit := by
  obtain ⟨number, start, stop⟩ := ties value
  have later : number < count := Nat.lt_of_mul_lt_mul_right (start.trans_lt above)
  exact stop.trans (Nat.mul_le_mul_right limit later)

/-- The page of each number has the same rows in every order. -/
theorem TiesOnOnePage.page_perm (ties : TiesOnOnePage key limit rows) {read : List α}
    (perm : rows.Perm read) (number : Nat) :
    (page limit (number * limit) (orderByDesc key rows)).Perm
      (page limit (number * limit) (orderByDesc key read)) := by
  have ordered : (orderByDesc key rows).Perm (orderByDesc key read) :=
    (orderByDesc_perm key rows).trans (perm.trans (orderByDesc_perm key read).symm)
  have front : ∀ count, ((orderByDesc key rows).take (count * limit)).Perm
      ((orderByDesc key read).take (count * limit)) := by
    intro count
    apply take_perm_of_uncut ordered (pairwise_orderByDesc key rows) (pairwise_orderByDesc key read)
    intro value
    rw [(orderByDesc_perm key rows).countP_eq, (orderByDesc_perm key rows).countP_eq]
    exact ties.uncut count value
  have next := front (number + 1)
  rw [Nat.succ_mul, ← take_append_page, ← take_append_page] at next
  exact (List.perm_append_left_iff _).mp
    (next.trans ((front number).symm.append_right _))

/-- Rows that are tied on one page are all listed once. -/
theorem TiesOnOnePage.listedPages_perm (ties : TiesOnOnePage key limit rows)
    {read : Nat → List α} (perm : ∀ number, rows.Perm (read number)) {count : Nat}
    (enough : rows.length ≤ count * limit) :
    (listedPages limit (fun number => orderByDesc key (read number)) count).Perm rows := by
  have front : ∀ count, (listedPages limit (fun number => orderByDesc key (read number)) count).Perm
      ((orderByDesc key rows).take (count * limit)) := by
    intro count
    induction count with
    | zero =>
        rw [Nat.zero_mul, List.take_zero]
        exact List.Perm.nil
    | succ count ih =>
        rw [listedPages_succ, Nat.succ_mul, ← take_append_page]
        exact ih.append (ties.page_perm (perm count) count).symm
  have all : (orderByDesc key rows).length ≤ count * limit :=
    (orderByDesc_perm key rows).length_eq.trans_le enough
  have listed := front count
  rw [List.take_of_length_le all] at listed
  exact listed.trans (orderByDesc_perm key rows)

/-- Neighbours of the same key may change places in a sorted list. -/
theorem pairwise_swap_of_tied {front back : List α} {before behind : α}
    (tied : key before = key behind)
    (descending : (front ++ before :: behind :: back).Pairwise
      fun row other => key other ≤ key row) :
    (front ++ behind :: before :: back).Pairwise fun row other => key other ≤ key row := by
  have sameKeys : (front ++ behind :: before :: back).map key =
      (front ++ before :: behind :: back).map key := by
    simp only [List.map_append, List.map_cons, tied]
  rw [← List.pairwise_map (f := key) (R := fun first second => second ≤ first), sameKeys,
    List.pairwise_map]
  exact descending

/-- Where the rows of a key are cut in two by a page, two of them stand next to each other
at the start of that page. -/
theorem exists_tie_of_not_tiesOnOnePage (positive : 0 < limit)
    (cut : ¬TiesOnOnePage key limit rows) :
    ∃ number front before behind back,
      orderByDesc key rows = front ++ before :: behind :: back ∧
        front.length + 1 = number * limit ∧ key before = key behind := by
  rw [TiesOnOnePage, not_forall] at cut
  obtain ⟨value, cut⟩ := cut
  rw [not_exists] at cut
  obtain ⟨above, aboveCount⟩ : ∃ above,
      rows.countP (fun row => value < key row) = above := ⟨_, rfl⟩
  obtain ⟨from', fromCount⟩ : ∃ from',
      rows.countP (fun row => value ≤ key row) = from' := ⟨_, rfl⟩
  rw [aboveCount, fromCount] at cut
  -- the page after the one with the first of the rows starts among them
  have start : above / limit * limit ≤ above := Nat.div_mul_le_self above limit
  have next : above < (above / limit + 1) * limit := by
    have parts := Nat.div_add_mod' above limit
    have small := Nat.mod_lt above positive
    rw [Nat.succ_mul]
    omega
  have stop : (above / limit + 1) * limit < from' := by
    by_contra stops
    exact cut (above / limit) ⟨start, Nat.le_of_not_lt stops⟩
  obtain ⟨place, boundary⟩ : ∃ place, place + 1 = (above / limit + 1) * limit :=
    ⟨(above / limit + 1) * limit - 1, by omega⟩
  rw [← boundary] at next stop
  have perm := orderByDesc_perm key rows
  have most : from' ≤ (orderByDesc key rows).length := by
    rw [perm.length_eq, ← fromCount]
    exact List.countP_le_length
  have tied : ∀ index (inside : index < (orderByDesc key rows).length), above ≤ index →
      index < from' → key (orderByDesc key rows)[index] = value := by
    intro index inside later earlier
    apply key_getElem_of_between (pairwise_orderByDesc key rows) inside
    · rw [perm.countP_eq, aboveCount]
      exact later
    · rw [perm.countP_eq, fromCount]
      exact earlier
  have beforeInside : place < (orderByDesc key rows).length := by omega
  have behindInside : place + 1 < (orderByDesc key rows).length := by omega
  refine ⟨above / limit + 1, (orderByDesc key rows).take place, (orderByDesc key rows)[place],
    (orderByDesc key rows)[place + 1], (orderByDesc key rows).drop (place + 2), ?_, ?_, ?_⟩
  · rw [← List.drop_eq_getElem_cons behindInside, ← List.drop_eq_getElem_cons beforeInside,
      List.take_append_drop]
  · rw [List.length_take_of_le beforeInside.le, boundary]
  · rw [tied place beforeInside (by omega) (by omega),
      tied (place + 1) behindInside (by omega) stop]

/-- Where the rows of a key are cut in two by a page, the queries may list one of them twice
and another not at all. -/
theorem exists_listedPages_of_not_tiesOnOnePage (positive : 0 < limit)
    (cut : ¬TiesOnOnePage key limit rows) :
    ∃ (read : Nat → List α) (front : List α) (before behind : α) (back : List α),
      (∀ number, rows.Perm (read number)) ∧ rows.Perm (front ++ before :: behind :: back) ∧
        ∀ count, rows.length ≤ count * limit →
          listedPages limit (fun number => orderByDesc key (read number)) count =
            front ++ before :: before :: back := by
  obtain ⟨start, front, before, behind, back, ordered, boundary, tied⟩ :=
    exists_tie_of_not_tiesOnOnePage positive cut
  have perm : rows.Perm (front ++ before :: behind :: back) := by
    rw [← ordered]
    exact (orderByDesc_perm key rows).symm
  have descending := pairwise_orderByDesc key rows
  rw [ordered] at descending
  have swappedDescending := pairwise_swap_of_tied tied descending
  -- the query for the page that starts behind the first of the two has them swapped
  let read : Nat → List α := fun number =>
    if number = start then front ++ behind :: before :: back
    else front ++ before :: behind :: back
  refine ⟨read, front, before, behind, back, ?_, perm, ?_⟩
  · intro number
    by_cases swapped : number = start
    · simp only [read, if_pos swapped]
      exact perm.trans ((List.Perm.swap behind before back).append_left front)
    · simp only [read, if_neg swapped]
      exact perm
  · intro count enough
    have same : ∀ number, page limit (number * limit) (orderByDesc key (read number)) =
        page limit (number * limit) (front ++ before :: before :: back) := by
      intro number
      by_cases swapped : number = start
      · have own : orderByDesc key (read number) = front ++ behind :: before :: back := by
          simp only [read, if_pos swapped]
          exact swappedDescending.insertionSort_eq
        rw [own, swapped]
        exact page_congr_before boundary behind before
      · have own : orderByDesc key (read number) = front ++ before :: behind :: back := by
          simp only [read, if_neg swapped]
          exact descending.insertionSort_eq
        rw [own]
        exact page_congr_start boundary swapped behind before
    have length : (front ++ before :: before :: back).length = rows.length := by
      rw [perm.length_eq, List.length_append, List.length_append, List.length_cons,
        List.length_cons, List.length_cons, List.length_cons]
    rw [listedPages_eq_take same, List.take_of_length_le (length.trans_le enough)]

end Ties

end StacksApi.Relational
