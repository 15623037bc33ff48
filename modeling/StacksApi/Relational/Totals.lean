import StacksApi.Relational.Ties

/-!
# Reading up to a total

A client that raises its offset by the limit until it reaches the total that comes with each
page.  Provided that pages with rows come with the right total, it stops having seen each row
once exactly when it makes progress and the rows of each sort key are on one page, or there
are no rows.
-/

namespace StacksApi.Relational

open StacksApi.Transition

universe u

variable {ε : Type} {α β : Type}

/-- What the client sees from the page of a number on, of which each is asked for by a query
of its own.  Out of fuel, it has not stopped. -/
def readToTotal (query : Nat → Nat → Except ε (List β × Nat)) (limit : Nat) :
    Nat → Nat → Option (Except ε (List β))
  | 0, _ => none
  | fuel + 1, number =>
      match query number (number * limit) with
      | .error error => some (.error error)
      | .ok (results, total) =>
          if number * limit + limit < total then
            (readToTotal query limit fuel (number + 1)).map fun later => later.map (results ++ ·)
          else some (.ok results)

/-- What is listed on the pages from one on, each cut from an order of its own. -/
def pagesFrom (limit : Nat) (ordered : Nat → List α) (number count : Nat) : List α :=
  (List.range' number count).flatMap fun number => page limit (number * limit) (ordered number)

theorem pagesFrom_zero (limit : Nat) (ordered : Nat → List α) (count : Nat) :
    pagesFrom limit ordered 0 count = listedPages limit ordered count := by
  rw [pagesFrom, listedPages, List.range_eq_range']

theorem pagesFrom_succ (limit : Nat) (ordered : Nat → List α) (number count : Nat) :
    pagesFrom limit ordered number (count + 1) =
      page limit (number * limit) (ordered number) ++
        pagesFrom limit ordered (number + 1) count := by
  rw [pagesFrom, List.range'_succ, List.flatMap_cons]
  rfl

/-- Past the rows there are only empty pages. -/
theorem pagesFrom_eq_nil {limit : Nat} {ordered : Nat → List α} {size number : Nat}
    (length : ∀ number, (ordered number).length = size) (past : size ≤ number * limit)
    (count : Nat) : pagesFrom limit ordered number count = [] := by
  rw [pagesFrom, List.flatMap_eq_nil_iff]
  intro later mem
  have further : number * limit ≤ later * limit :=
    Nat.mul_le_mul_right limit (List.mem_range'_1.mp mem).1
  exact page_eq_nil_iff.mpr (.inr ((length later).trans_le (past.trans further)))

section Client

variable {query : Nat → Nat → Except ε (List β × Nat)} {limit : Nat} {record : α → Except ε β}
  {ordered : Nat → List α} {total : Nat → Nat}

/-- From a page with rows, the client sees all pages that follow. -/
theorem readToTotal_eq {size : Nat} (length : ∀ number, (ordered number).length = size)
    (pages : ∀ number, query number (number * limit) =
      ((page limit (number * limit) (ordered number)).mapM record).map fun results =>
        (results, total number))
    (inside : ∀ number, number * limit < size → total number = size) {fuel number : Nat}
    (before : number * limit < size) (enough : size ≤ (number + fuel) * limit) :
    readToTotal query limit fuel number =
      some ((pagesFrom limit ordered number fuel).mapM record) := by
  induction fuel generalizing number with
  | zero => exact absurd before (Nat.not_lt.mpr enough)
  | succ fuel ih =>
      rw [readToTotal, pages, inside number before, pagesFrom_succ, List.mapM_append]
      cases (page limit (number * limit) (ordered number)).mapM record with
      | error error => rfl
      | ok results =>
          change (if number * limit + limit < size then _ else _) = _
          by_cases more : number * limit + limit < size
          · have next : (number + 1) * limit < size := by rwa [Nat.succ_mul]
            rw [if_pos more, ih next (by rwa [Nat.add_assoc, Nat.add_comm 1])]
            cases (pagesFrom limit ordered (number + 1) fuel).mapM record <;> rfl
          · have past : size ≤ (number + 1) * limit := by
              rw [Nat.succ_mul]
              exact Nat.le_of_not_lt more
            rw [if_neg more, pagesFrom_eq_nil length past, List.mapM_nil]
            exact congrArg (fun seen => some (Except.ok seen)) (List.append_nil results).symm

/-- With more fuel, a client that has stopped has seen the same. -/
theorem readToTotal_mono {fuel fuel' number : Nat} {seen : Except ε (List β)}
    (stops : readToTotal query limit fuel number = some seen) (le : fuel ≤ fuel') :
    readToTotal query limit fuel' number = some seen := by
  induction fuel generalizing fuel' number seen with
  | zero => cases stops
  | succ fuel ih =>
      obtain ⟨fuel', rfl⟩ := Nat.exists_eq_succ_of_ne_zero (Nat.ne_of_gt (Nat.zero_lt_of_lt le))
      rw [readToTotal] at stops ⊢
      cases asked : query number (number * limit) with
      | error error =>
          rw [asked] at stops
          exact stops
      | ok answer =>
          rw [asked] at stops
          by_cases more : number * limit + limit < answer.2
          · simp only [if_pos more] at stops ⊢
            obtain ⟨later, laterStops, rfl⟩ := Option.map_eq_some_iff.mp stops
            rw [ih laterStops (Nat.le_of_succ_le_succ le)]
            rfl
          · simp only [if_neg more] at stops ⊢
            exact stops

/-- With empty pages, the client sees nothing. -/
theorem readToTotal_zero
    (pages : ∀ number, query number (number * 0) =
      ((page 0 (number * 0) (ordered number)).mapM record).map fun results =>
        (results, total number))
    {fuel number : Nat} {seen : Except ε (List β)}
    (stops : readToTotal query 0 fuel number = some seen) : seen = .ok [] := by
  induction fuel generalizing number seen with
  | zero => cases stops
  | succ fuel ih =>
      have empty : query number (number * 0) = .ok ([], total number) := by
        rw [pages, page, List.take_zero]
        rfl
      rw [readToTotal, empty] at stops
      change (if number * 0 + 0 < total number then _ else _) = _ at stops
      split at stops
      · obtain ⟨later, laterStops, rfl⟩ := Option.map_eq_some_iff.mp stops
        rw [ih laterStops]
        rfl
      · exact (Option.some.inj stops).symm

end Client

/-! ## Queries that read the rows in orders of their own -/

section Orders

variable {S : Type u} {κ γ : Type} [LinearOrder κ]

/-- In whatever states of reading the queries are asked, the client stops, having seen the
record of each row once. -/
def ReadsAll (Sees : S → Prop) (query : S → Nat → Except ε (List β × Nat)) (limit : Nat)
    (record : α → Except ε β) (rows : List α) : Prop :=
  ∀ read : Nat → S, (∀ number, Sees (read number)) →
    ∃ fuel results records,
      readToTotal (fun number => query (read number)) limit fuel 0 = some (.ok results) ∧
        rows.mapM record = .ok records ∧ results.Perm records

/-- There are no rows, or the client makes progress and the rows of each key are on one
page. -/
def WithinPages (key : α → κ) (limit : Nat) (rows : List α) : Prop :=
  rows = [] ∨ 0 < limit ∧ TiesOnOnePage key limit rows

variable {Sees : S → Prop} {table : S → List α} {key : α → κ} {record : α → Except ε β}
  {query : S → Nat → Except ε (List β × Nat)} {total : S → Nat → Nat} {limit : Nat}
  {rows : List α} {idOf : α → γ} {identify : β → γ}

/-- From the first page, the client sees the pages of the orders that the queries read. -/
theorem readToTotal_listedPages
    (pages : ∀ seen offset, query seen offset =
      ((page limit offset (orderByDesc key (table seen))).mapM record).map fun results =>
        (results, total seen offset))
    (sees : ∀ seen, Sees seen → rows.Perm (table seen))
    (counted : ∀ seen, Sees seen → ∀ offset < rows.length, total seen offset = rows.length)
    (nonempty : rows ≠ []) {read : Nat → S} (reads : ∀ number, Sees (read number)) {fuel : Nat}
    (enough : rows.length ≤ fuel * limit) :
    readToTotal (fun number => query (read number)) limit fuel 0 =
      some ((listedPages limit (fun number => orderByDesc key (table (read number)))
        fuel).mapM record) := by
  have length : ∀ number,
      (orderByDesc key (table (read number))).length = rows.length := by
    intro number
    rw [(orderByDesc_perm key _).length_eq, (sees _ (reads number)).length_eq]
  rw [← pagesFrom_zero]
  apply readToTotal_eq length fun number => pages _ _
  · exact fun number => counted _ (reads number) _
  · rw [Nat.zero_mul]
    exact List.length_pos_iff.mpr nonempty
  · rwa [Nat.zero_add]

/-- A client that sees all rows makes progress, unless there are none. -/
theorem ReadsAll.limit_pos (all : ReadsAll Sees query limit record rows)
    (pages : ∀ seen offset, query seen offset =
      ((page limit offset (orderByDesc key (table seen))).mapM record).map fun results =>
        (results, total seen offset))
    (nonempty : rows ≠ []) {once : S} (onceSees : Sees once) : 0 < limit := by
  rw [Nat.pos_iff_ne_zero]
  rintro rfl
  obtain ⟨fuel, results, records, stops, recorded, perm⟩ := all (fun _ => once) fun _ => onceSees
  cases readToTotal_zero (fun number => pages _ _) stops
  rw [List.nil_perm.mp perm, mapM_eq_ok_iff, List.forall₂_nil_right_iff] at recorded
  exact nonempty recorded

/-- A client that sees all rows in whatever orders they are read finds the rows of each key on
one page: else some orders show it a row twice. -/
theorem ReadsAll.tiesOnOnePage (all : ReadsAll Sees query limit record rows)
    (pages : ∀ seen offset, query seen offset =
      ((page limit offset (orderByDesc key (table seen))).mapM record).map fun results =>
        (results, total seen offset))
    (sees : ∀ seen, Sees seen → rows.Perm (table seen))
    (seeable : ∀ order, rows.Perm order → ∃ seen, Sees seen ∧ table seen = order)
    (counted : ∀ seen, Sees seen → ∀ offset < rows.length, total seen offset = rows.length)
    (identified : ∀ row result, record row = .ok result → identify result = idOf row)
    (distinct : (rows.map idOf).Nodup) (nonempty : rows ≠ []) (positive : 0 < limit) :
    TiesOnOnePage key limit rows := by
  by_contra cut
  obtain ⟨orders, front, before, behind, back, perm, parts, listed⟩ :=
    exists_listedPages_of_not_tiesOnOnePage positive cut
  choose read reads ordered using fun number => seeable (orders number) (perm number)
  obtain ⟨fuel, results, records, stops, recorded, all⟩ := all read reads
  have enough : rows.length ≤ (fuel + rows.length) * limit :=
    (Nat.le_add_left _ _).trans (Nat.le_mul_of_pos_right _ positive)
  have seen := readToTotal_mono stops (Nat.le_add_right fuel rows.length)
  rw [readToTotal_listedPages pages sees counted nonempty reads enough] at seen
  simp only [ordered] at seen
  rw [listed _ enough] at seen
  exact not_perm_of_repeated identified distinct parts (Option.some.inj seen) recorded all

/-- Where each page with rows comes with their number, rows with ids of their own are all seen
exactly when each has a record and they are within pages. -/
theorem readsAll_iff
    (pages : ∀ seen offset, query seen offset =
      ((page limit offset (orderByDesc key (table seen))).mapM record).map fun results =>
        (results, total seen offset))
    (sees : ∀ seen, Sees seen → rows.Perm (table seen))
    (seeable : ∀ order, rows.Perm order → ∃ seen, Sees seen ∧ table seen = order)
    (counted : 0 < limit → ∀ seen, Sees seen → ∀ offset < rows.length,
      total seen offset = rows.length)
    (uncounted : rows = [] → ∀ seen, Sees seen → total seen 0 = 0)
    (identified : ∀ row result, record row = .ok result → identify result = idOf row)
    (distinct : (rows.map idOf).Nodup) :
    ReadsAll Sees query limit record rows ↔
      (∀ row ∈ rows, Succeeds (record row)) ∧ WithinPages key limit rows := by
  constructor
  · intro all
    obtain ⟨once, onceSees, -⟩ := seeable rows (List.Perm.refl rows)
    obtain ⟨-, -, records, -, recorded, -⟩ := all (fun _ => once) fun _ => onceSees
    refine ⟨succeeds_mapM_iff.mp ⟨records, recorded⟩, ?_⟩
    rw [WithinPages, or_iff_not_imp_left]
    intro nonempty
    have positive := all.limit_pos pages nonempty onceSees
    exact ⟨positive, all.tiesOnOnePage pages sees seeable (counted positive) identified distinct
      nonempty positive⟩
  · rintro ⟨succeed, within⟩ read reads
    obtain ⟨records, recorded⟩ := succeeds_mapM_iff.mpr succeed
    by_cases empty : rows = []
    · subst empty
      have nothing : table (read 0) = [] := List.nil_perm.mp (sees _ (reads 0))
      cases recorded
      refine ⟨1, [], [], ?_, rfl, List.Perm.nil⟩
      have start : query (read 0) (0 * limit) = .ok ([], 0) := by
        rw [pages, nothing, Nat.zero_mul, uncounted rfl _ (reads 0)]
        have page : page limit 0 (orderByDesc key ([] : List α)) = [] := List.take_nil
        rw [page]
        rfl
      rw [readToTotal, start]
      rfl
    · obtain ⟨positive, ties⟩ := within.resolve_left empty
      have enough : rows.length ≤ rows.length * limit := Nat.le_mul_of_pos_right _ positive
      have listed := ties.listedPages_perm (fun number => sees _ (reads number)) enough
      obtain ⟨results, computed, perm⟩ := mapM_perm_ok listed recorded
      refine ⟨rows.length, results, records, ?_, recorded, perm⟩
      rw [readToTotal_listedPages pages sees (counted positive) empty reads enough, computed]

/-- Rows of distinct keys are within pages wherever the client makes progress. -/
theorem withinPages_of_nodup (positive : 0 < limit) (distinct : (rows.map key).Nodup) :
    WithinPages key limit rows :=
  .inr ⟨positive, tiesOnOnePage_of_nodup positive distinct⟩

end Orders

end StacksApi.Relational
