import Mathlib.Data.List.Forall2
import Mathlib.Data.List.Perm.Basic

/-!
# Computations that may fail

How a sequence of fallible steps, and a fallible function mapped over a list,
come to succeed.
-/

namespace StacksApi.Transition

universe u v

variable {ε : Type u} {α β γ : Type v}

theorem Except.bind_eq_ok {first : Except ε α} {next : α → Except ε β} {result : β} :
    first >>= next = .ok result ↔ ∃ value, first = .ok value ∧ next value = .ok result := by
  cases first with
  | error error =>
      constructor
      · rintro ⟨⟩
      · rintro ⟨_, ⟨⟩, _⟩
  | ok value =>
      constructor
      · intro same
        exact ⟨value, rfl, same⟩
      · rintro ⟨_, ⟨⟩, same⟩
        exact same

theorem Except.map_eq_ok {first : Except ε α} {f : α → β} {result : β} :
    first.map f = .ok result ↔ ∃ value, first = .ok value ∧ f value = result := by
  cases first with
  | error error =>
      constructor
      · rintro ⟨⟩
      · rintro ⟨_, ⟨⟩, _⟩
  | ok value =>
      constructor
      · rintro ⟨⟩
        exact ⟨value, rfl, rfl⟩
      · rintro ⟨_, ⟨⟩, rfl⟩
        rfl

theorem Except.map_bind (first : Except ε α) (next : α → Except ε β) (f : β → γ) :
    (first >>= next).map f = first >>= fun value => (next value).map f := by
  cases first <;> rfl

theorem Except.map_eq_bind (first : Except ε α) (f : α → β) :
    first.map f = first >>= fun value => pure (f value) := by
  cases first <;> rfl

theorem Except.map_self (first : Except ε α) : first.map (fun value => value) = first := by
  cases first <;> rfl

/-! ## Success -/

/-- The computation has a result. -/
def Succeeds (computation : Except ε α) : Prop :=
  ∃ value, computation = .ok value

@[simp]
theorem succeeds_ok (value : α) : Succeeds (.ok value : Except ε α) :=
  ⟨value, rfl⟩

@[simp]
theorem succeeds_pure (value : α) : Succeeds (pure value : Except ε α) :=
  ⟨value, rfl⟩

@[simp]
theorem not_succeeds_error (error : ε) : ¬Succeeds (.error error : Except ε α) := by
  rintro ⟨_, ⟨⟩⟩

theorem succeeds_bind_iff {first : Except ε α} {next : α → Except ε β} :
    Succeeds (first >>= next) ↔ ∃ value, first = .ok value ∧ Succeeds (next value) := by
  constructor
  · rintro ⟨result, ok⟩
    obtain ⟨value, firstOk, nextOk⟩ := Except.bind_eq_ok.mp ok
    exact ⟨value, firstOk, result, nextOk⟩
  · rintro ⟨value, firstOk, result, nextOk⟩
    exact ⟨result, Except.bind_eq_ok.mpr ⟨value, firstOk, nextOk⟩⟩

theorem succeeds_bind_of_ok {first : Except ε α} {next : α → Except ε β} {value : α}
    (ok : first = .ok value) : Succeeds (first >>= next) ↔ Succeeds (next value) := by
  rw [ok]
  rfl

/-- Steps whose success does not depend on the value before succeed one by one. -/
theorem succeeds_bind_of_iff {first : Except ε α} {next : α → Except ε β} {P : Prop}
    (independent : ∀ value, Succeeds (next value) ↔ P) :
    Succeeds (first >>= next) ↔ Succeeds first ∧ P := by
  rw [succeeds_bind_iff]
  simp only [independent, exists_and_right]
  rfl

/-- A step that never fails does not decide on success. -/
theorem succeeds_bind_of_total {first : Except ε α} {next : α → Except ε β}
    (total : ∀ value, Succeeds (next value)) : Succeeds (first >>= next) ↔ Succeeds first :=
  (succeeds_bind_of_iff fun value => iff_true_intro (total value)).trans (iff_of_eq (and_true _))

@[simp]
theorem succeeds_map_iff {first : Except ε α} {f : α → β} :
    Succeeds (first.map f) ↔ Succeeds first := by
  cases first with
  | error error => simp [Except.map]
  | ok value => simp [Except.map]

/-! ## Lists -/

/-- A loop whose steps succeed or fail whatever the state is. -/
theorem succeeds_foldlM_of_iff {σ : Type} {step : σ → α → Except ε σ} {P : α → Prop}
    {items : List α} (independent : ∀ item ∈ items, ∀ state, Succeeds (step state item) ↔ P item)
    (state : σ) : Succeeds (items.foldlM step state) ↔ ∀ item ∈ items, P item := by
  induction items generalizing state with
  | nil => simp
  | cons item items ih =>
      have rest := ih fun later mem => independent later (List.mem_cons_of_mem _ mem)
      rw [List.foldlM_cons, succeeds_bind_of_iff rest, List.forall_mem_cons,
        independent item List.mem_cons_self]

/-- Whatever stands in the second list is related to something in the first. -/
theorem exists_left_of_forall₂ {R : α → β → Prop} {first : List α} {second : List β}
    (related : List.Forall₂ R first second) {b : β} (mem : b ∈ second) : ∃ a ∈ first, R a b := by
  induction related with
  | nil => cases mem
  | cons head _ ih =>
      rcases List.mem_cons.mp mem with rfl | mem
      · exact ⟨_, List.mem_cons_self, head⟩
      · obtain ⟨a, aMem, holds⟩ := ih mem
        exact ⟨a, List.mem_cons_of_mem _ aMem, holds⟩

theorem forall₂_trans {R : α → β → Prop} {S : β → γ → Prop} {T : α → γ → Prop}
    {first : List α} {second : List β} {third : List γ} (left : List.Forall₂ R first second)
    (right : List.Forall₂ S second third) (compose : ∀ a b c, R a b → S b c → T a c) :
    List.Forall₂ T first third := by
  induction left generalizing third with
  | nil =>
      cases right
      exact .nil
  | cons head _ ih =>
      cases right with
      | cons next rest => exact .cons (compose _ _ _ head next) (ih rest)

/-- Whether all of a third list have a property can be told from a second list when
both lists stand for the first. -/
theorem forall_mem_iff_forall₂ {R S : α → β → Prop} {T : α → γ → Prop} {P : γ → Prop}
    {first : List α} {second : List β} {third : List γ} (left : List.Forall₂ R first second)
    (right : List.Forall₂ T first third) (same : ∀ a b c, R a b → T a c → (P c ↔ S a b)) :
    (∀ c ∈ third, P c) ↔ List.Forall₂ S first second := by
  induction left generalizing third with
  | nil =>
      cases right
      simp
  | cons head _ ih =>
      cases right with
      | cons next rest =>
          rw [List.forall_mem_cons, List.forall₂_cons, same _ _ _ head next, ih rest]

section MapM

variable {f : α → Except ε β} {items : List α} {results : List β}

/-- Mapping succeeds with the list of the single results. -/
theorem mapM_eq_ok_iff :
    items.mapM f = .ok results ↔
      List.Forall₂ (fun item result => f item = .ok result) items results := by
  induction items generalizing results with
  | nil =>
      rw [List.forall₂_nil_left_iff]
      constructor
      · rintro ⟨⟩
        rfl
      · rintro rfl
        rfl
  | cons item items ih =>
      rw [List.mapM_cons, Except.bind_eq_ok, List.forall₂_cons_left_iff]
      constructor
      · rintro ⟨first, firstOk, continued⟩
        obtain ⟨rest, restOk, same⟩ := Except.bind_eq_ok.mp continued
        cases same
        exact ⟨first, rest, firstOk, ih.mp restOk, rfl⟩
      · rintro ⟨first, rest, firstOk, restOk, rfl⟩
        refine ⟨first, firstOk, ?_⟩
        rw [ih.mpr restOk]
        rfl

theorem mem_of_mapM_ok (computed : items.mapM f = .ok results) {result : β}
    (mem : result ∈ results) : ∃ item ∈ items, f item = .ok result :=
  exists_left_of_forall₂ (mapM_eq_ok_iff.mp computed) mem

theorem exists_of_mapM_ok (computed : items.mapM f = .ok results) {item : α}
    (mem : item ∈ items) : ∃ result ∈ results, f item = .ok result :=
  exists_left_of_forall₂ (mapM_eq_ok_iff.mp computed).flip mem

/-- Mapping succeeds when it does for every item. -/
theorem exists_mapM_ok (each : ∀ item ∈ items, ∃ result, f item = .ok result) :
    ∃ results, items.mapM f = .ok results := by
  induction items with
  | nil => exact ⟨[], rfl⟩
  | cons item items ih =>
      obtain ⟨first, firstOk⟩ := each item List.mem_cons_self
      obtain ⟨rest, restOk⟩ := ih fun later mem => each later (List.mem_cons_of_mem _ mem)
      refine ⟨first :: rest, ?_⟩
      rw [List.mapM_cons, firstOk, restOk]
      rfl

theorem succeeds_mapM_iff :
    Succeeds (items.mapM f) ↔ ∀ item ∈ items, Succeeds (f item) := by
  constructor
  · rintro ⟨results, computed⟩ item mem
    obtain ⟨result, -, ok⟩ := exists_of_mapM_ok computed mem
    exact ⟨result, ok⟩
  · exact exists_mapM_ok

/-- Items that are told apart have results that are, when a result tells its item. -/
theorem nodup_of_mapM_ok {key : α → γ} (computed : items.mapM f = .ok results)
    (distinct : (items.map key).Nodup) (told : ∀ first second result, f first = .ok result →
      f second = .ok result → key first = key second) : results.Nodup := by
  rw [mapM_eq_ok_iff] at computed
  induction computed with
  | nil => exact List.nodup_nil
  | @cons item result items results ok related ih =>
      rw [List.map_cons, List.nodup_cons] at distinct
      refine List.nodup_cons.mpr ⟨fun mem => ?_, ih distinct.2⟩
      obtain ⟨other, otherMem, otherOk⟩ := exists_left_of_forall₂ related mem
      rw [told item other result ok otherOk] at distinct
      exact distinct.1 (List.mem_map_of_mem otherMem)

/-- What is read off the results is what the items have. -/
theorem map_eq_map_of_mapM_ok {g : β → γ} {h : α → γ} (computed : items.mapM f = .ok results)
    (each : ∀ item ∈ items, ∀ result, f item = .ok result → g result = h item) :
    results.map g = items.map h := by
  rw [mapM_eq_ok_iff] at computed
  induction computed with
  | nil => rfl
  | @cons item result items results ok related ih =>
      rw [List.map_cons, List.map_cons, each item List.mem_cons_self result ok,
        ih fun later mem => each later (List.mem_cons_of_mem _ mem)]

theorem mapM_congr_of_mem {g : α → Except ε β} (same : ∀ item ∈ items, f item = g item) :
    items.mapM f = items.mapM g := by
  induction items with
  | nil => rfl
  | cons item items ih =>
      rw [List.mapM_cons, List.mapM_cons, same item List.mem_cons_self,
        ih fun later mem => same later (List.mem_cons_of_mem _ mem)]

/-- Mapping succeeds with results that stand in a relation to their sources when
every source has such a result. -/
theorem exists_mapM_forall₂_iff {source : γ → α} {R : γ → β → Prop} {sources : List γ} :
    (∃ results, (sources.map source).mapM f = .ok results ∧ List.Forall₂ R sources results) ↔
      ∀ given ∈ sources, ∃ result, f (source given) = .ok result ∧ R given result := by
  induction sources with
  | nil =>
      constructor
      · rintro _ given ⟨⟩
      · intro _
        exact ⟨[], rfl, .nil⟩
  | cons given sources ih =>
      rw [List.forall_mem_cons, ← ih]
      constructor
      · rintro ⟨_, computed, related⟩
        rw [mapM_eq_ok_iff] at computed
        cases related with
        | cons holds related =>
            cases computed with
            | cons firstOk restOk =>
                exact ⟨⟨_, firstOk, holds⟩, _, mapM_eq_ok_iff.mpr restOk, related⟩
      · rintro ⟨⟨first, firstOk, holds⟩, rest, restOk, related⟩
        refine ⟨first :: rest, mapM_eq_ok_iff.mpr ?_, .cons holds related⟩
        exact .cons firstOk (mapM_eq_ok_iff.mp restOk)

/-- Changing the items changes the results alike when it does so one by one. -/
theorem mapM_map_of_commute {change : α → α} {changeResult : β → β} {g : α → Except ε β}
    (commute : ∀ item, f (change item) = (g item).map changeResult) (items : List α) :
    (items.map change).mapM f = (items.mapM g).map (List.map changeResult) := by
  induction items with
  | nil => rfl
  | cons item items ih =>
      rw [List.map_cons, List.mapM_cons, List.mapM_cons, commute, ih]
      cases g item with
      | error error => rfl
      | ok first =>
          cases items.mapM g with
          | error error => rfl
          | ok rest => rfl

/-- Mapping fewer items, when the results tell which. -/
theorem mapM_filter_ok {p : α → Bool} {q : β → Bool} (computed : items.mapM f = .ok results)
    (same : ∀ item result, f item = .ok result → p item = q result) :
    (items.filter p).mapM f = .ok (results.filter q) := by
  rw [mapM_eq_ok_iff] at computed ⊢
  induction computed with
  | nil => exact .nil
  | @cons item result items results ok _ ih =>
      rw [List.filter_cons, List.filter_cons, same item result ok]
      split
      · exact .cons ok ih
      · exact ih

/-- Mapping the items in another order. -/
theorem mapM_perm_ok {others : List α} (perm : others.Perm items)
    (computed : items.mapM f = .ok results) :
    ∃ otherResults, others.mapM f = .ok otherResults ∧ otherResults.Perm results := by
  obtain ⟨otherResults, related, resultPerm⟩ :=
    List.perm_comp_forall₂ perm (mapM_eq_ok_iff.mp computed)
  exact ⟨otherResults, mapM_eq_ok_iff.mpr related, resultPerm⟩

end MapM

end StacksApi.Transition
