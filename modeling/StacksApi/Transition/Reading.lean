import StacksApi.Transition.Fallible
import Mathlib.Order.Monotone.Defs

/-!
# Computations that query a changing store

A computation sends one query after the other and may fail.  The store goes on
changing between its queries; the moments of its run are a preorder, and a query sees a
snapshot of the moment in which it is answered.
-/

namespace StacksApi.Transition

universe u v w x

/-- A computation over the snapshots `τ` that its queries see. -/
inductive Reading (τ : Type u) (ε : Type v) (α : Type w)
  | done (outcome : Except ε α)
  | query (next : τ → Reading τ ε α)

namespace Reading

variable {τ : Type u} {ε : Type v} {α β : Type w}

/-- Send one query. -/
def ask (answer : τ → Except ε α) : Reading τ ε α :=
  .query fun seen => .done (answer seen)

/-- The first error is the outcome. -/
def andThen (next : α → Reading τ ε β) : Reading τ ε α → Reading τ ε β
  | .done (.ok value) => next value
  | .done (.error error) => .done (.error error)
  | .query rest => .query fun seen => andThen next (rest seen)

instance : Monad (Reading τ ε) where
  pure value := .done (.ok value)
  bind first next := first.andThen next

instance : MonadLift (Except ε) (Reading τ ε) where
  monadLift := .done

/-- One computation after the other for the elements of a list. -/
def mapSeries (f : α → Reading τ ε β) : List α → Reading τ ε (List β)
  | [] => .done (.ok [])
  | item :: items => (f item).andThen fun result =>
      (mapSeries f items).andThen fun results => .done (.ok (result :: results))

/-- Look up each element of a list; what is not found is an error. -/
def findSeries (find : α → Reading τ ε (Option β)) (missing : ε) (items : List α) :
    Reading τ ε (List β) :=
  mapSeries (fun item => (find item).andThen fun found =>
    .done (match found with
      | some result => .ok result
      | none => .error missing)) items

/-- Whether one of the queries, sent in their order up to the first that does, finds
something. -/
def anySeries : List (τ → Bool) → Reading τ ε Bool
  | [] => .done (.ok false)
  | finds :: queries => .query fun seen =>
      if finds seen then .done (.ok true) else anySeries queries

/-- The outcome when all queries see one snapshot. -/
def alone (seen : τ) : Reading τ ε α → Except ε α
  | .done outcome => outcome
  | .query next => (next seen).alone seen

/-! ## Interleaving -/

variable {σ : Type x} [Preorder σ]

/-- A computation that starts in one moment may end in another with an outcome. -/
inductive Ends (sees : σ → τ → Prop) :
    σ → Reading τ ε α → σ → Except ε α → Prop
  | done (start : σ) (outcome : Except ε α) : Ends sees start (.done outcome) start outcome
  | query {start answered last : σ} {seen : τ} {next : τ → Reading τ ε α}
      {outcome : Except ε α} (later : start ≤ answered) (sight : sees answered seen)
      (rest : Ends sees answered (next seen) last outcome) :
      Ends sees start (.query next) last outcome

variable {sees : σ → τ → Prop} {start last : σ}

theorem Ends.le {reading : Reading τ ε α} {outcome : Except ε α}
    (ends : Ends sees start reading last outcome) : start ≤ last := by
  induction ends with
  | done => exact le_refl _
  | query later _ _ ih => exact le_trans later ih

@[simp]
theorem ends_done_iff {outcome result : Except ε α} :
    Ends sees start (.done outcome) last result ↔ last = start ∧ result = outcome := by
  constructor
  · intro ends
    cases ends
    exact ⟨rfl, rfl⟩
  · rintro ⟨rfl, rfl⟩
    exact .done _ _

theorem ends_query_iff {next : τ → Reading τ ε α} {outcome : Except ε α} :
    Ends sees start (.query next) last outcome ↔
      ∃ answered seen, start ≤ answered ∧ sees answered seen ∧
        Ends sees answered (next seen) last outcome := by
  constructor
  · intro ends
    cases ends with
    | query later sight rest => exact ⟨_, _, later, sight, rest⟩
  · rintro ⟨answered, seen, later, sight, rest⟩
    exact .query later sight rest

@[simp]
theorem ends_pure_iff {value : α} {result : Except ε α} :
    Ends sees start (pure value) last result ↔ last = start ∧ result = .ok value :=
  ends_done_iff

@[simp]
theorem ends_lift_iff {computed : Except ε α} {result : Except ε α} :
    Ends sees start (liftM computed : Reading τ ε α) last result ↔
      last = start ∧ result = computed :=
  ends_done_iff

theorem ends_ask_iff {answer : τ → Except ε α} {outcome : Except ε α} :
    Ends sees start (ask answer) last outcome ↔
      start ≤ last ∧ ∃ seen, sees last seen ∧ outcome = answer seen := by
  constructor
  · intro ends
    obtain ⟨answered, seen, later, sight, rest⟩ := ends_query_iff.mp ends
    obtain ⟨rfl, rfl⟩ := ends_done_iff.mp rest
    exact ⟨later, seen, sight, rfl⟩
  · rintro ⟨later, seen, sight, rfl⟩
    exact .query later sight (.done _ _)

/-- A sequence fails in its first part, or goes on from the moment in which that ends. -/
theorem ends_bind_iff {first : Reading τ ε α} {next : α → Reading τ ε β}
    {outcome : Except ε β} :
    Ends sees start (first >>= next) last outcome ↔
      (∃ error, outcome = .error error ∧ Ends sees start first last (.error error)) ∨
        ∃ value middle, Ends sees start first middle (.ok value) ∧
          Ends sees middle (next value) last outcome := by
  change Ends sees start (first.andThen next) last outcome ↔ _
  constructor
  · intro ends
    induction first generalizing start with
    | done computed =>
        cases computed with
        | error error =>
            obtain ⟨rfl, rfl⟩ := ends_done_iff.mp ends
            exact Or.inl ⟨error, rfl, .done _ _⟩
        | ok value => exact Or.inr ⟨value, start, .done _ _, ends⟩
    | query rest ih =>
        cases ends with
        | query later sight ends =>
            rcases ih _ ends with ⟨error, rfl, failed⟩ | ⟨value, middle, ended, after⟩
            · exact Or.inl ⟨error, rfl, .query later sight failed⟩
            · exact Or.inr ⟨value, middle, .query later sight ended, after⟩
  · rintro (⟨error, rfl, failed⟩ | ⟨value, middle, ended, after⟩)
    · generalize failure : Except.error error = outcome at failed
      induction failed with
      | done start outcome =>
          subst failure
          exact .done _ _
      | query later sight _ ih => exact .query later sight (ih failure)
    · generalize success : Except.ok value = outcome at ended
      induction ended with
      | done start outcome =>
          subst success
          exact after
      | query later sight _ ih => exact .query later sight (ih after success)

theorem ends_bind_ok_iff {first : Reading τ ε α} {next : α → Reading τ ε β} {result : β} :
    Ends sees start (first >>= next) last (.ok result) ↔
      ∃ value middle, Ends sees start first middle (.ok value) ∧
        Ends sees middle (next value) last (.ok result) := by
  rw [ends_bind_iff]
  constructor
  · rintro (⟨error, ⟨⟩, -⟩ | ended)
    exact ended
  · exact Or.inr

/-- What is lifted into a computation is there at once. -/
theorem ends_lift_bind_iff {computed : Except ε α} {next : α → Reading τ ε β} {result : β} :
    Ends sees start (liftM computed >>= next) last (.ok result) ↔
      ∃ value, computed = .ok value ∧ Ends sees start (next value) last (.ok result) := by
  rw [ends_bind_ok_iff]
  constructor
  · rintro ⟨value, middle, lifted, ended⟩
    obtain ⟨rfl, same⟩ := ends_lift_iff.mp lifted
    exact ⟨value, same.symm, ended⟩
  · rintro ⟨value, same, ended⟩
    exact ⟨value, start, ends_lift_iff.mpr ⟨rfl, same.symm⟩, ended⟩

/-- A query comes first. -/
theorem ends_ask_bind_iff {answer : τ → Except ε α} {next : α → Reading τ ε β} {result : β} :
    Ends sees start (ask answer >>= next) last (.ok result) ↔
      ∃ value middle seen, start ≤ middle ∧ sees middle seen ∧ answer seen = .ok value ∧
        Ends sees middle (next value) last (.ok result) := by
  rw [ends_bind_ok_iff]
  constructor
  · rintro ⟨value, middle, asked, ended⟩
    obtain ⟨later, seen, sight, same⟩ := ends_ask_iff.mp asked
    exact ⟨value, middle, seen, later, sight, same.symm, ended⟩
  · rintro ⟨value, middle, seen, later, sight, same, ended⟩
    exact ⟨value, middle, ends_ask_iff.mpr ⟨later, seen, sight, same.symm⟩, ended⟩

/-- A query that always has an answer is passed. -/
theorem Ends.of_total {answer : τ → Except ε α} {value : τ → α}
    (total : ∀ seen, answer seen = .ok (value seen)) {next : α → Reading τ ε β}
    {outcome : Except ε β} (ends : Ends sees start (ask answer >>= next) last outcome) :
    ∃ middle seen, start ≤ middle ∧ sees middle seen ∧
      Ends sees middle (next (value seen)) last outcome := by
  rcases ends_bind_iff.mp ends with ⟨error, rfl, failed⟩ | ⟨found, middle, asked, rest⟩
  · obtain ⟨-, seen, -, same⟩ := ends_ask_iff.mp failed
    cases same.trans (total seen)
  · obtain ⟨later, seen, sight, same⟩ := ends_ask_iff.mp asked
    cases same.trans (total seen)
    exact ⟨middle, seen, later, sight, rest⟩

@[simp]
theorem lift_ok_bind (value : α) (next : α → Reading τ ε β) :
    ((liftM (.ok value : Except ε α) : Reading τ ε α) >>= next) = next value :=
  rfl

/-- A computation that is run alone ends in the moment in which it starts. -/
theorem ends_alone {seen : τ} (sight : sees start seen) (reading : Reading τ ε α) :
    Ends sees start reading start (reading.alone seen) := by
  induction reading with
  | done outcome => exact .done _ _
  | query next ih => exact .query (le_refl _) sight (ih seen)

theorem alone_bind (seen : τ) (first : Reading τ ε α) (next : α → Reading τ ε β) :
    (first >>= next).alone seen = first.alone seen >>= fun value => (next value).alone seen := by
  change (first.andThen next).alone seen = _
  induction first with
  | done computed => cases computed <;> rfl
  | query rest ih => exact ih seen

@[simp]
theorem alone_pure (seen : τ) (value : α) :
    (pure value : Reading τ ε α).alone seen = .ok value :=
  rfl

@[simp]
theorem alone_lift (seen : τ) (computed : Except ε α) :
    (liftM computed : Reading τ ε α).alone seen = computed :=
  rfl

@[simp]
theorem alone_ask (seen : τ) (answer : τ → Except ε α) :
    (ask answer).alone seen = answer seen :=
  rfl

/-! ## Series -/

/-- Each result is that of a computation within the whole, and they come in order. -/
theorem ends_mapSeries_ok {f : α → Reading τ ε β} {items : List α} {results : List β}
    (ends : Ends sees start (mapSeries f items) last (.ok results)) :
    items.Forall₂ (fun item result => ∃ before after, start ≤ before ∧ after ≤ last ∧
      Ends sees before (f item) after (.ok result)) results := by
  induction items generalizing start results with
  | nil =>
      obtain ⟨rfl, same⟩ := ends_done_iff.mp ends
      cases same
      exact .nil
  | cons item items ih =>
      rcases ends_bind_iff.mp ends with ⟨error, same, -⟩ | ⟨result, middle, first, ends⟩
      · cases same
      rcases ends_bind_iff.mp ends with ⟨error, same, -⟩ | ⟨rest, middle', series, ends⟩
      · cases same
      obtain ⟨rfl, same⟩ := ends_done_iff.mp ends
      cases same
      refine .cons ⟨start, middle, le_refl _, series.le, first⟩ ?_
      apply (ih series).imp
      rintro item result ⟨before, after, later, earlier, ends⟩
      exact ⟨before, after, le_trans first.le later, earlier, ends⟩

/-- An error of a series is that of the computation for one of the elements. -/
theorem ends_mapSeries_error {f : α → Reading τ ε β} {items : List α} {error : ε}
    (ends : Ends sees start (mapSeries f items) last (.error error)) :
    ∃ item ∈ items, ∃ before, start ≤ before ∧ Ends sees before (f item) last (.error error) := by
  induction items generalizing start with
  | nil =>
      obtain ⟨-, same⟩ := ends_done_iff.mp ends
      cases same
  | cons item items ih =>
      rcases ends_bind_iff.mp ends with ⟨_, same, failed⟩ | ⟨result, middle, first, ends⟩
      · cases same
        exact ⟨item, List.mem_cons_self, start, le_refl _, failed⟩
      rcases ends_bind_iff.mp ends with ⟨_, same, failed⟩ | ⟨rest, middle', series, ends⟩
      · cases same
        obtain ⟨other, mem, before, later, failed⟩ := ih failed
        exact ⟨other, List.mem_cons_of_mem _ mem, before, le_trans first.le later, failed⟩
      · obtain ⟨-, same⟩ := ends_done_iff.mp ends
        cases same

/-- The elements that a series has found come in the order of what they are looked up for. -/
theorem ends_findSeries_ok {find : α → Reading τ ε (Option β)} {missing : ε} {items : List α}
    {results : List β}
    (ends : Ends sees start (findSeries find missing items) last (.ok results)) :
    items.Forall₂ (fun item result => ∃ before after, start ≤ before ∧ after ≤ last ∧
      Ends sees before (find item) after (.ok (some result))) results := by
  apply (ends_mapSeries_ok ends).imp
  rintro item result ⟨before, after, later, earlier, found⟩
  obtain ⟨value, middle, looked, rest⟩ := ends_bind_ok_iff.mp found
  cases value with
  | none =>
      obtain ⟨-, same⟩ := ends_done_iff.mp rest
      cases same
  | some value =>
      obtain ⟨rfl, ⟨⟩⟩ := ends_done_iff.mp rest
      exact ⟨before, _, later, earlier, looked⟩

/-- Where no element can be missing, a series of look-ups finds all of them in their order, or
fails as one of the look-ups does. -/
theorem ends_findSeries {find : α → Reading τ ε (Option β)} {missing : ε} {items : List α}
    {outcome : Except ε (List β)}
    (never : ∀ item ∈ items, ∀ before after, start ≤ before →
      ¬Ends sees before (find item) after (.ok none))
    (ends : Ends sees start (findSeries find missing items) last outcome) :
    (∃ results, outcome = .ok results ∧ items.Forall₂ (fun item result =>
        ∃ before after, start ≤ before ∧ after ≤ last ∧
          Ends sees before (find item) after (.ok (some result))) results) ∨
      ∃ error, outcome = .error error ∧ ∃ item ∈ items, ∃ before, start ≤ before ∧
        Ends sees before (find item) last (.error error) := by
  cases outcome with
  | ok results => exact Or.inl ⟨results, rfl, ends_findSeries_ok ends⟩
  | error error =>
      refine Or.inr ⟨error, rfl, ?_⟩
      obtain ⟨item, mem, before, later, failed⟩ := ends_mapSeries_error ends
      rcases ends_bind_iff.mp failed with ⟨_, ⟨⟩, failed⟩ | ⟨value, middle, looked, rest⟩
      · exact ⟨item, mem, before, later, failed⟩
      · cases value with
        | none => exact absurd looked (never item mem before middle later)
        | some value =>
            obtain ⟨-, same⟩ := ends_done_iff.mp rest
            cases same

theorem alone_anySeries (seen : τ) (queries : List (τ → Bool)) :
    (anySeries queries : Reading τ ε Bool).alone seen =
      .ok (queries.any fun finds => finds seen) := by
  induction queries with
  | nil => rfl
  | cons finds queries ih =>
      rw [anySeries, alone, List.any_cons]
      cases finds seen with
      | true => rfl
      | false => exact ih

/-- Queries that go on finding what they have once found miss only what none of them finds
in the beginning. -/
theorem ends_anySeries {queries : List (τ → Bool)} {outcome : Except ε Bool}
    (kept : ∀ finds ∈ queries, ∀ before after seen seen', before ≤ after → sees before seen →
      sees after seen' → finds seen = true → finds seen' = true)
    (ends : Ends sees start (anySeries queries) last outcome) :
    outcome = .ok true ∨ outcome = .ok false ∧
      ∀ seen, sees start seen → ∀ finds ∈ queries, finds seen = false := by
  induction queries generalizing start with
  | nil =>
      obtain ⟨-, rfl⟩ := ends_done_iff.mp ends
      exact Or.inr ⟨rfl, fun _ _ => List.forall_mem_nil _⟩
  | cons finds queries ih =>
      obtain ⟨answered, seen', later, sight', rest⟩ := ends_query_iff.mp ends
      cases found : finds seen' with
      | true =>
          rw [if_pos found] at rest
          obtain ⟨-, rfl⟩ := ends_done_iff.mp rest
          exact Or.inl rfl
      | false =>
          rw [if_neg (Bool.eq_false_iff.mp found)] at rest
          rcases ih (fun other mem => kept other (List.mem_cons_of_mem _ mem)) rest with
            rfl | ⟨rfl, missed⟩
          · exact Or.inl rfl
          refine Or.inr ⟨rfl, fun seen sight other mem => ?_⟩
          -- what is not found now was not found before either
          have missed' : other seen' = false := by
            rcases List.mem_cons.mp mem with rfl | later
            · exact found
            · exact missed seen' sight' other later
          by_contra before
          rw [kept other mem start answered seen seen' later sight sight'
            (Bool.not_eq_false _ ▸ before)] at missed'
          cases missed'

end Reading

end StacksApi.Transition
