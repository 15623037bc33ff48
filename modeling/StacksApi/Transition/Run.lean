import Mathlib.Data.List.Induction

/-!
# Runs of a machine that may refuse messages

A step takes a state and a message to a new state and an output, or fails.  A
failed step is rolled back and the run goes on with the next message.
-/

namespace StacksApi.Transition

universe u v w x

variable {σ : Type u} {μ : Type v} {ε : Type w} {ω : Type x}

/-- The state after a message: a failed step leaves it as it was. -/
def commit (step : σ → μ → Except ε (σ × ω)) (state : σ) (message : μ) : σ :=
  match step state message with
  | .ok (state', _) => state'
  | .error _ => state

/-- The state after a sequence of messages. -/
def run (step : σ → μ → Except ε (σ × ω)) (state : σ) (messages : List μ) : σ :=
  messages.foldl (commit step) state

variable {step : σ → μ → Except ε (σ × ω)} {state : σ}

theorem commit_of_ok {message : μ} {state' : σ} {output : ω}
    (accepted : step state message = .ok (state', output)) :
    commit step state message = state' := by
  rw [commit, accepted]

theorem commit_of_error {message : μ} {error : ε} (refused : step state message = .error error) :
    commit step state message = state := by
  rw [commit, refused]

theorem run_append (first second : List μ) :
    run step state (first ++ second) = run step (run step state first) second :=
  List.foldl_append

@[simp]
theorem run_append_singleton (messages : List μ) (message : μ) :
    run step state (messages ++ [message]) = commit step (run step state messages) message :=
  run_append messages [message]

/-- Induction on a run for a property of its messages and its state. -/
theorem run_induction {motive : List μ → σ → Prop} (nil : motive [] state)
    (append_commit : ∀ past message, motive past (run step state past) →
      motive (past ++ [message]) (commit step (run step state past) message))
    (messages : List μ) : motive messages (run step state messages) := by
  induction messages using List.reverseRecOn with
  | nil => exact nil
  | append_singleton past message ih =>
      rw [run_append_singleton]
      exact append_commit past message ih

/-- The messages of a run with those before them. -/
theorem append_singleton_prefix_cons {past rest : List μ} {message first : μ} :
    past ++ [message] <+: first :: rest ↔
      past = [] ∧ message = first ∨ ∃ earlier, past = first :: earlier ∧
        earlier ++ [message] <+: rest := by
  cases past with
  | nil => simp
  | cons head earlier => simp [List.cons_prefix_cons, and_assoc]

/-- What holds at every split of a longer list holds at its front and at every
split of the rest. -/
theorem forall_split_cons_iff {α : Type u} {P : List α → α → Prop} {first : α} {rest : List α} :
    (∀ earlier item later, first :: rest = earlier ++ item :: later → P earlier item) ↔
      P [] first ∧
        ∀ earlier item later, rest = earlier ++ item :: later → P (first :: earlier) item := by
  constructor
  · intro holds
    refine ⟨holds [] first rest rfl, ?_⟩
    rintro earlier item later rfl
    exact holds (first :: earlier) item later rfl
  · rintro ⟨front, splits⟩ earlier item later same
    cases earlier with
    | nil =>
        cases same
        exact front
    | cons other earlier =>
        cases same
        exact splits earlier item later rfl

end StacksApi.Transition
