import Mathlib.Data.List.Induction

/-!
# Runs of enabled actions

A step takes a state and an action to the next state, or is not enabled.  A
condition on the actions of a run may look at the state that each is taken in.
-/

namespace StacksApi.Transition

universe u v

variable {σ : Type u} {α : Type v}

/-- The state after a sequence of actions, when each of them is enabled. -/
def execute (step : σ → α → Option σ) (state : σ) (actions : List α) : Option σ :=
  actions.foldlM step state

/-- Every action meets the condition in the state that it is taken in. -/
def Meets (condition : σ → α → Prop) (step : σ → α → Option σ) : σ → List α → Prop
  | _, [] => True
  | state, action :: actions =>
      condition state action ∧
        ∀ state', step state action = some state' → Meets condition step state' actions

variable {step : σ → α → Option σ} {condition : σ → α → Prop} {state : σ}

theorem execute_cons_eq_some_iff {action : α} {actions : List α} {last : σ} :
    execute step state (action :: actions) = some last ↔
      ∃ next, step state action = some next ∧ execute step next actions = some last := by
  rw [execute, List.foldlM_cons]
  exact Option.bind_eq_some_iff

/-- A property kept by every action that meets the condition holds after a run. -/
theorem execute_invariant {invariant : σ → Prop}
    (kept : ∀ before action after, invariant before → condition before action →
      step before action = some after → invariant after)
    {actions : List α} {last : σ} (init : invariant state)
    (meets : Meets condition step state actions)
    (ran : execute step state actions = some last) : invariant last := by
  induction actions generalizing state with
  | nil =>
      cases ran
      exact init
  | cons action actions ih =>
      obtain ⟨next, taken, rest⟩ := execute_cons_eq_some_iff.mp ran
      exact ih (kept state action next init meets.1 taken) (meets.2 next taken) rest

/-- A condition that the actions meet in every state is checked without the states. -/
theorem meets_of_forall {actions : List α}
    (all : ∀ action ∈ actions, ∀ state, condition state action) :
    Meets condition step state actions := by
  induction actions generalizing state with
  | nil => trivial
  | cons action actions ih =>
      exact ⟨all action List.mem_cons_self state,
        fun _ _ => ih fun later mem => all later (List.mem_cons_of_mem _ mem)⟩

theorem Meets.append {earlier later : List α} (first : Meets condition step state earlier)
    (second : ∀ middle, execute step state earlier = some middle →
      Meets condition step middle later) :
    Meets condition step state (earlier ++ later) := by
  induction earlier generalizing state with
  | nil => exact second state rfl
  | cons action earlier ih =>
      refine ⟨first.1, fun next taken => ih (first.2 next taken) fun middle ran => ?_⟩
      exact second middle (execute_cons_eq_some_iff.mpr ⟨next, taken, ran⟩)

end StacksApi.Transition
