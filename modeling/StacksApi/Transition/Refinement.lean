import StacksApi.Transition.Run

/-!
# Runs that refine runs

A machine whose steps perform calls of another one runs as that one does on all the calls
in their order.  Messages that change nothing where they come may be added to a run.
-/

namespace StacksApi.Transition

universe u v w x y

variable {σ : Type u} {κ : Type v} {ε : Type w} {ω : Type x} {μ : Type y}
variable {step : σ → κ → Except ε (σ × ω)} {state : σ}

/-! ## Messages that perform calls -/

/-- The calls of a run, message by message. -/
def performed (receive : σ → μ → σ) (calls : σ → μ → List κ) : σ → List μ → List κ
  | _, [] => []
  | state, message :: messages =>
      calls state message ++ performed receive calls (receive state message) messages

section Performed

variable {receive : σ → μ → σ} {calls : σ → μ → List κ}

theorem performed_append (first second : List μ) :
    performed receive calls state (first ++ second) =
      performed receive calls state first ++
        performed receive calls (first.foldl receive state) second := by
  induction first generalizing state with
  | nil => rfl
  | cons message messages ih =>
      rw [List.cons_append, performed, performed, ih, List.append_assoc]
      rfl

theorem performed_prefix {first second : List μ} (isPrefix : first <+: second) :
    performed receive calls state first <+: performed receive calls state second := by
  obtain ⟨rest, rfl⟩ := isPrefix
  rw [performed_append]
  exact List.prefix_append _ _

theorem mem_performed {messages : List μ} {call : κ}
    (mem : call ∈ performed receive calls state messages) :
    ∃ message ∈ messages, ∃ before, call ∈ calls before message := by
  induction messages generalizing state with
  | nil => cases mem
  | cons message messages ih =>
      rcases List.mem_append.mp mem with first | rest
      · exact ⟨message, List.mem_cons_self, state, first⟩
      · obtain ⟨later, laterMem, before, callMem⟩ := ih rest
        exact ⟨later, List.mem_cons_of_mem _ laterMem, before, callMem⟩

/-- When every message is a run of its calls, a run of messages is one of all calls. -/
theorem foldl_eq_run_performed
    (refines : ∀ state message, receive state message = run step state (calls state message))
    (messages : List μ) :
    messages.foldl receive state = run step state (performed receive calls state messages) := by
  induction messages generalizing state with
  | nil => rfl
  | cons message messages ih =>
      rw [List.foldl_cons, performed, run_append, ← refines, ih]

end Performed

/-! ## Messages that change nothing -/

section Stutters

variable {receive : σ → μ → σ}

/-- The second list is the first with messages added that change nothing where they come. -/
inductive Stutters (receive : σ → μ → σ) (state : σ) : List μ → List μ → Prop
  | nil : Stutters receive state [] []
  | both {messages more : List μ} (message : μ) (before : Stutters receive state messages more) :
      Stutters receive state (messages ++ [message]) (more ++ [message])
  | added {messages more : List μ} {message : μ} (before : Stutters receive state messages more)
      (unchanged : receive (messages.foldl receive state) message =
        messages.foldl receive state) :
      Stutters receive state messages (more ++ [message])

theorem Stutters.foldl_eq {messages more : List μ}
    (stutters : Stutters receive state messages more) :
    more.foldl receive state = messages.foldl receive state := by
  induction stutters with
  | nil => rfl
  | both message _ ih =>
      rw [List.foldl_append, List.foldl_append, ih]
  | added _ unchanged ih =>
      rw [List.foldl_append, ih]
      exact unchanged

end Stutters

end StacksApi.Transition
