import Mathlib.Algebra.BigOperators.Group.Finset.Basic
import Mathlib.Algebra.BigOperators.Group.Finset.Piecewise

/-!
# Ledgers

A row of a ledger moves an amount from its sender to its recipient.  Without a
sender the amount comes into being, and without a recipient it is gone.  The
balances of all accounts together are what came into being less what is gone.
-/

namespace StacksApi.Relational

universe u v w

section Ledger

variable {α : Type u} {κ : Type v} {G : Type w}
variable {party sender recipient : α → Option κ} {amount : α → G} {rows : List α}

/-- The amounts that come into being. -/
def issued [AddMonoid G] (sender recipient : α → Option κ) (amount : α → G) (rows : List α) : G :=
  ((rows.filter fun row => (sender row).isNone && (recipient row).isSome).map amount).sum

/-- The amounts that are gone. -/
def retired [AddMonoid G] (sender recipient : α → Option κ) (amount : α → G) (rows : List α) : G :=
  ((rows.filter fun row => (sender row).isSome && (recipient row).isNone).map amount).sum

theorem received_sub_sent [AddCommGroup G] (sender recipient : α → Option κ) (amount : α → G)
    (rows : List α) :
    ((rows.filter fun row => (recipient row).isSome).map amount).sum -
        ((rows.filter fun row => (sender row).isSome).map amount).sum =
      issued sender recipient amount rows - retired sender recipient amount rows := by
  induction rows with
  | nil => rfl
  | cons row rows ih =>
      rw [issued, retired] at ih ⊢
      cases isSender : sender row with
      | none =>
          cases isRecipient : recipient row with
          | none => simpa [isSender, isRecipient] using ih
          | some account =>
              simp [isSender, isRecipient, add_sub_assoc, ih]
      | some account =>
          cases isRecipient : recipient row with
          | none => simp [isSender, isRecipient, sub_add_eq_sub_sub_swap, ih]
          | some account => simp [isSender, isRecipient, ih]

variable [DecidableEq κ] {accounts : Finset κ}

/-- What the rows move from or to an account, which is the party of these rows. -/
def partySum [AddMonoid G] (party : α → Option κ) (amount : α → G) (rows : List α)
    (account : κ) : G :=
  ((rows.filter fun row => party row = some account).map amount).sum

theorem partySum_nil [AddMonoid G] (party : α → Option κ) (amount : α → G) (account : κ) :
    partySum party amount [] account = 0 :=
  rfl

@[simp]
theorem partySum_cons [AddMonoid G] (party : α → Option κ) (amount : α → G) (row : α)
    (rows : List α) (account : κ) :
    partySum party amount (row :: rows) account =
      (if party row = some account then amount row else 0) +
        partySum party amount rows account := by
  by_cases isParty : party row = some account <;> simp [partySum, isParty]

/-- Over all accounts, every row with a party counts once. -/
theorem sum_partySum [AddCommMonoid G]
    (covers : ∀ row ∈ rows, ∀ account, party row = some account → account ∈ accounts) :
    ∑ account ∈ accounts, partySum party amount rows account =
      ((rows.filter fun row => (party row).isSome).map amount).sum := by
  induction rows with
  | nil => exact Finset.sum_eq_zero fun account _ => partySum_nil party amount account
  | cons row rows ih =>
      obtain ⟨first, rest⟩ := List.forall_mem_cons.mp covers
      simp only [partySum_cons, Finset.sum_add_distrib, ih rest]
      cases isParty : party row with
      | none => simp [isParty]
      | some account => simp [isParty, first account isParty]

/-- The balances of all accounts are what came into being less what is gone. -/
theorem sum_balances [AddCommGroup G]
    (coversSenders : ∀ row ∈ rows, ∀ account, sender row = some account → account ∈ accounts)
    (coversRecipients : ∀ row ∈ rows, ∀ account,
      recipient row = some account → account ∈ accounts) :
    ∑ account ∈ accounts,
        (partySum recipient amount rows account - partySum sender amount rows account) =
      issued sender recipient amount rows - retired sender recipient amount rows := by
  rw [Finset.sum_sub_distrib, sum_partySum coversSenders, sum_partySum coversRecipients,
    received_sub_sent]

end Ledger

end StacksApi.Relational
