import StacksApi.Binary.Returns
import StacksApi.P2p.Read
import StacksApi.P2p.Wire

/-!
# The numbers of a parsed transaction

The fee of the origin is read unsigned and the amount of a token transfer signed, so
that the one takes every value of 64 bits from zero on and the other every value of
the signed range.
-/

namespace StacksApi.P2p

open StacksApi.Binary

theorem returns_singleSig (hashMode : SingleSigHashMode) :
    Returns (readSingleSig hashMode) fun condition => IsU64 condition.feeRate :=
  .bind_anything fun _ => .bind_anything fun _ =>
    Returns.readBigUInt64BE.bind fun _ range =>
      .bind_anything fun _ => .bind_anything fun _ => .pure range

theorem returns_multiSig (hashMode : MultiSigHashMode) :
    Returns (readMultiSig hashMode) fun condition => IsU64 condition.feeRate :=
  .bind_anything fun _ => .bind_anything fun _ =>
    Returns.readBigUInt64BE.bind fun _ range =>
      .bind_anything fun _ => .bind_anything fun _ => .bind_anything fun _ => .pure range

theorem returns_spendingCondition :
    Returns readTransactionSpendingCondition fun condition => IsU64 condition.feeRate := by
  apply Returns.bind_anything
  intro conditionType
  cases conditionType with
  | p2pkh => exact returns_singleSig .p2pkh
  | p2wpkh => exact returns_singleSig .p2wpkh
  | p2sh => exact returns_multiSig .p2sh
  | p2wsh => exact returns_multiSig .p2wsh

theorem returns_auth :
    Returns readTransactionAuth fun auth => IsU64 auth.originCondition.feeRate := by
  apply Returns.bind_anything
  intro authType
  cases authType with
  | standard => exact returns_spendingCondition.bind fun _ range => .pure range
  | sponsored =>
      exact returns_spendingCondition.bind fun _ range => .bind_anything fun _ => .pure range

/-- The amount of a transfer is in the signed range. -/
def SignedAmount {CV : Type} (payload : TransactionPayload CV) : Prop :=
  ∀ recipient amount memo, payload = .tokenTransfer recipient amount memo →
    -2 ^ 63 ≤ amount ∧ amount < 2 ^ 63

variable {CV : Type} (clarity : ClarityLibrary CV)

theorem returns_payload : Returns (readTransactionPayload clarity) SignedAmount := by
  apply Returns.bind_anything
  intro txPayloadType
  cases txPayloadType with
  | coinbase => exact .bind_anything fun _ => .pure fun _ _ _ same => nomatch same
  | tokenTransfer =>
      refine .bind_anything fun recipient => Returns.readBigInt64BE.bind fun amount range => ?_
      refine .bind_anything fun memo => .pure ?_
      intro _ _ _ same
      cases same
      exact range
  | smartContract =>
      exact .bind_anything fun _ => .bind_anything fun _ => .pure fun _ _ _ same => nomatch same
  | contractCall =>
      exact .bind_anything fun _ => .bind_anything fun _ => .bind_anything fun _ =>
        .bind_anything fun _ => .pure fun _ _ _ same => nomatch same
  | poisonMicroblock =>
      exact .bind_anything fun _ => .bind_anything fun _ => .pure fun _ _ _ same => nomatch same

/-- The ranges of the numbers of a transaction, whatever bytes it was read from. -/
theorem returns_transaction : Returns (readTransaction clarity) fun tx =>
    IsU64 tx.auth.originCondition.feeRate ∧ SignedAmount tx.payload := by
  refine .bind_anything fun version => .bind_anything fun chainId => ?_
  refine returns_auth.bind fun auth feeRate => ?_
  refine .bind_anything fun anchorMode => .bind_anything fun postConditions => ?_
  exact (returns_payload clarity).bind fun payload amount => .pure ⟨feeRate, amount⟩

end StacksApi.P2p
