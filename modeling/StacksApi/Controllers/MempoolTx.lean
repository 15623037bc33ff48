import StacksApi.Controllers.Presentable

/-!
# Pending transactions in a list

`parseDbMempoolTx` repeats much of `getTxFromDataStore` for an entry of the mempool, but
asks the store for nothing.  An entry agrees with what is shown when its id is looked up;
a call of a contract that cannot be looked up stands in the list all the same.
-/

namespace StacksApi.Controllers

open StacksApi.Binary
open StacksApi.P2p
open StacksApi.Datastore
open StacksApi.EventStream
open StacksApi.Serializers
open StacksApi.Transition

/-! ## Entries -/

/-- What is shown of a pending transaction of each type. -/
inductive MempoolTransactionDetails
  | tokenTransfer (recipientAddress amount memo : String)
  | smartContract (postConditions : List PostCondition) (contractId sourceCode : String)
  | contractCall (postConditions : List PostCondition) (contractId functionName : String)
  | poisonMicroblock (microblockHeader1 microblockHeader2 : String)
  | coinbase (data : String)
  deriving DecidableEq

/-- A pending transaction as it is listed. -/
structure MempoolTransaction where
  txId : String
  txStatus : String
  txType : String
  receiptTime : Int
  receiptTimeIso : String
  feeRate : String
  senderAddress : String
  sponsored : Bool
  sponsorAddress : Option String
  postConditionMode : PostConditionMode
  details : MempoolTransactionDetails
  deriving DecidableEq

section Api

variable {CV : Type} (clarity : ClarityLibrary CV) (addresses : AddressLibrary)

/-- The switch on the type of a pending transaction. -/
def parseMempoolDetails (dbTx : DbTxBase String) : Except ApiError MempoolTransactionDetails :=
  match dbTx.typeId with
  | .tokenTransfer => do
      let recipientAddress ← unwrapOptional dbTx.tokenTransferRecipientAddress
        "Unexpected nullish token_transfer_recipient_address"
      let amount ← unwrapOptional dbTx.tokenTransferAmount
        "Unexpected nullish token_transfer_amount"
      let memo ← unwrapOptional dbTx.tokenTransferMemo "Unexpected nullish token_transfer_memo"
      return .tokenTransfer recipientAddress (toString amount) (bufferToHexPrefixString memo)
  | .smartContract => do
      let postConditions ← readStoredPostConditions clarity dbTx.postConditions
      let postConditions ← postConditions.mapM (serializePostCondition addresses clarity)
      let contractId ← unwrapOptional dbTx.smartContractContractId
        "Unexpected nullish smart_contract_contract_id"
      let sourceCode ← unwrapOptional dbTx.smartContractSourceCode
        "Unexpected nullish smart_contract_source_code"
      return .smartContract postConditions contractId sourceCode
  | .contractCall => do
      let postConditions ← readStoredPostConditions clarity dbTx.postConditions
      let contractId ← unwrapOptional dbTx.contractCallContractId
        "Unexpected nullish contract_call_contract_id"
      let functionName ← unwrapOptional dbTx.contractCallFunctionName
        "Unexpected nullish contract_call_function_name"
      let postConditions ← postConditions.mapM (serializePostCondition addresses clarity)
      return .contractCall postConditions contractId functionName
  | .poisonMicroblock => do
      let microblockHeader1 ← unwrapOptional dbTx.poisonMicroblockHeader1 "value is null"
      let microblockHeader2 ← unwrapOptional dbTx.poisonMicroblockHeader2 "value is null"
      return .poisonMicroblock (bufferToHexPrefixString microblockHeader1)
        (bufferToHexPrefixString microblockHeader2)
  | .coinbase => do
      let data ← unwrapOptional dbTx.coinbasePayload "Unexpected nullish coinbase_payload"
      return .coinbase (bufferToHexPrefixString data)

/-- A pending transaction as it is listed; no contract is looked up. -/
def parseDbMempoolTx (dbTx : DbMempoolTx String) : Except ApiError MempoolTransaction := do
  let receiptTimeIso ← unixEpochToIso dbTx.receiptTime
  let (modeByte, _) ← (readUInt8 : ReadM ApiError Nat).run
    (BufferReader.fromBuffer dbTx.postConditions)
  let postConditionMode ← serializePostConditionMode modeByte
  let details ← parseMempoolDetails clarity addresses dbTx.toDbTxBase
  return {
    txId := dbTx.txId
    txStatus := getTxStatusString dbTx.status
    txType := getTxTypeString dbTx.typeId
    receiptTime := dbTx.receiptTime
    receiptTimeIso
    feeRate := toString dbTx.feeRate
    senderAddress := dbTx.senderAddress
    sponsored := dbTx.sponsored
    sponsorAddress := dbTx.sponsorAddress
    postConditionMode
    details }

end Api

/-! ## Entries and transactions -/

/-- The details without what is looked up for them. -/
def TransactionDetails.listed : TransactionDetails → MempoolTransactionDetails
  | tokenTransfer recipientAddress amount memo => .tokenTransfer recipientAddress amount memo
  | smartContract postConditions contractId sourceCode =>
      .smartContract postConditions contractId sourceCode
  | contractCall postConditions contractId functionName _ _ =>
      .contractCall postConditions contractId functionName
  | poisonMicroblock microblockHeader1 microblockHeader2 =>
      .poisonMicroblock microblockHeader1 microblockHeader2
  | coinbase data => .coinbase data

/-- The entry and the transaction that is shown for its id tell the same; a time of receipt
that is zero is not shown. -/
structure MempoolTransaction.Agrees (entry : MempoolTransaction) (shown : Transaction) : Prop where
  txId : shown.txId = entry.txId
  txStatus : shown.txStatus = entry.txStatus
  txType : shown.txType = entry.txType
  receipt : shown.receipt =
    if entry.receiptTime = 0 then none else some (entry.receiptTime, entry.receiptTimeIso)
  feeRate : shown.feeRate = entry.feeRate
  senderAddress : shown.senderAddress = entry.senderAddress
  sponsored : shown.sponsored = entry.sponsored
  sponsorAddress : shown.sponsorAddress = entry.sponsorAddress
  postConditionMode : shown.postConditionMode = entry.postConditionMode
  details : shown.details.listed = entry.details
  inclusion : shown.inclusion = none

variable {CV Ty : Type} {libraries : Libraries CV} {abis : AbiLibrary Ty} {db : Db}
variable {tx : P2p.Transaction CV}

/-- What listing a transaction asks of it: its conditions are shown for some types. -/
def Listable (addresses : AddressLibrary) (tx : P2p.Transaction CV) : Prop :=
  match tx.payload with
  | .smartContract _ _ | .contractCall _ _ _ _ _ =>
      ∀ condition ∈ tx.postConditions, HasTexts addresses condition
  | _ => True

/-- The contract that the transaction calls, if it calls one, can be looked up. -/
def CallsCallable (addresses : AddressLibrary) (abis : AbiLibrary Ty) (db : Db)
    (tx : P2p.Transaction CV) : Prop :=
  match tx.payload with
  | .contractCall address contractName functionName functionArgs _ =>
      ∃ contractAddress, addressText addresses address = .ok contractAddress ∧
        Callable abis db s!"{contractAddress}.{contractName}" functionName functionArgs.length
  | _ => True

theorem presentable_iff : Presentable libraries.addresses abis db tx ↔
    Listable libraries.addresses tx ∧ CallsCallable libraries.addresses abis db tx := by
  rw [Presentable, Listable, CallsCallable]
  cases tx.payload with
  | contractCall address contractName functionName functionArgs rawFunctionArgs => exact Iff.rfl
  | smartContract name codeBody => exact (and_iff_left trivial).symm
  | _ => exact (and_self_iff (a := True)).symm

section Details

variable {clarity : ClarityLibrary CV} {addresses : AddressLibrary} {dbTx : DbTxBase String}

/-- All but a contract call are read alike. -/
theorem parseMempoolDetails_eq (noCall : dbTx.typeId ≠ .contractCall) :
    parseMempoolDetails clarity addresses dbTx =
      (parseDetails clarity addresses abis db dbTx).map TransactionDetails.listed := by
  rw [parseMempoolDetails.eq_def, parseDetails.eq_def]
  cases kind : dbTx.typeId with
  | contractCall => exact absurd kind noCall
  | _ => simp only [Except.map_bind]; rfl

theorem parseMempoolDetails_of_call {details : TransactionDetails}
    (call : dbTx.typeId = .contractCall)
    (parsed : parseContractCall clarity addresses abis db dbTx = .ok details) :
    parseMempoolDetails clarity addresses dbTx = .ok details.listed := by
  obtain ⟨postConditions, readOk, parsed⟩ := Except.bind_eq_ok.mp parsed
  obtain ⟨contractId, contractIdOk, parsed⟩ := Except.bind_eq_ok.mp parsed
  obtain ⟨functionName, functionNameOk, parsed⟩ := Except.bind_eq_ok.mp parsed
  obtain ⟨serialized, serializedOk, parsed⟩ := Except.bind_eq_ok.mp parsed
  obtain ⟨contract, -, parsed⟩ := Except.bind_eq_ok.mp parsed
  obtain ⟨functions, -, parsed⟩ := Except.bind_eq_ok.mp parsed
  obtain ⟨function, -, parsed⟩ := Except.bind_eq_ok.mp parsed
  obtain ⟨signature, -, parsed⟩ := Except.bind_eq_ok.mp parsed
  have same : details.listed = .contractCall serialized contractId functionName := by
    dsimp only at parsed
    split at parsed
    · cases parsed
      rfl
    · obtain ⟨functionArgs, -, parsed⟩ := Except.bind_eq_ok.mp parsed
      obtain ⟨args, -, parsed⟩ := Except.bind_eq_ok.mp parsed
      cases parsed
      rfl
  rw [parseMempoolDetails.eq_def, call, same]
  refine Except.bind_eq_ok.mpr ⟨postConditions, readOk, ?_⟩
  refine Except.bind_eq_ok.mpr ⟨contractId, contractIdOk, ?_⟩
  refine Except.bind_eq_ok.mpr ⟨functionName, functionNameOk, ?_⟩
  exact Except.bind_eq_ok.mpr ⟨serialized, serializedOk, rfl⟩

/-- Whenever a pending transaction is shown, its entry has the same details. -/
theorem parseMempoolDetails_of_parseDetails {details : TransactionDetails}
    (parsed : parseDetails clarity addresses abis db dbTx = .ok details) :
    parseMempoolDetails clarity addresses dbTx = .ok details.listed := by
  by_cases call : dbTx.typeId = .contractCall
  · rw [parseDetails.eq_def, call] at parsed
    exact parseMempoolDetails_of_call call parsed
  · rw [@parseMempoolDetails_eq _ _ abis db _ _ _ call, parsed]
    rfl

end Details

theorem succeeds_parseMempoolDetails_iff {dbTx : DbTxBase String}
    (storedFrom : StoredFrom libraries dbTx tx) (rereads : Rereads libraries.clarity tx) :
    Succeeds (parseMempoolDetails libraries.clarity libraries.addresses dbTx) ↔
      Listable libraries.addresses tx := by
  by_cases call : dbTx.typeId = .contractCall
  · have payload := storedFrom.payload
    have typeId := storedFrom.typeId.symm.trans call
    cases kind : tx.payload with
    | contractCall address contractName functionName functionArgs rawFunctionArgs =>
        rw [kind] at payload
        obtain ⟨⟨contractAddress, -, contractId⟩, name, -⟩ := payload
        rw [parseMempoolDetails.eq_def, call, contractId, name, Listable, kind]
        refine (succeeds_bind_of_ok
          (readStoredPostConditions_eq rereads storedFrom.postConditions)).trans ?_
        refine (succeeds_bind_of_ok rfl).trans ((succeeds_bind_of_ok rfl).trans ?_)
        exact (succeeds_bind_of_total fun _ => succeeds_pure _).trans
          succeeds_mapM_serializePostCondition_iff
    | _ =>
        rw [kind] at typeId
        cases typeId
  · -- no contract is looked up, so that any store and any interfaces will do
    rw [@parseMempoolDetails_eq _ _ AbiLibrary.null Db.empty _ _ _ call, succeeds_map_iff,
      succeeds_parseDetails_iff storedFrom rereads, presentable_iff]
    apply and_iff_left
    have typeId := storedFrom.typeId
    rw [CallsCallable]
    cases kind : tx.payload with
    | contractCall address contractName functionName functionArgs rawFunctionArgs =>
        rw [kind] at typeId
        exact absurd typeId call
    | _ => exact trivial

/-- A pending transaction is listed whether or not the contract that it calls is stored. -/
theorem succeeds_parseDbMempoolTx_iff {stored : DbMempoolTx String}
    (storedFrom : StoredFrom libraries stored.toDbTxBase tx)
    (rereads : Rereads libraries.clarity tx) (fits : isInteger stored.receiptTime = true) :
    Succeeds (parseDbMempoolTx libraries.clarity libraries.addresses stored) ↔
      Listable libraries.addresses tx := by
  obtain ⟨receiptTimeIso, isoOk⟩ := succeeds_unixEpochToIso fits
  obtain ⟨byte, final, mode, readOk, modeOk⟩ :=
    exists_postConditionMode rereads storedFrom.postConditions
  rw [parseDbMempoolTx]
  refine (succeeds_bind_of_ok isoOk).trans ((succeeds_bind_of_ok readOk).trans ?_)
  refine (succeeds_bind_of_ok modeOk).trans ?_
  exact (succeeds_bind_of_total fun _ => succeeds_pure _).trans
    (succeeds_parseMempoolDetails_iff storedFrom rereads)

/-- The entry of a pending transaction agrees with what is shown for it. -/
theorem agrees_of_parsed {clarity : ClarityLibrary CV} {addresses : AddressLibrary}
    {stored : DbMempoolTx String} (pending : stored.status = .pending)
    {entry : MempoolTransaction} (listed : parseDbMempoolTx clarity addresses stored = .ok entry)
    {shown : Transaction}
    (parsed : parseStoredTx clarity addresses abis db (.mempool stored) = .ok shown) :
    entry.Agrees shown := by
  obtain ⟨iso, isoOk, listed⟩ := Except.bind_eq_ok.mp listed
  obtain ⟨⟨byte, _⟩, byteOk, listed⟩ := Except.bind_eq_ok.mp listed
  obtain ⟨mode, modeOk, listed⟩ := Except.bind_eq_ok.mp listed
  obtain ⟨listedDetails, listedOk, listed⟩ := Except.bind_eq_ok.mp listed
  cases listed
  obtain ⟨⟨byte', _⟩, byteOk', parsed⟩ := Except.bind_eq_ok.mp parsed
  obtain ⟨mode', modeOk', parsed⟩ := Except.bind_eq_ok.mp parsed
  obtain ⟨inclusion, inclusionOk, parsed⟩ := Except.bind_eq_ok.mp parsed
  obtain ⟨receipt, receiptOk, parsed⟩ := Except.bind_eq_ok.mp parsed
  obtain ⟨details, detailsOk, parsed⟩ := Except.bind_eq_ok.mp parsed
  obtain ⟨events, -, parsed⟩ := Except.bind_eq_ok.mp parsed
  cases parsed
  cases byteOk.symm.trans byteOk'
  cases modeOk.symm.trans modeOk'
  cases listedOk.symm.trans (parseMempoolDetails_of_parseDetails detailsOk)
  have noInclusion : inclusion = none := by
    rw [parseInclusion, if_pos pending] at inclusionOk
    cases inclusionOk
    rfl
  have sameReceipt : receipt =
      if stored.receiptTime = 0 then none else some (stored.receiptTime, iso) := by
    rw [parseReceipt] at receiptOk
    split at receiptOk
    · next zero =>
        cases receiptOk
        rw [if_pos zero]
    · next positive =>
        rw [isoOk] at receiptOk
        cases receiptOk
        rw [if_neg positive]
  exact
    { txId := rfl, txStatus := rfl, txType := rfl, receipt := sameReceipt, feeRate := rfl
      senderAddress := rfl, sponsored := rfl, sponsorAddress := rfl, postConditionMode := rfl
      details := rfl, inclusion := noInclusion }

end StacksApi.Controllers
