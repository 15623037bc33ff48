import StacksApi.Datastore.Query
import StacksApi.Serializers.PostConditions

/-!
# The store as the API shows it

`api/controllers/db-controller.ts`: a transaction of the store as the record that
the endpoints answer with.  `getTxFromDataStore` looks in the mempool first.
-/

namespace StacksApi.Controllers

open StacksApi.Binary
open StacksApi.P2p
open StacksApi.Datastore
open StacksApi.Relational
open StacksApi.Serializers
open StacksApi.Transition

/-! ## Texts -/

/-- The name of a type of transactions in the interface. -/
def getTxTypeString : DbTxTypeId → String
  | .tokenTransfer => "token_transfer"
  | .smartContract => "smart_contract"
  | .contractCall => "contract_call"
  | .poisonMicroblock => "poison_microblock"
  | .coinbase => "coinbase"

/-- The name of a status in the interface. -/
def getTxStatusString : DbTxStatus → String
  | .pending => "pending"
  | .success => "success"
  | .abortByResponse => "abort_by_response"
  | .abortByPostCondition => "abort_by_post_condition"

theorem getTxStatusString_injective : Function.Injective getTxStatusString := by
  intro first second same
  cases first <;> cases second <;> first | rfl | exact absurd same (by decide)

/-- The name of a type of asset events in the interface. -/
def getAssetEventTypeString : DbAssetEventTypeId → String
  | .transfer => "transfer"
  | .mint => "mint"
  | .burn => "burn"

/-! ## Records of the API -/

/-- A Clarity value as the API shows it. -/
structure ClarityRepr where
  hex : String
  repr : String
  deriving DecidableEq

/-- An event of a transaction as it is shown. -/
inductive TransactionEvent
  | smartContractLog (eventIndex : Nat) (contractId topic : String) (value : ClarityRepr)
  | stxAsset (eventIndex : Nat) (assetEventType sender recipient amount : String)
  | fungibleTokenAsset (eventIndex : Nat) (assetEventType assetId sender recipient amount : String)
  | nonFungibleTokenAsset (eventIndex : Nat) (assetEventType assetId sender recipient : String)
      (value : ClarityRepr)
  deriving DecidableEq

/-- An argument of a contract call, with what the interface says of its parameter. -/
structure ContractCallArg where
  value : ClarityRepr
  name : String
  type : String
  deriving DecidableEq

/-- The fields that depend on the type of a transaction. -/
inductive TransactionDetails
  | tokenTransfer (recipientAddress amount memo : String)
  | smartContract (postConditions : List PostCondition) (contractId sourceCode : String)
  | contractCall (postConditions : List PostCondition)
      (contractId functionName functionSignature : String)
      (functionArgs : Option (List ContractCallArg))
  | poisonMicroblock (microblockHeader1 microblockHeader2 : String)
  | coinbase (data : String)
  deriving DecidableEq

/-- The fields of a transaction that is in a block. -/
structure Inclusion where
  blockHash : String
  blockHeight : Nat
  burnBlockTime : Int
  burnBlockTimeIso : String
  canonical : Bool
  txIndex : Int
  txResult : Option ClarityRepr
  deriving DecidableEq

/-- A transaction as it is shown. -/
structure Transaction where
  txId : String
  txType : String
  feeRate : String
  senderAddress : String
  sponsored : Bool
  sponsorAddress : Option String
  postConditionMode : PostConditionMode
  txStatus : String
  inclusion : Option Inclusion
  /-- Time of receipt, and the same as text. -/
  receipt : Option (Int × String)
  details : TransactionDetails
  events : Option (List TransactionEvent)
  deriving DecidableEq

/-! ## Interfaces of contracts -/

/-- A parameter of a function of a contract. -/
structure ClarityAbiFunctionArg (Ty : Type) where
  name : String
  type : Ty

/-- A function of a contract. -/
structure ClarityAbiFunction (Ty : Type) where
  name : String
  access : String
  args : List (ClarityAbiFunctionArg Ty)
  outputs : Ty

/-- Interfaces of contracts in `@blockstack/stacks-transactions`. -/
structure AbiLibrary (Ty : Type) where
  /-- The functions of an interface that is given as text. -/
  parseAbi : String → Except ApiError (List (ClarityAbiFunction Ty))
  abiFunctionToString : ClarityAbiFunction Ty → Except ApiError String
  getTypeString : Ty → Except ApiError String

/-- The library on the interface `null`, which has no functions. -/
def AbiLibrary.null : AbiLibrary Unit where
  parseAbi _ := .error (.failure "Cannot read property 'find' of undefined")
  abiFunctionToString _ := .ok ""
  getTypeString _ := .ok ""

/-- `assertNotNullish` -/
def unwrapOptional {α : Type} (val : Option α) (onNullish : String) : Except ApiError α :=
  match val with
  | some val => .ok val
  | none => .error (.failure onNullish)

section Api

variable {CV Ty : Type} (clarity : ClarityLibrary CV) (addresses : AddressLibrary)
variable (abis : AbiLibrary Ty)

/-- `cvToString(deserializeCV(buffer))` beside the digits of the buffer. -/
def clarityRepr (hex : String) (buffer : Buffer) : Except ApiError ClarityRepr := do
  let (value, _) ← clarity.deserializeCV.run (BufferReader.fromBuffer buffer)
  return { hex, repr := clarity.cvToString value }

/-- An event of the store as it is shown. -/
def parseDbEvent : DbEvent → Except ApiError TransactionEvent
  | .smartContractLog event => do
      let value ← clarityRepr clarity (bufferToHexPrefixString event.value) event.value
      return .smartContractLog event.eventIndex event.contractIdentifier event.topic value
  | .stx event =>
      .ok (.stxAsset event.eventIndex (getAssetEventTypeString event.assetEventTypeId)
        (event.sender.getD "") (event.recipient.getD "") (toString event.amount))
  | .ft event =>
      .ok (.fungibleTokenAsset event.eventIndex (getAssetEventTypeString event.assetEventTypeId)
        event.assetIdentifier (event.sender.getD "") (event.recipient.getD "")
        (toString event.amount))
  | .nft event => do
      let value ← clarityRepr clarity (bufferToHexPrefixString event.value) event.value
      return .nonFungibleTokenAsset event.eventIndex
        (getAssetEventTypeString event.assetEventTypeId) event.assetIdentifier
        (event.sender.getD "") (event.recipient.getD "") value

/-- The arguments of a call with the names and types of their parameters. -/
def parseFunctionArgs : List CV → List (ClarityAbiFunctionArg Ty) →
    Except ApiError (List ContractCallArg)
  | [], _ => .ok []
  | _ :: _, [] => .error (.failure "Cannot read property 'name' of undefined")
  | c :: functionArgs, functionArgAbi :: args => do
      let type ← abis.getTypeString functionArgAbi.type
      let rest ← parseFunctionArgs functionArgs args
      return { value :=
                 { hex := bufferToHexPrefixString (clarity.serializeCV c)
                   repr := clarity.cvToString c }
               name := functionArgAbi.name
               type } :: rest

/-- The conditions behind the mode byte of the stored bytes. -/
def readStoredPostConditions (postConditions : Buffer) :
    Except ApiError (List (TransactionPostCondition CV)) := do
  let (postConditions, _) ← (readTransactionPostConditions clarity).run
    (BufferReader.fromBuffer (postConditions.drop 1))
  return postConditions

/-- The case of a contract call, which looks up the interface of the contract. -/
def parseContractCall (db : Db) (dbTx : DbTxBase String) : Except ApiError TransactionDetails := do
  let postConditions ← readStoredPostConditions clarity dbTx.postConditions
  let contractId ← unwrapOptional dbTx.contractCallContractId
    "Unexpected nullish contract_call_contract_id"
  let functionName ← unwrapOptional dbTx.contractCallFunctionName
    "Unexpected nullish contract_call_function_name"
  let postConditions ← postConditions.mapM (serializePostCondition addresses clarity)
  let contract ← unwrapOptional (getSmartContract db contractId)
    s!"Failed to lookup smart contract by ID {contractId}"
  let functions ← abis.parseAbi contract.abi
  let functionAbi ← unwrapOptional (functions.find? fun fn => fn.name = functionName)
    s!"Could not find function name \"{functionName}\" in ABI for {contractId}"
  let functionSignature ← abis.abiFunctionToString functionAbi
  let functionArgs ← match dbTx.contractCallFunctionArgs with
    | none => pure none
    | some buffer => do
        let (functionArgs, _) ←
          (readClarityValueArray clarity).run (BufferReader.fromBuffer buffer)
        let functionArgs ← parseFunctionArgs clarity abis functionArgs functionAbi.args
        pure (some functionArgs)
  return .contractCall postConditions contractId functionName functionSignature functionArgs

/-- The switch on the type of a transaction. -/
def parseDetails (db : Db) (dbTx : DbTxBase String) : Except ApiError TransactionDetails :=
  match dbTx.typeId with
  | .tokenTransfer => do
      let recipientAddress ← unwrapOptional dbTx.tokenTransferRecipientAddress
        "Unexpected nullish token_transfer_recipient_address"
      let amount ← unwrapOptional dbTx.tokenTransferAmount
        "Unexpected nullish token_transfer_amount"
      let memo ← unwrapOptional dbTx.tokenTransferMemo "Unexpected nullish token_transfer_memo"
      return .tokenTransfer recipientAddress (toString amount) (bufferToHexPrefixString memo)
  | .smartContract => do
      let postConditions ← readStoredPostConditions clarity dbTx.postConditions
      let postConditions ← postConditions.mapM (serializePostCondition addresses clarity)
      let contractId ← unwrapOptional dbTx.smartContractContractId
        "Unexpected nullish smart_contract_contract_id"
      let sourceCode ← unwrapOptional dbTx.smartContractSourceCode
        "Unexpected nullish smart_contract_source_code"
      return .smartContract postConditions contractId sourceCode
  | .contractCall => parseContractCall clarity addresses abis db dbTx
  | .poisonMicroblock => do
      let microblockHeader1 ← unwrapOptional dbTx.poisonMicroblockHeader1 "value is null"
      let microblockHeader2 ← unwrapOptional dbTx.poisonMicroblockHeader2 "value is null"
      return .poisonMicroblock (bufferToHexPrefixString microblockHeader1)
        (bufferToHexPrefixString microblockHeader2)
  | .coinbase => do
      let data ← unwrapOptional dbTx.coinbasePayload "Unexpected nullish coinbase_payload"
      return .coinbase (bufferToHexPrefixString data)

/-- A transaction from either table; the events are those of its block. -/
inductive StoredTx
  | mempool (tx : DbMempoolTx String)
  | mined (tx : DbTx String) (events : List DbEvent)

/-- The columns that both tables have. -/
def StoredTx.toDbTxBase : StoredTx → DbTxBase String
  | mempool tx => tx.toDbTxBase
  | mined tx _ => tx.toDbTxBase

/-- The events that were read with the transaction. -/
def StoredTx.events : StoredTx → List DbEvent
  | mempool _ => []
  | mined _ events => events

/-- First check the mempool. -/
def lookupTx (txId : String) (db : Db) : Except ApiError (Option StoredTx) := do
  match ← getMempoolTx db txId with
  | some mempoolTx => return some (.mempool mempoolTx)
  | none =>
      match ← getTx db txId with
      | none => return none
      | some tx => return some (.mined tx (← getTxEvents db txId tx.indexBlockHash))

/-- The block fields, which a pending transaction does not have; the time of a
mempool transaction with another status is not a number. -/
def parseInclusion : StoredTx → Except ApiError (Option Inclusion)
  | .mempool tx =>
      if tx.status = .pending then .ok none else .error (.failure "Invalid time value")
  | .mined tx _ =>
      if tx.status = .pending then .ok none
      else do
        let burnBlockTimeIso ← unixEpochToIso tx.burnBlockTime
        let txResult ← match tx.rawResult with
          | none => pure none
          | some "" => pure none
          | some rawResult => do
              let buffer ← hexToBuffer rawResult
              let result ← clarityRepr clarity rawResult buffer
              pure (some result)
        return some {
          blockHash := tx.blockHash
          blockHeight := tx.blockHeight
          burnBlockTime := tx.burnBlockTime
          burnBlockTimeIso
          canonical := tx.canonical
          txIndex := tx.txIndex
          txResult }

/-- The time of receipt of a mempool transaction, unless it is zero. -/
def parseReceipt : StoredTx → Except ApiError (Option (Int × String))
  | .mempool tx =>
      if tx.receiptTime = 0 then .ok none
      else do
        let receiptTimeIso ← unixEpochToIso tx.receiptTime
        return some (tx.receiptTime, receiptTimeIso)
  | .mined _ _ => .ok none

/-- Types of transactions that can have events. -/
def canHaveEvents (typeId : DbTxTypeId) : Bool :=
  decide (typeId = .tokenTransfer ∨ typeId = .contractCall ∨ typeId = .smartContract)

/-- The number of a type, as error texts show it. -/
def dbTxTypeIdNumber : DbTxTypeId → Nat
  | .tokenTransfer => 0
  | .smartContract => 1
  | .contractCall => 2
  | .poisonMicroblock => 3
  | .coinbase => 4

/-- The events, which some types of transactions do not have. -/
def parseEvents (typeId : DbTxTypeId) (events : List DbEvent) :
    Except ApiError (Option (List TransactionEvent)) :=
  if canHaveEvents typeId then (events.mapM (parseDbEvent clarity)).map some
  else if events.length > 0 then
    .error (.failure s!"Events exist for unexpected tx type_id: {dbTxTypeIdNumber typeId}")
  else .ok none

/-- What was read of a transaction as it is shown; a called contract is looked up. -/
def parseStoredTx (db : Db) (stored : StoredTx) : Except ApiError Transaction := do
  let dbTx := stored.toDbTxBase
  let (modeByte, _) ← (readUInt8 : ReadM ApiError Nat).run
    (BufferReader.fromBuffer dbTx.postConditions)
  let postConditionMode ← serializePostConditionMode modeByte
  let inclusion ← parseInclusion clarity stored
  let receipt ← parseReceipt stored
  let details ← parseDetails clarity addresses abis db dbTx
  let events ← parseEvents clarity dbTx.typeId stored.events
  return {
    txId := dbTx.txId
    txType := getTxTypeString dbTx.typeId
    feeRate := toString dbTx.feeRate
    senderAddress := dbTx.senderAddress
    sponsored := dbTx.sponsored
    sponsorAddress := dbTx.sponsorAddress
    postConditionMode
    txStatus := getTxStatusString dbTx.status
    inclusion
    receipt
    details
    events }

/-- The transaction of an id, if it is pending or mined. -/
def getTxFromDataStore (txId : String) (db : Db) : Except ApiError (Option Transaction) := do
  match ← lookupTx txId db with
  | none => return none
  | some stored => return some (← parseStoredTx clarity addresses abis db stored)

end Api

/-! ## Where a transaction is found -/

/-- Rows are preferred on the canonical chain, then by height. -/
def precedence (row : DbTx Buffer) : Bool ×ₗ Nat :=
  toLex (row.canonical, row.blockHeight)

/-- The row of `txs` that is found for an id. -/
structure FoundTx (db : Db) (buffer : Buffer) (row : DbTx Buffer) : Prop where
  mem : row ∈ db.txs
  txId : row.txId = buffer
  first : ∀ other ∈ db.txs, other.txId = buffer → precedence other ≤ precedence row

/-- A status stands for the id in the mempool, or else in the preferred row. -/
def FoundStatus (db : Db) (buffer : Buffer) (status : DbTxStatus) : Prop :=
  (∃ pending ∈ db.mempoolTxs, pending.txId = buffer ∧ status = pending.status) ∨
    (∀ pending ∈ db.mempoolTxs, pending.txId ≠ buffer) ∧
      ∃ row, FoundTx db buffer row ∧ status = row.status

theorem getMempoolTx_ok {db : Db} {txId : String} {found : Option (DbMempoolTx String)}
    (ok : getMempoolTx db txId = .ok found) : ∃ buffer, hexToBuffer txId = .ok buffer ∧
      (found = none ∧ (∀ pending ∈ db.mempoolTxs, pending.txId ≠ buffer) ∨
        ∃ tx, found = some tx ∧ ∃ pending ∈ db.mempoolTxs, pending.txId = buffer ∧
          tx.status = pending.status) := by
  obtain ⟨buffer, decoded, ok⟩ := Except.bind_eq_ok.mp ok
  refine ⟨buffer, decoded, ?_⟩
  split at ok
  · next none =>
      cases ok
      left
      refine ⟨rfl, ?_⟩
      intro pending mem same
      have inFilter : pending ∈ db.mempoolTxs.filter fun row => row.txId = buffer :=
        List.mem_filter.mpr ⟨mem, decide_eq_true same⟩
      rw [none] at inFilter
      cases inFilter
  · next row single =>
      obtain ⟨tx, parsed, same⟩ := Except.bind_eq_ok.mp ok
      cases same
      obtain ⟨columns, columnsOk, same⟩ := Except.bind_eq_ok.mp parsed
      cases same
      have inFilter : row ∈ db.mempoolTxs.filter fun row => row.txId = buffer := by
        rw [single]
        exact List.mem_singleton_self row
      obtain ⟨mem, same⟩ := List.mem_filter.mp inFilter
      exact Or.inr
        ⟨_, rfl, row, mem, of_decide_eq_true same, (parsedColumns_of_ok columnsOk).status⟩
  · cases ok

theorem getTx_ok {db : Db} {txId : String} {tx : DbTx String}
    (ok : getTx db txId = .ok (some tx)) : ∃ buffer, hexToBuffer txId = .ok buffer ∧
      ∃ row, FoundTx db buffer row ∧ tx.status = row.status := by
  obtain ⟨buffer, decoded, ok⟩ := Except.bind_eq_ok.mp ok
  refine ⟨buffer, decoded, ?_⟩
  dsimp only at ok
  split at ok
  · cases ok
  · next row head =>
      obtain ⟨parsed, parsedOk, same⟩ := Except.bind_eq_ok.mp ok
      cases same
      obtain ⟨columns, columnsOk, same⟩ := Except.bind_eq_ok.mp parsedOk
      cases same
      obtain ⟨mem, first⟩ := le_of_head?_orderByDesc head
      obtain ⟨mem, same⟩ := List.mem_filter.mp mem
      refine ⟨row, ⟨mem, of_decide_eq_true same, ?_⟩, (parsedColumns_of_ok columnsOk).status⟩
      intro other otherMem otherId
      exact first other (List.mem_filter.mpr ⟨otherMem, decide_eq_true otherId⟩)

theorem lookupTx_ok {db : Db} {txId : String} {stored : StoredTx}
    (ok : lookupTx txId db = .ok (some stored)) : ∃ buffer, hexToBuffer txId = .ok buffer ∧
      FoundStatus db buffer stored.toDbTxBase.status := by
  obtain ⟨pending, pendingOk, ok⟩ := Except.bind_eq_ok.mp ok
  obtain ⟨buffer, decoded, ⟨rfl, absent⟩ | ⟨tx, rfl, found⟩⟩ := getMempoolTx_ok pendingOk
  · refine ⟨buffer, decoded, Or.inr ⟨absent, ?_⟩⟩
    obtain ⟨mined, minedOk, ok⟩ := Except.bind_eq_ok.mp ok
    cases mined with
    | none => cases ok
    | some tx =>
        obtain ⟨events, -, same⟩ := Except.bind_eq_ok.mp ok
        cases same
        obtain ⟨buffer', decoded', row, found, status⟩ := getTx_ok minedOk
        rw [decoded] at decoded'
        cases decoded'
        exact ⟨row, found, status⟩
  · cases ok
    obtain ⟨row, mem, same, status⟩ := found
    exact ⟨buffer, decoded, Or.inl ⟨row, mem, same, status⟩⟩

/-- The status that is reported for an id stands in one of the tables. -/
theorem getTxFromDataStore_ok {CV Ty : Type} {clarity : ClarityLibrary CV}
    {addresses : AddressLibrary} {abis : AbiLibrary Ty} {db : Db} {txId : String}
    {reported : Transaction}
    (ok : getTxFromDataStore clarity addresses abis txId db = .ok (some reported)) :
    ∃ buffer status, hexToBuffer txId = .ok buffer ∧ FoundStatus db buffer status ∧
      reported.txStatus = getTxStatusString status := by
  obtain ⟨found, foundOk, ok⟩ := Except.bind_eq_ok.mp ok
  cases found with
  | none => cases ok
  | some stored =>
      obtain ⟨buffer, decoded, status⟩ := lookupTx_ok foundOk
      refine ⟨buffer, stored.toDbTxBase.status, decoded, status, ?_⟩
      obtain ⟨tx, parsed, same⟩ := Except.bind_eq_ok.mp ok
      cases same
      obtain ⟨mode, -, parsed⟩ := Except.bind_eq_ok.mp parsed
      obtain ⟨postConditionMode, -, parsed⟩ := Except.bind_eq_ok.mp parsed
      obtain ⟨inclusion, -, parsed⟩ := Except.bind_eq_ok.mp parsed
      obtain ⟨receipt, -, parsed⟩ := Except.bind_eq_ok.mp parsed
      obtain ⟨details, -, parsed⟩ := Except.bind_eq_ok.mp parsed
      obtain ⟨events, -, parsed⟩ := Except.bind_eq_ok.mp parsed
      cases parsed
      rfl

theorem getMempoolTx_none {db : Db} {txId : String} (ok : getMempoolTx db txId = .ok none) :
    ∃ buffer, hexToBuffer txId = .ok buffer ∧ ∀ pending ∈ db.mempoolTxs, pending.txId ≠ buffer := by
  obtain ⟨buffer, decoded, ⟨-, absent⟩ | ⟨tx, same, -⟩⟩ := getMempoolTx_ok ok
  · exact ⟨buffer, decoded, absent⟩
  · cases same

theorem getTx_none {db : Db} {txId : String} (ok : getTx db txId = .ok none) :
    ∃ buffer, hexToBuffer txId = .ok buffer ∧ ∀ row ∈ db.txs, row.txId ≠ buffer := by
  obtain ⟨buffer, decoded, ok⟩ := Except.bind_eq_ok.mp ok
  refine ⟨buffer, decoded, ?_⟩
  intro row mem same
  have nonempty : (db.txs.filter fun row => row.txId = buffer) ≠ [] :=
    List.ne_nil_of_mem (List.mem_filter.mpr ⟨mem, decide_eq_true same⟩)
  have found : ∃ top, (orderByDesc (fun row : DbTx Buffer => toLex (row.canonical, row.blockHeight))
      (db.txs.filter fun row => row.txId = buffer)).head? = some top :=
    exists_head?_orderByDesc nonempty
  obtain ⟨top, head⟩ := found
  simp only [head] at ok
  obtain ⟨tx, -, same⟩ := Except.bind_eq_ok.mp ok
  cases same

/-- A transaction that is not found is in none of the tables. -/
theorem getTxFromDataStore_none {CV Ty : Type} {clarity : ClarityLibrary CV}
    {addresses : AddressLibrary} {abis : AbiLibrary Ty} {db : Db} {txId : String}
    (ok : getTxFromDataStore clarity addresses abis txId db = .ok none) :
    ∃ buffer, hexToBuffer txId = .ok buffer ∧ (∀ pending ∈ db.mempoolTxs, pending.txId ≠ buffer) ∧
      ∀ row ∈ db.txs, row.txId ≠ buffer := by
  obtain ⟨found, foundOk, ok⟩ := Except.bind_eq_ok.mp ok
  cases found with
  | some stored =>
      obtain ⟨tx, -, same⟩ := Except.bind_eq_ok.mp ok
      cases same
  | none =>
      obtain ⟨pending, pendingOk, foundOk⟩ := Except.bind_eq_ok.mp foundOk
      cases pending with
      | some tx => cases foundOk
      | none =>
          obtain ⟨mined, minedOk, foundOk⟩ := Except.bind_eq_ok.mp foundOk
          cases mined with
          | some tx =>
              obtain ⟨events, -, same⟩ := Except.bind_eq_ok.mp foundOk
              cases same
          | none =>
              obtain ⟨buffer, decoded, absent⟩ := getMempoolTx_none pendingOk
              obtain ⟨buffer', decoded', notMined⟩ := getTx_none minedOk
              rw [decoded] at decoded'
              cases decoded'
              exact ⟨buffer, decoded, absent, notMined⟩

end StacksApi.Controllers
