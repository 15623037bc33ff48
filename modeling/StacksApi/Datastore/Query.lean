import StacksApi.Datastore.Insert
import StacksApi.Relational.Query
import Mathlib.Data.Prod.Lex
import Mathlib.Order.BooleanAlgebra.Basic

/-!
# Queries of the data store

The queries of `PgDataStore` and the records they make of the rows.  A query is
a function of the tables as they are read; `Scan` says in which orders that may
be, so that the answers of a query are those over all scans.
-/

namespace StacksApi.Datastore

open StacksApi.Binary
open StacksApi.Relational
open StacksApi.Transition

/-! ## From rows to records -/

/-- A row of `blocks` with its bytes as texts. -/
def parseBlockQueryResult (row : DbBlock Buffer) : DbBlock String :=
  { row with
    blockHash := bufferToHexPrefixString row.blockHash
    indexBlockHash := bufferToHexPrefixString row.indexBlockHash
    parentIndexBlockHash := bufferToHexPrefixString row.parentIndexBlockHash
    parentBlockHash := bufferToHexPrefixString row.parentBlockHash
    parentMicroblock := bufferToHexPrefixString row.parentMicroblock }

/-- `BigInt(column)` of a column that may be null. -/
def bigIntColumn : Option Int → Except ApiError Int
  | some value => .ok value
  | none => .error (.failure "Cannot convert null to a BigInt")

/-- What `parseTxQueryResult` and `parseMempoolTxQueryResult` share: only the
columns of the type of the transaction are kept. -/
def parseTxColumns (result : DbTxBase Buffer) : Except ApiError (DbTxBase String) :=
  let tx : DbTxBase String :=
    { txId := bufferToHexPrefixString result.txId
      rawTx := result.rawTx
      typeId := result.typeId
      status := result.status
      postConditions := result.postConditions
      feeRate := result.feeRate
      senderAddress := result.senderAddress
      originHashMode := result.originHashMode
      sponsored := result.sponsored
      sponsorAddress := result.sponsorAddress.filter fun address => address ≠ "" }
  match result.typeId with
  | .tokenTransfer => do
      let amount ← bigIntColumn result.tokenTransferAmount
      return { tx with
        tokenTransferRecipientAddress := result.tokenTransferRecipientAddress
        tokenTransferAmount := some amount
        tokenTransferMemo := result.tokenTransferMemo }
  | .smartContract =>
      .ok { tx with
        smartContractContractId := result.smartContractContractId
        smartContractSourceCode := result.smartContractSourceCode }
  | .contractCall =>
      .ok { tx with
        contractCallContractId := result.contractCallContractId
        contractCallFunctionName := result.contractCallFunctionName
        contractCallFunctionArgs := result.contractCallFunctionArgs }
  | .poisonMicroblock =>
      .ok { tx with
        poisonMicroblockHeader1 := result.poisonMicroblockHeader1
        poisonMicroblockHeader2 := result.poisonMicroblockHeader2 }
  | .coinbase => .ok { tx with coinbasePayload := result.coinbasePayload }

/-- A row of `mempool_txs` with its bytes as texts. -/
def parseMempoolTxQueryResult (result : DbMempoolTx Buffer) :
    Except ApiError (DbMempoolTx String) := do
  let tx ← parseTxColumns result.toDbTxBase
  return { toDbTxBase := tx, receiptTime := result.receiptTime }

/-- `result.raw_result ? bufferToHexPrefixString(result.raw_result) : ''` -/
def parseTxQueryResult (result : DbTx Buffer) : Except ApiError (DbTx String) := do
  let tx ← parseTxColumns result.toDbTxBase
  return {
    toDbTxBase := tx
    indexBlockHash := bufferToHexPrefixString result.indexBlockHash
    blockHash := bufferToHexPrefixString result.blockHash
    blockHeight := result.blockHeight
    burnBlockTime := result.burnBlockTime
    txIndex := result.txIndex
    rawResult := some ((result.rawResult.map bufferToHexPrefixString).getD "")
    canonical := result.canonical }

/-- What a parsed row keeps whatever the type of the transaction is. -/
structure ParsedColumns (row : DbTxBase Buffer) (columns : DbTxBase String) : Prop where
  txId : columns.txId = bufferToHexPrefixString row.txId
  typeId : columns.typeId = row.typeId
  status : columns.status = row.status

theorem parsedColumns_of_ok {row : DbTxBase Buffer} {columns : DbTxBase String}
    (parsed : parseTxColumns row = .ok columns) : ParsedColumns row columns := by
  rw [parseTxColumns] at parsed
  split at parsed
  · obtain ⟨amount, -, same⟩ := Except.bind_eq_ok.mp parsed
    cases same
    exact ⟨rfl, rfl, rfl⟩
  all_goals
    cases parsed
    exact ⟨rfl, rfl, rfl⟩

theorem txId_of_parsedMempool {row : DbMempoolTx Buffer} {tx : DbMempoolTx String}
    (parsed : parseMempoolTxQueryResult row = .ok tx) :
    tx.txId = bufferToHexPrefixString row.txId := by
  obtain ⟨columns, columnsOk, same⟩ := Except.bind_eq_ok.mp parsed
  cases same
  exact (parsedColumns_of_ok columnsOk).txId

/-! ## Blocks and transactions -/

/-- `LIMIT` and `OFFSET` of numbers from a request, below `2 ^ 63`: the database reads them as
`bigint`, and what it does with greater ones is not modelled. -/
def paged {α : Type} (limit offset : Int) (rows : List α) : Except ApiError (List α) :=
  if offset < 0 then .error (.library "OFFSET must not be negative")
  else if limit < 0 then .error (.library "LIMIT must not be negative")
  else .ok (page limit.toNat offset.toNat rows)

/-- The numbers of a page that the database takes. -/
structure PageRequest where
  limit : Nat
  offset : Nat
  limitFits : limit < 2 ^ 63
  offsetFits : offset < 2 ^ 63

/-- One page of a listing with the size of the whole. -/
structure Listing (α : Type) where
  results : List α
  total : Nat
  deriving DecidableEq

/-- The block of a hash; canonical rows come first, then higher ones. -/
def getBlock (db : Db) (blockHash : String) : Except ApiError (Option (DbBlock String)) := do
  let buffer ← hexToBuffer blockHash
  let result := orderByDesc (fun row : DbBlock Buffer => toLex (row.canonical, row.blockHeight))
    (db.blocks.filter fun row => row.blockHash = buffer)
  return result.head?.map parseBlockQueryResult

/-- A page of the canonical blocks, the highest first. -/
def getBlocks (db : Db) (limit offset : Int) : Except ApiError (Listing (DbBlock String)) := do
  let canonical := db.blocks.filter DbBlock.canonical
  let results ← paged limit offset (orderByDesc DbBlock.blockHeight canonical)
  return { results := results.map parseBlockQueryResult, total := canonical.length }

/-- The pending transaction of an id. -/
def getMempoolTx (db : Db) (txId : String) : Except ApiError (Option (DbMempoolTx String)) := do
  let buffer ← hexToBuffer txId
  match db.mempoolTxs.filter fun row => row.txId = buffer with
  | [] => return none
  | [row] => return some (← parseMempoolTxQueryResult row)
  | _ => throw (.failure s!"Multiple transactions found in mempool table for txid: {txId}")

/-- Transactions that were received in the same second stand in any order. -/
def getMempoolTxList (db : Db) (limit offset : Int) :
    Except ApiError (Listing (DbMempoolTx String)) := do
  let rows ← paged limit offset (orderByDesc DbMempoolTx.receiptTime db.mempoolTxs)
  return { results := ← rows.mapM parseMempoolTxQueryResult, total := db.mempoolTxs.length }

/-- The mined transaction of an id; canonical rows come first, then higher ones. -/
def getTx (db : Db) (txId : String) : Except ApiError (Option (DbTx String)) := do
  let buffer ← hexToBuffer txId
  let result := orderByDesc (fun row : DbTx Buffer => toLex (row.canonical, row.blockHeight))
    (db.txs.filter fun row => row.txId = buffer)
  match result.head? with
  | none => return none
  | some row => return some (← parseTxQueryResult row)

/-- The type that a name stands for. -/
def getTxTypeId (typeString : String) : Except ApiError DbTxTypeId :=
  if typeString = "token_transfer" then .ok .tokenTransfer
  else if typeString = "smart_contract" then .ok .smartContract
  else if typeString = "contract_call" then .ok .contractCall
  else if typeString = "poison_microblock" then .ok .poisonMicroblock
  else if typeString = "coinbase" then .ok .coinbase
  else .error (.failure s!"Unexpected tx type string: {typeString}")

/-- An empty filter lists transactions of all types. -/
def getTxList (db : Db) (limit offset : Int) (txTypeFilter : List String) :
    Except ApiError (Listing (DbTx String)) := do
  let txTypeIds ← txTypeFilter.mapM getTxTypeId
  let matching := db.txs.filter fun row =>
    row.canonical && (txTypeIds.isEmpty || decide (row.typeId ∈ txTypeIds))
  let rows ← paged limit offset
    (orderByDesc (fun row : DbTx Buffer => toLex (row.blockHeight, row.txIndex)) matching)
  return { results := ← rows.mapM parseTxQueryResult, total := matching.length }

/-! ## Events and contracts -/

/-- An event of one of the four tables. -/
inductive DbEvent
  | stx (event : DbStxEvent String)
  | ft (event : DbFtEvent String)
  | nft (event : DbNftEvent String)
  | smartContractLog (event : DbSmartContractEvent String)
  deriving DecidableEq

/-- The place of the event in its transaction. -/
def DbEvent.eventIndex : DbEvent → Nat
  | stx event => event.eventIndex
  | ft event => event.eventIndex
  | nft event => event.eventIndex
  | smartContractLog event => event.eventIndex

/-- `WHERE tx_id = $1 AND index_block_hash = $2` -/
def ofTx {α : Type} (txId : α → Buffer) (txIdBuffer blockHashBuffer : Buffer)
    (rows : List (InBlock α)) : List α :=
  (rows.filter fun row =>
    txId row.entity = txIdBuffer ∧ row.indexBlockHash = blockHashBuffer).map InBlock.entity

/-- The events of a transaction in a block, in their order. -/
def getTxEvents (db : Db) (txId indexBlockHash : String) : Except ApiError (List DbEvent) := do
  let txIdBuffer ← hexToBuffer txId
  let blockHashBuffer ← hexToBuffer indexBlockHash
  let stxResults := ofTx (fun event => event.txId) txIdBuffer blockHashBuffer db.stxEvents
  let ftResults := ofTx (fun event => event.txId) txIdBuffer blockHashBuffer db.ftEvents
  let nftResults := ofTx (fun event => event.txId) txIdBuffer blockHashBuffer db.nftEvents
  let logResults := ofTx (fun event => event.txId) txIdBuffer blockHashBuffer db.contractLogs
  let events :=
    stxResults.map (fun event => .stx { event with
      toDbAssetEvent := event.toDbAssetEvent.withTxId (bufferToHexPrefixString event.txId) }) ++
    ftResults.map (fun event => .ft { event with
      toDbContractAssetEvent :=
        event.toDbContractAssetEvent.withTxId (bufferToHexPrefixString event.txId) }) ++
    nftResults.map (fun event => .nft { event with
      toDbContractAssetEvent :=
        event.toDbContractAssetEvent.withTxId (bufferToHexPrefixString event.txId) }) ++
    logResults.map (fun event => .smartContractLog { event with
      toDbEventBase := event.toDbEventBase.withTxId (bufferToHexPrefixString event.txId) })
  return events.insertionSort fun a b : DbEvent => a.eventIndex ≤ b.eventIndex

/-- The contract of an id; canonical rows come first, then higher ones. -/
def getSmartContract (db : Db) (contractId : String) : Option (DbSmartContract String) :=
  let result := orderByDesc
    (fun row : InBlock (DbSmartContract Buffer) =>
      toLex (row.entity.canonical, row.entity.blockHeight))
    (db.smartContracts.filter fun row => row.entity.contractId = contractId)
  result.head?.map fun row =>
    { row.entity with txId := bufferToHexPrefixString row.entity.txId }

/-! ## Balances -/

/-- What an address has of an asset, and what it has sent and received. -/
structure TokenBalance where
  balance : Int
  totalSent : Int
  totalReceived : Int
  deriving DecidableEq

/-- The balance of an address in STX, less the fees that it has paid. -/
def getStxBalance (db : Db) (stxAddress : String) : TokenBalance :=
  let transfers := db.stxEvents.filter fun row => row.entity.canonical &&
    (row.entity.sender = some stxAddress || row.entity.recipient = some stxAddress)
  let creditTotal := sumColumn (fun row => row.entity.amount)
    (transfers.filter fun row => row.entity.recipient = some stxAddress)
  let debitTotal := sumColumn (fun row => row.entity.amount)
    (transfers.filter fun row => row.entity.sender = some stxAddress)
  let feeSum := sumColumn (fun row => row.feeRate)
    (db.txs.filter fun row => row.canonical && row.senderAddress = stxAddress)
  let totalFees := feeSum.getD 0
  let totalSent := debitTotal.getD 0
  let totalReceived := creditTotal.getD 0
  { balance := totalReceived - totalSent - totalFees, totalSent, totalReceived }

/-- The entries of the map in the order of their insertion; texts are compared
by the locale of the server. -/
def getFungibleTokenBalances (localeCompare : String → String → Int) (db : Db)
    (stxAddress : String) : List (String × TokenBalance) :=
  let transfers := db.ftEvents.filter fun row => row.entity.canonical &&
    (row.entity.sender = some stxAddress || row.entity.recipient = some stxAddress)
  let credit := groupSum (fun row => row.entity.assetIdentifier) (fun row => row.entity.amount)
    (transfers.filter fun row => row.entity.recipient = some stxAddress)
  let debit := groupSum (fun row => row.entity.assetIdentifier) (fun row => row.entity.amount)
    (transfers.filter fun row => row.entity.sender = some stxAddress)
  let rows := (fullJoin credit debit).insertionSort fun r1 r2 => localeCompare r1.1 r2.1 ≤ 0
  rows.map fun (assetIdentifier, creditTotal, debitTotal) =>
    let totalSent := debitTotal.getD 0
    let totalReceived := creditTotal.getD 0
    (assetIdentifier, { balance := totalReceived - totalSent, totalSent, totalReceived })

/-- How many tokens an address has, has sent and has received. -/
structure TokenCount where
  count : Int
  totalSent : Int
  totalReceived : Int
  deriving DecidableEq

/-- The counts of an address for each non-fungible asset. -/
def getNonFungibleTokenCounts (localeCompare : String → String → Int) (db : Db)
    (stxAddress : String) : List (String × TokenCount) :=
  let transfers := db.nftEvents.filter fun row => row.entity.canonical &&
    (row.entity.sender = some stxAddress || row.entity.recipient = some stxAddress)
  let credit := groupCount (fun row => row.entity.assetIdentifier)
    (transfers.filter fun row => row.entity.recipient = some stxAddress)
  let debit := groupCount (fun row => row.entity.assetIdentifier)
    (transfers.filter fun row => row.entity.sender = some stxAddress)
  let rows := (fullJoin credit debit).insertionSort fun r1 r2 => localeCompare r1.1 r2.1 ≤ 0
  rows.map fun (assetIdentifier, receivedTotal, sentTotal) =>
    let totalSent := sentTotal.getD 0
    let totalReceived := receivedTotal.getD 0
    (assetIdentifier, { count := totalReceived - totalSent, totalSent, totalReceived })

end StacksApi.Datastore
