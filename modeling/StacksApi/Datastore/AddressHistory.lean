import StacksApi.Datastore.TxEvents

/-!
# The history of an address

The queries of `PgDataStore` that list the transactions and the asset events of an address
and the events of a contract, each page with a `LIMIT` and an `OFFSET`.
-/

namespace StacksApi.Datastore

open StacksApi.Binary
open StacksApi.Relational

/-- `sender_address = $1 OR token_transfer_recipient_address = $1 OR …` -/
def isAddressTx (stxAddress : String) (row : DbTx Buffer) : Bool :=
  row.senderAddress = stxAddress || row.tokenTransferRecipientAddress = some stxAddress ||
    row.contractCallContractId = some stxAddress || row.smartContractContractId = some stxAddress

/-- Canonical transactions of an address, the latest first; the count stands in each row. -/
def getAddressTxs (db : Db) (stxAddress : String) (limit offset : Int) :
    Except ApiError (Listing (DbTx String)) := do
  let transactions := db.txs.filter fun row => row.canonical && isAddressTx stxAddress row
  let rows ← paged limit offset
    (orderByDesc (fun row : DbTx Buffer => toLex (row.blockHeight, row.txIndex)) transactions)
  let count := if rows.isEmpty then 0 else transactions.length
  return { results := ← rows.mapM parseTxQueryResult, total := count }

/-- `ORDER BY block_height DESC, tx_index DESC, event_index DESC` -/
def eventOrder {ι : Type} (event : DbEventBase ι) : Nat ×ₗ Int ×ₗ Nat :=
  toLex (event.blockHeight, toLex (event.txIndex, event.eventIndex))

/-- `WHERE canonical = true AND (sender = $1 OR recipient = $1)` -/
def isAddressEvent (stxAddress : String) (event : DbAssetEvent Buffer) : Bool :=
  event.canonical && (event.sender = some stxAddress || event.recipient = some stxAddress)

/-- The `UNION ALL` of the three tables of asset events. -/
def addressAssetEvents (db : Db) (stxAddress : String) : List DbEvent :=
  (db.stxEvents.filter fun row => isAddressEvent stxAddress row.entity.toDbAssetEvent).map
      (fun row => readStxEvent row.entity) ++
    (db.ftEvents.filter fun row => isAddressEvent stxAddress row.entity.toDbAssetEvent).map
      (fun row => readFtEvent row.entity) ++
    (db.nftEvents.filter fun row => isAddressEvent stxAddress row.entity.toDbAssetEvent).map
      (fun row => readNftEvent row.entity)

theorem isAddressEvent_iff {stxAddress : String} {event : DbAssetEvent Buffer} :
    isAddressEvent stxAddress event = true ↔ event.canonical = true ∧
      (event.sender = some stxAddress ∨ event.recipient = some stxAddress) := by
  rw [isAddressEvent, Bool.and_eq_true, Bool.or_eq_true, decide_eq_true_eq, decide_eq_true_eq]

/-- They are the canonical events, of each of the tables, that the address sends or
receives. -/
theorem mem_addressAssetEvents_iff {db : Db} {stxAddress : String} {event : DbEvent} :
    event ∈ addressAssetEvents db stxAddress ↔
      (∃ row ∈ db.stxEvents, (row.entity.canonical = true ∧
        (row.entity.sender = some stxAddress ∨ row.entity.recipient = some stxAddress)) ∧
          readStxEvent row.entity = event) ∨
      (∃ row ∈ db.ftEvents, (row.entity.canonical = true ∧
        (row.entity.sender = some stxAddress ∨ row.entity.recipient = some stxAddress)) ∧
          readFtEvent row.entity = event) ∨
      ∃ row ∈ db.nftEvents, (row.entity.canonical = true ∧
        (row.entity.sender = some stxAddress ∨ row.entity.recipient = some stxAddress)) ∧
          readNftEvent row.entity = event := by
  simp only [addressAssetEvents, List.mem_append, List.mem_map, List.mem_filter,
    isAddressEvent_iff, and_assoc, or_assoc]

/-- Canonical asset events of an address, the latest first. -/
def getAddressAssetEvents (db : Db) (stxAddress : String) (limit offset : Int) :
    Except ApiError (Listing DbEvent) := do
  let results ← paged limit offset
    (orderByDesc (fun event : DbEvent => eventOrder event.base) (addressAssetEvents db stxAddress))
  return { results, total := 0 }

/-- The event of a row that the query for canonical ones selects. -/
def readCanonicalLog (event : DbSmartContractEvent Buffer) : DbSmartContractEvent String :=
  { event with
    toDbEventBase :=
      { event.toDbEventBase.withTxId (bufferToHexPrefixString event.txId) with canonical := true } }

/-- Canonical log events of a contract, the latest first. -/
def getSmartContractEvents (db : Db) (contractId : String) (limit offset : Int) :
    Except ApiError (List (DbSmartContractEvent String)) := do
  let logs := db.contractLogs.filter fun row =>
    row.entity.canonical && row.entity.contractIdentifier = contractId
  let rows ← paged limit offset
    (orderByDesc (fun row : InBlock (DbSmartContractEvent Buffer) =>
      eventOrder row.entity.toDbEventBase) logs)
  return rows.map fun row => readCanonicalLog row.entity

end StacksApi.Datastore
