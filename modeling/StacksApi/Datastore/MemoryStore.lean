import StacksApi.Collections.ArraySort
import StacksApi.Collections.InsertionMap
import StacksApi.Datastore.Query

/-!
# The store in memory

`MemoryDataStore`: maps from the texts of ids and hashes to the records themselves.  A
second block at the height of a canonical one makes every record from that height on
non-canonical, whatever chain it is on, and is stored as it was delivered.
-/

namespace StacksApi.Datastore

open StacksApi.Collections
open CanonicalEntity

/-- A value of a map whose records do not name their block themselves. -/
structure MemoryEntry (α : Type) where
  indexBlockHash : String
  entry : α
  deriving DecidableEq

/-- The maps of the memory store in the order of insertion. -/
structure MemoryDataStore where
  blocks : List (String × DbBlock String)
  txs : List (String × DbTx String)
  txMempool : List (String × DbMempoolTx String)
  stxTokenEvents : List (String × MemoryEntry (DbStxEvent String))
  fungibleTokenEvents : List (String × MemoryEntry (DbFtEvent String))
  nonFungibleTokenEvents : List (String × MemoryEntry (DbNftEvent String))
  smartContractEvents : List (String × MemoryEntry (DbSmartContractEvent String))
  smartContracts : List (String × MemoryEntry (DbSmartContract String))
  deriving DecidableEq

namespace MemoryDataStore

/-- The store without entries. -/
def empty : MemoryDataStore where
  blocks := []
  txs := []
  txMempool := []
  stxTokenEvents := []
  fungibleTokenEvents := []
  nonFungibleTokenEvents := []
  smartContractEvents := []
  smartContracts := []

/-! ## Updates -/

/-- A record from the height on is made non-canonical. -/
def orphanFrom {α : Type} [CanonicalEntity α] (blockHeight : α → Nat) (canonicalHeight : Nat)
    (entry : α) : α :=
  if canonicalHeight ≤ blockHeight entry then withCanonical false entry else entry

/-- An event or a contract from a height on leaves the canonical chain. -/
def orphanEntryFrom {α : Type} [CanonicalEntity α] (blockHeight : α → Nat) (canonicalHeight : Nat)
    (item : MemoryEntry α) : MemoryEntry α :=
  { item with entry := orphanFrom blockHeight canonicalHeight item.entry }

/-- Everything from a height on leaves the canonical chain. -/
def updateCanonicalStatus (store : MemoryDataStore) (canonicalBlockHeight : Nat) :
    MemoryDataStore :=
  { store with
    blocks := updateValues (orphanFrom DbBlock.blockHeight canonicalBlockHeight) store.blocks
    txs := updateValues (orphanFrom DbTx.blockHeight canonicalBlockHeight) store.txs
    stxTokenEvents := updateValues
      (orphanEntryFrom (fun event => event.blockHeight) canonicalBlockHeight) store.stxTokenEvents
    fungibleTokenEvents := updateValues
      (orphanEntryFrom (fun event => event.blockHeight) canonicalBlockHeight)
      store.fungibleTokenEvents
    nonFungibleTokenEvents := updateValues
      (orphanEntryFrom (fun event => event.blockHeight) canonicalBlockHeight)
      store.nonFungibleTokenEvents
    smartContractEvents := updateValues
      (orphanEntryFrom (fun event => event.blockHeight) canonicalBlockHeight)
      store.smartContractEvents
    smartContracts := updateValues
      (orphanEntryFrom (fun contract => contract.blockHeight) canonicalBlockHeight)
      store.smartContracts }

/-- Another canonical block stands at the height of the block. -/
def reorgDetected (store : MemoryDataStore) (block : DbBlock String) : Bool :=
  (mapValues store.blocks).any fun stored =>
    decide (stored.blockHeight = block.blockHeight) &&
      decide (stored.blockHash ≠ block.blockHash) &&
      stored.canonical

/-- Set a block; where there is one of its height, the chain gives way to it. -/
def updateBlock (store : MemoryDataStore) (block : DbBlock String) : MemoryDataStore :=
  let store := if store.reorgDetected block then store.updateCanonicalStatus block.blockHeight
    else store
  { store with blocks := setEntry block.blockHash block store.blocks }

/-- Set a transaction under its id. -/
def updateTx (store : MemoryDataStore) (tx : DbTx String) : MemoryDataStore :=
  { store with txs := setEntry tx.txId tx store.txs }

/-- The key of an event in the map of its kind. -/
def eventKey (tx : DbTx String) (event : DbEventBase String) : String :=
  s!"{event.txId}_{tx.indexBlockHash}_{event.eventIndex}"

/-- Set an STX event. -/
def updateStxEvent (tx : DbTx String) (store : MemoryDataStore) (event : DbStxEvent String) :
    MemoryDataStore :=
  { store with
    stxTokenEvents := setEntry (eventKey tx event.toDbEventBase)
      { indexBlockHash := tx.indexBlockHash, entry := event } store.stxTokenEvents }

/-- Set an event of a fungible token. -/
def updateFtEvent (tx : DbTx String) (store : MemoryDataStore) (event : DbFtEvent String) :
    MemoryDataStore :=
  { store with
    fungibleTokenEvents := setEntry (eventKey tx event.toDbEventBase)
      { indexBlockHash := tx.indexBlockHash, entry := event } store.fungibleTokenEvents }

/-- Set an event of a non-fungible token. -/
def updateNftEvent (tx : DbTx String) (store : MemoryDataStore) (event : DbNftEvent String) :
    MemoryDataStore :=
  { store with
    nonFungibleTokenEvents := setEntry (eventKey tx event.toDbEventBase)
      { indexBlockHash := tx.indexBlockHash, entry := event } store.nonFungibleTokenEvents }

/-- Set a log event. -/
def updateSmartContractEvent (tx : DbTx String) (store : MemoryDataStore)
    (event : DbSmartContractEvent String) : MemoryDataStore :=
  { store with
    smartContractEvents := setEntry (eventKey tx event.toDbEventBase)
      { indexBlockHash := tx.indexBlockHash, entry := event } store.smartContractEvents }

/-- Set a contract under its id. -/
def updateSmartContract (tx : DbTx String) (store : MemoryDataStore)
    (smartContract : DbSmartContract String) : MemoryDataStore :=
  { store with
    smartContracts := setEntry smartContract.contractId
      { indexBlockHash := tx.indexBlockHash, entry := smartContract } store.smartContracts }

/-- The body of the loop of `update` over the transactions. -/
def updateEntry (store : MemoryDataStore) (entry : TxEntry) : MemoryDataStore :=
  let store := store.updateTx entry.tx
  let store := entry.stxEvents.foldl (updateStxEvent entry.tx) store
  let store := entry.ftEvents.foldl (updateFtEvent entry.tx) store
  let store := entry.nftEvents.foldl (updateNftEvent entry.tx) store
  let store := entry.contractLogEvents.foldl (updateSmartContractEvent entry.tx) store
  entry.smartContracts.foldl (updateSmartContract entry.tx) store

/-- The store after an update, and what it announces. -/
def update (store : MemoryDataStore) (data : DataStoreUpdateData) :
    MemoryDataStore × List DataStoreEvent :=
  (data.txs.foldl updateEntry (store.updateBlock data.block),
    .blockUpdate data.block :: data.txs.map fun entry => .txUpdate entry.tx)

/-- Set a pending transaction and announce it, also when it is pending already. -/
def updateMempoolTx (store : MemoryDataStore) (mempoolTx : DbMempoolTx String) :
    MemoryDataStore × List DataStoreEvent :=
  ({ store with txMempool := setEntry mempoolTx.txId mempoolTx store.txMempool },
    [.mempoolTxUpdate mempoolTx])

/-! ## Queries -/

/-- `.filter((_tx, i) => i >= offset && i <= offset + limit).slice(0, limit)` -/
def pageOf {α : Type} (limit offset : Nat) (rows : List α) : List α :=
  ((rows.zipIdx.filter fun (_, i) => offset ≤ i ∧ i ≤ offset + limit).map Prod.fst).take limit

/-- The block of a hash. -/
def getBlock (store : MemoryDataStore) (blockHash : String) : Option (DbBlock String) :=
  store.blocks.lookup blockHash

/-- A page of the canonical blocks, the highest first. -/
def getBlocks (store : MemoryDataStore) (limit offset : Nat) : Listing (DbBlock String) :=
  let blockList := (mapValues store.blocks).filter fun block => block.canonical
  let sorted := arraySort (fun a b => (b.blockHeight : Int) - a.blockHeight) blockList
  { results := pageOf limit offset sorted, total := blockList.length }

/-- In the order of the map. -/
def getBlockTxs (store : MemoryDataStore) (indexBlockHash : String) : List String :=
  ((mapValues store.txs).filter fun tx => tx.indexBlockHash = indexBlockHash).map fun tx => tx.txId

/-- The pending transaction of an id. -/
def getMempoolTx (store : MemoryDataStore) (txId : String) : Option (DbMempoolTx String) :=
  store.txMempool.lookup txId

/-- The transaction of an id. -/
def getTx (store : MemoryDataStore) (txId : String) : Option (DbTx String) :=
  store.txs.lookup txId

/-- By block height, then by position in the block, both descending. -/
def compareTxs (a b : DbTx String) : Int :=
  if b.blockHeight = a.blockHeight then b.txIndex - a.txIndex
  else (b.blockHeight : Int) - a.blockHeight

/-- A page of the canonical transactions of the types, the latest first. -/
def getTxList (store : MemoryDataStore) (limit offset : Nat) (txTypeFilter : List String) :
    Except ApiError (Listing (DbTx String)) := do
  let typeIds ← txTypeFilter.mapM getTxTypeId
  let transactionsList := (mapValues store.txs).filter fun tx =>
    tx.canonical && (typeIds.isEmpty || decide (tx.typeId ∈ typeIds))
  let sorted := arraySort compareTxs transactionsList
  return { results := pageOf limit offset sorted, total := transactionsList.length }

/-- The events of a kind that belong to a transaction of a block. -/
def eventsOf {α : Type} (txId : α → String) (id indexBlockHash : String)
    (items : List (String × MemoryEntry α)) : List α :=
  ((mapValues items).filter fun item =>
    item.indexBlockHash = indexBlockHash ∧ txId item.entry = id).map MemoryEntry.entry

/-- The events of a transaction in a block, in the order that the sort leaves. -/
def getTxEvents (store : MemoryDataStore) (txId indexBlockHash : String) : List DbEvent :=
  let stxEvents := eventsOf (fun event => event.txId) txId indexBlockHash store.stxTokenEvents
  let ftEvents := eventsOf (fun event => event.txId) txId indexBlockHash store.fungibleTokenEvents
  let nftEvents :=
    eventsOf (fun event => event.txId) txId indexBlockHash store.nonFungibleTokenEvents
  let smartContractEvents :=
    eventsOf (fun event => event.txId) txId indexBlockHash store.smartContractEvents
  let allEvents := stxEvents.map DbEvent.stx ++ ftEvents.map DbEvent.ft ++
    nftEvents.map DbEvent.nft ++ smartContractEvents.map DbEvent.smartContractLog
  arraySort (fun event _ => event.eventIndex) allEvents

end MemoryDataStore

end StacksApi.Datastore
