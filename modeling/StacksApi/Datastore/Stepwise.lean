import StacksApi.Datastore.AddressHistory
import StacksApi.Datastore.ChainListings
import StacksApi.Datastore.Lasting
import StacksApi.Datastore.Search
import StacksApi.Transition.Reading

/-!
# The store one query at a time

The functions of `PgDataStore` that send several queries, each of which is answered in a
moment of its own.  Run alone they give the answers of `StacksApi.Datastore.Query`.
-/

namespace StacksApi.Datastore

open StacksApi.Binary
open StacksApi.Relational
open StacksApi.Transition
open Reading (ask)

/-- Queries to the store and what is made of their answers. -/
abbrev QueryM : Type → Type :=
  Reading Db ApiError

namespace Stepwise

/-! ## Single queries -/

/-- The query for a block. -/
def getBlock (blockHash : String) : QueryM (Option (DbBlock String)) :=
  ask fun db => Datastore.getBlock db blockHash

/-- The query for the transactions of a block. -/
def getBlockTxs (indexBlockHash : String) : QueryM (List String) :=
  ask fun db => Datastore.getBlockTxs db indexBlockHash

/-- The query for a pending transaction. -/
def getMempoolTx (txId : String) : QueryM (Option (DbMempoolTx String)) :=
  ask fun db => Datastore.getMempoolTx db txId

/-- The query for a mined transaction. -/
def getTx (txId : String) : QueryM (Option (DbTx String)) :=
  ask fun db => Datastore.getTx db txId

/-- The query for the transactions of an address, which counts them as well. -/
def getAddressTxs (stxAddress : String) (limit offset : Int) : QueryM (Listing (DbTx String)) :=
  ask fun db => Datastore.getAddressTxs db stxAddress limit offset

/-! ## Listings -/

/-- `SELECT COUNT(*)::integer FROM blocks WHERE canonical = true` -/
def countBlocks (db : Db) : Nat :=
  (db.blocks.filter DbBlock.canonical).length

/-- What the query for a page of blocks answers. -/
def selectBlocks (limit offset : Int) (db : Db) : Except ApiError (List (DbBlock String)) := do
  let results ← paged limit offset
    (orderByDesc DbBlock.blockHeight (db.blocks.filter DbBlock.canonical))
  return results.map parseBlockQueryResult

/-- The two queries are sent together, and the pool answers either of them first. -/
def getBlocks (totalFirst : Bool) (limit offset : Int) : QueryM (Listing (DbBlock String)) :=
  if totalFirst then do
    let total ← ask fun db => .ok (countBlocks db)
    let results ← ask (selectBlocks limit offset)
    return { results, total }
  else do
    let results ← ask (selectBlocks limit offset)
    let total ← ask fun db => .ok (countBlocks db)
    return { results, total }

/-- `WHERE canonical = true AND type_id = ANY($1)` -/
def matchingTxs (txTypeIds : List DbTxTypeId) (db : Db) : List (DbTx Buffer) :=
  db.txs.filter fun row => row.canonical && (txTypeIds.isEmpty || decide (row.typeId ∈ txTypeIds))

/-- What the query for a page of transactions answers. -/
def selectTxs (txTypeIds : List DbTxTypeId) (limit offset : Int) (db : Db) :
    Except ApiError (List (DbTx String)) := do
  let rows ← paged limit offset
    (orderByDesc (fun row : DbTx Buffer => toLex (row.blockHeight, row.txIndex))
      (matchingTxs txTypeIds db))
  rows.mapM parseTxQueryResult

/-- The transactions are counted first, and then a page of them is read. -/
def getTxList (limit offset : Int) (txTypeFilter : List String) :
    QueryM (Listing (DbTx String)) := do
  let txTypeIds ← (txTypeFilter.mapM getTxTypeId : Except ApiError (List DbTxTypeId))
  let total ← ask fun db => .ok (matchingTxs txTypeIds db).length
  let results ← ask (selectTxs txTypeIds limit offset)
  return { results, total }

/-- What the query for a page of pending transactions answers. -/
def selectMempoolTxs (limit offset : Int) (db : Db) :
    Except ApiError (List (DbMempoolTx String)) := do
  let rows ← paged limit offset (orderByDesc DbMempoolTx.receiptTime db.mempoolTxs)
  rows.mapM parseMempoolTxQueryResult

/-- The pending transactions are counted first, and then a page of them is read. -/
def getMempoolTxList (limit offset : Int) : QueryM (Listing (DbMempoolTx String)) := do
  let total ← ask fun db => .ok db.mempoolTxs.length
  let results ← ask (selectMempoolTxs limit offset)
  return { results, total }

/-! ## Events -/

/-- One client sends the queries for the four kinds of events. -/
def getTxEvents (txId indexBlockHash : String) : QueryM (List DbEvent) := do
  let txIdBuffer ← hexToBuffer txId
  let blockHashBuffer ← hexToBuffer indexBlockHash
  let stxResults ← ask fun db =>
    .ok (ofTx (fun event => event.txId) txIdBuffer blockHashBuffer db.stxEvents)
  let ftResults ← ask fun db =>
    .ok (ofTx (fun event => event.txId) txIdBuffer blockHashBuffer db.ftEvents)
  let nftResults ← ask fun db =>
    .ok (ofTx (fun event => event.txId) txIdBuffer blockHashBuffer db.nftEvents)
  let logResults ← ask fun db =>
    .ok (ofTx (fun event => event.txId) txIdBuffer blockHashBuffer db.contractLogs)
  let events := stxResults.map readStxEvent ++ ftResults.map readFtEvent ++
    nftResults.map readNftEvent ++ logResults.map readContractLog
  return events.insertionSort fun a b : DbEvent => a.eventIndex ≤ b.eventIndex

/-! ## Searching -/

/-- Mined transactions are searched first, then pending ones, then blocks. -/
def searchHash (hash : String) : QueryM (Option DbSearchResult) := do
  let buffer ← hexToBuffer hash
  match ← ask fun db => .ok (db.txs.filter fun row => row.txId = buffer).head? with
  | some row =>
      let txResult ← parseTxQueryResult row
      return some (.txId (bufferToHexPrefixString row.txId) txResult)
  | none =>
      match ← ask fun db => .ok (db.mempoolTxs.filter fun row => row.txId = buffer).head? with
      | some row =>
          let txResult ← parseMempoolTxQueryResult row
          return some (.mempoolTxId (bufferToHexPrefixString row.txId) txResult)
      | none =>
          match ← ask fun db => .ok (db.blocks.filter fun row => row.blockHash = buffer).head? with
          | some row =>
              return some (.blockHash (bufferToHexPrefixString row.blockHash)
                (parseBlockQueryResult row))
          | none => return none

/-! ## Without commits in between -/

theorem alone_getBlocks (totalFirst : Bool) (limit offset : Int) (db : Db) :
    (getBlocks totalFirst limit offset).alone db = Datastore.getBlocks db limit offset := by
  have selected : Datastore.getBlocks db limit offset =
      (selectBlocks limit offset db).map fun results => { results, total := countBlocks db } := by
    rw [selectBlocks, Datastore.getBlocks]
    cases paged limit offset
      (orderByDesc DbBlock.blockHeight (db.blocks.filter DbBlock.canonical)) <;> rfl
  rw [selected, Except.map_eq_bind]
  cases totalFirst
  · exact Reading.alone_bind db _ _
  · exact Reading.alone_bind db (ask (selectBlocks limit offset)) _

theorem alone_getTxList (limit offset : Int) (txTypeFilter : List String) (db : Db) :
    (getTxList limit offset txTypeFilter).alone db =
      Datastore.getTxList db limit offset txTypeFilter := by
  rw [getTxList, Datastore.getTxList, Reading.alone_bind]
  refine bind_congr fun txTypeIds => ?_
  simp only [Reading.alone_bind, Reading.alone_ask, selectTxs, bind_assoc]
  rfl

theorem alone_getMempoolTxList (limit offset : Int) (db : Db) :
    (getMempoolTxList limit offset).alone db = Datastore.getMempoolTxList db limit offset := by
  simp only [getMempoolTxList, Reading.alone_bind, Reading.alone_ask, selectMempoolTxs, bind_assoc]
  rfl

theorem alone_getTxEvents (txId indexBlockHash : String) (db : Db) :
    (getTxEvents txId indexBlockHash).alone db = Datastore.getTxEvents db txId indexBlockHash := by
  simp only [getTxEvents, Reading.alone_bind, Reading.alone_ask]
  rfl

theorem alone_searchHash (hash : String) (db : Db) :
    (searchHash hash).alone db = Datastore.searchHash db hash := by
  rw [searchHash, Datastore.searchHash, Reading.alone_bind]
  refine bind_congr fun buffer => ?_
  rw [Reading.alone_bind, Reading.alone_ask]
  cases (db.txs.filter fun row => row.txId = buffer).head? with
  | some row => exact Reading.alone_bind db (liftM (parseTxQueryResult row)) _
  | none =>
      refine (Reading.alone_bind db _ _).trans ?_
      rw [Reading.alone_ask]
      cases (db.mempoolTxs.filter fun row => row.txId = buffer).head? with
      | some row => exact Reading.alone_bind db (liftM (parseMempoolTxQueryResult row)) _
      | none =>
          refine (Reading.alone_bind db _ _).trans ?_
          rw [Reading.alone_ask]
          cases (db.blocks.filter fun row => row.blockHash = buffer).head? <;> rfl

end Stepwise
end StacksApi.Datastore
