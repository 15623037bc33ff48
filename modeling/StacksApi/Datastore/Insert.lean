import StacksApi.Datastore.Schema
import StacksApi.Transition.Fallible

/-!
# Inserting rows

The statements by which `PgDataStore` writes blocks, transactions, events,
contracts and mempool transactions.  Each decodes the byte strings of its record
in the order of its parameters and is refused when the row is not admitted,
which does not depend on the rows already stored.  What a whole entry of an
update adds is therefore a function of the entry alone, up to the transactions
dropped by the unique constraint.
-/

namespace StacksApi.Datastore

open StacksApi.Binary
open StacksApi.Relational
open StacksApi.Transition

/-! ## From records to rows -/

variable {ι κ : Type}

/-- The transaction with its id in another form. -/
def DbTxBase.withTxId (tx : DbTxBase ι) (txId : κ) : DbTxBase κ :=
  { tx with txId }

/-- The event with the id of its transaction in another form. -/
def DbEventBase.withTxId (event : DbEventBase ι) (txId : κ) : DbEventBase κ :=
  { event with txId }

/-- The asset event with the id of its transaction in another form. -/
def DbAssetEvent.withTxId (event : DbAssetEvent ι) (txId : κ) : DbAssetEvent κ :=
  { event with toDbEventBase := event.toDbEventBase.withTxId txId }

/-- The token event with the id of its transaction in another form. -/
def DbContractAssetEvent.withTxId (event : DbContractAssetEvent ι) (txId : κ) :
    DbContractAssetEvent κ :=
  { event with toDbAssetEvent := event.toDbAssetEvent.withTxId txId }

/-- Refuse a row that its table does not admit. -/
def admitRow {α : Type} (table : String) (admitted : α → Bool) (row : α) : Except ApiError α :=
  if admitted row then .ok row else .error (.database table)

/-- A block with its byte strings replaced. -/
def DbBlock.withBuffers (block : DbBlock String) (blockHash indexBlockHash parentIndexBlockHash
    parentBlockHash parentMicroblock : Buffer) : DbBlock Buffer :=
  { block with blockHash, indexBlockHash, parentIndexBlockHash, parentBlockHash,
               parentMicroblock }

/-- The row of a block, if the table admits it. -/
def blockRow (block : DbBlock String) : Except ApiError (DbBlock Buffer) := do
  let blockHash ← hexToBuffer block.blockHash
  let indexBlockHash ← hexToBuffer block.indexBlockHash
  let parentIndexBlockHash ← hexToBuffer block.parentIndexBlockHash
  let parentBlockHash ← hexToBuffer block.parentBlockHash
  let parentMicroblock ← hexToBuffer block.parentMicroblock
  admitRow "blocks" DbBlock.admitted
    (block.withBuffers blockHash indexBlockHash parentIndexBlockHash parentBlockHash
      parentMicroblock)

/-- `tx.raw_result ? hexToBuffer(tx.raw_result) : null` -/
def rawResultColumn : Option String → Except ApiError (Option Buffer)
  | none => .ok none
  | some "" => .ok none
  | some rawResult => (hexToBuffer rawResult).map some

/-- A transaction with its byte strings replaced. -/
def DbTx.withBuffers (tx : DbTx String) (txId indexBlockHash blockHash : Buffer)
    (rawResult : Option Buffer) : DbTx Buffer :=
  { tx with toDbTxBase := tx.toDbTxBase.withTxId txId, indexBlockHash, blockHash, rawResult }

/-- The row of a transaction, if the table admits it. -/
def txRow (tx : DbTx String) : Except ApiError (DbTx Buffer) := do
  let txId ← hexToBuffer tx.txId
  let indexBlockHash ← hexToBuffer tx.indexBlockHash
  let blockHash ← hexToBuffer tx.blockHash
  let rawResult ← rawResultColumn tx.rawResult
  admitRow "txs" DbTx.admitted (tx.withBuffers txId indexBlockHash blockHash rawResult)

/-- The row of a pending transaction, if the table admits it. -/
def mempoolTxRow (tx : DbMempoolTx String) : Except ApiError (DbMempoolTx Buffer) := do
  let txId ← hexToBuffer tx.txId
  admitRow "mempool_txs" DbMempoolTx.admitted
    { toDbTxBase := tx.toDbTxBase.withTxId txId, receiptTime := tx.receiptTime }

/-- A row of a table that takes the index hash of its block from the transaction. -/
def inBlockRow {α : Type} (table : String) (admitted : α → Bool) (tx : DbTx String)
    (txId : String) (entity : Buffer → α) : Except ApiError (InBlock α) := do
  let txId ← hexToBuffer txId
  let indexBlockHash ← hexToBuffer tx.indexBlockHash
  let entity ← admitRow table admitted (entity txId)
  return { indexBlockHash, entity }

/-- The row of an STX event of the transaction. -/
def stxEventRow (tx : DbTx String) (event : DbStxEvent String) :
    Except ApiError (InBlock (DbStxEvent Buffer)) :=
  inBlockRow "stx_events" DbStxEvent.admitted tx event.txId fun txId =>
    { event with toDbAssetEvent := event.toDbAssetEvent.withTxId txId }

/-- The row of an event of a fungible token. -/
def ftEventRow (tx : DbTx String) (event : DbFtEvent String) :
    Except ApiError (InBlock (DbFtEvent Buffer)) :=
  inBlockRow "ft_events" DbFtEvent.admitted tx event.txId fun txId =>
    { event with toDbContractAssetEvent := event.toDbContractAssetEvent.withTxId txId }

/-- The row of an event of a non-fungible token. -/
def nftEventRow (tx : DbTx String) (event : DbNftEvent String) :
    Except ApiError (InBlock (DbNftEvent Buffer)) :=
  inBlockRow "nft_events" DbNftEvent.admitted tx event.txId fun txId =>
    { event with toDbContractAssetEvent := event.toDbContractAssetEvent.withTxId txId }

/-- The row of a log event. -/
def contractLogRow (tx : DbTx String) (event : DbSmartContractEvent String) :
    Except ApiError (InBlock (DbSmartContractEvent Buffer)) :=
  inBlockRow "contract_logs" DbSmartContractEvent.admitted tx event.txId fun txId =>
    { event with toDbEventBase := event.toDbEventBase.withTxId txId }

/-- The row of a contract that the transaction deploys. -/
def smartContractRow (tx : DbTx String) (contract : DbSmartContract String) :
    Except ApiError (InBlock (DbSmartContract Buffer)) :=
  inBlockRow "smart_contracts" DbSmartContract.admitted tx contract.txId fun txId =>
    { contract with txId }

/-! ## Statements -/

/-- The unique constraint on `tx_id` and `index_block_hash`. -/
def sameInclusion (first second : DbTx Buffer) : Bool :=
  decide (first.txId = second.txId ∧ first.indexBlockHash = second.indexBlockHash)

/-- Insert a block unless its index hash is stored; the number of rows says which. -/
def updateBlock (db : Db) (block : DbBlock String) : Except ApiError (Db × Nat) := do
  let row ← blockRow block
  let (blocks, rowCount) := insertRow
    (fun row stored => decide (row.indexBlockHash = stored.indexBlockHash)) row db.blocks
  return ({ db with blocks }, rowCount)

/-- Insert a transaction unless it is stored in the same block. -/
def updateTx (db : Db) (tx : DbTx String) : Except ApiError Db := do
  let row ← txRow tx
  return { db with txs := (insertRow sameInclusion row db.txs).1 }

/-- Insert an STX event. -/
def updateStxEvent (tx : DbTx String) (db : Db) (event : DbStxEvent String) :
    Except ApiError Db := do
  let row ← stxEventRow tx event
  return { db with stxEvents := db.stxEvents ++ [row] }

/-- Insert an event of a fungible token. -/
def updateFtEvent (tx : DbTx String) (db : Db) (event : DbFtEvent String) :
    Except ApiError Db := do
  let row ← ftEventRow tx event
  return { db with ftEvents := db.ftEvents ++ [row] }

/-- Insert an event of a non-fungible token. -/
def updateNftEvent (tx : DbTx String) (db : Db) (event : DbNftEvent String) :
    Except ApiError Db := do
  let row ← nftEventRow tx event
  return { db with nftEvents := db.nftEvents ++ [row] }

/-- Insert a log event. -/
def updateSmartContractEvent (tx : DbTx String) (db : Db) (event : DbSmartContractEvent String) :
    Except ApiError Db := do
  let row ← contractLogRow tx event
  return { db with contractLogs := db.contractLogs ++ [row] }

/-- Insert a contract. -/
def updateSmartContract (tx : DbTx String) (db : Db) (contract : DbSmartContract String) :
    Except ApiError Db := do
  let row ← smartContractRow tx contract
  return { db with smartContracts := db.smartContracts ++ [row] }

/-- The body of the loop of `update` over the transactions. -/
def updateEntry (db : Db) (entry : TxEntry) : Except ApiError Db := do
  let db ← updateTx db entry.tx
  let db ← entry.stxEvents.foldlM (updateStxEvent entry.tx) db
  let db ← entry.ftEvents.foldlM (updateFtEvent entry.tx) db
  let db ← entry.nftEvents.foldlM (updateNftEvent entry.tx) db
  let db ← entry.contractLogEvents.foldlM (updateSmartContractEvent entry.tx) db
  entry.smartContracts.foldlM (updateSmartContract entry.tx) db

/-- Insert a pending transaction and announce it, unless its id is pending already. -/
def updateMempoolTx (db : Db) (mempoolTx : DbMempoolTx String) :
    Except ApiError (Db × List DataStoreEvent) := do
  let row ← mempoolTxRow mempoolTx
  let (mempoolTxs, rowCount) := insertRow
    (fun row stored => decide (row.txId = stored.txId)) row db.mempoolTxs
  if rowCount ≠ 1 then return ({ db with mempoolTxs }, [])
  else return ({ db with mempoolTxs }, [.mempoolTxUpdate mempoolTx])

/-! ## The rows of an entry -/

/-- What one entry of an update is in the tables. -/
structure EntryRows where
  tx : DbTx Buffer
  stxEvents : List (InBlock (DbStxEvent Buffer))
  ftEvents : List (InBlock (DbFtEvent Buffer))
  nftEvents : List (InBlock (DbNftEvent Buffer))
  contractLogs : List (InBlock (DbSmartContractEvent Buffer))
  smartContracts : List (InBlock (DbSmartContract Buffer))

/-- The rows of an entry, if the tables admit all of them. -/
def entryRows (entry : TxEntry) : Except ApiError EntryRows := do
  let tx ← txRow entry.tx
  let stxEvents ← entry.stxEvents.mapM (stxEventRow entry.tx)
  let ftEvents ← entry.ftEvents.mapM (ftEventRow entry.tx)
  let nftEvents ← entry.nftEvents.mapM (nftEventRow entry.tx)
  let contractLogs ← entry.contractLogEvents.mapM (contractLogRow entry.tx)
  let smartContracts ← entry.smartContracts.mapM (smartContractRow entry.tx)
  return { tx, stxEvents, ftEvents, nftEvents, contractLogs, smartContracts }

/-- The tables with the rows of an entry. -/
def Db.addEntry (db : Db) (rows : EntryRows) : Db :=
  { db with
    txs := (insertRow sameInclusion rows.tx db.txs).1
    stxEvents := db.stxEvents ++ rows.stxEvents
    ftEvents := db.ftEvents ++ rows.ftEvents
    nftEvents := db.nftEvents ++ rows.nftEvents
    contractLogs := db.contractLogs ++ rows.contractLogs
    smartContracts := db.smartContracts ++ rows.smartContracts }

/-- Inserting one by one appends the rows, or fails as their computation does. -/
theorem foldlM_insert {α β σ : Type} (row : α → Except ApiError β) (add : σ → List β → σ)
    (add_nil : ∀ state, add state [] = state)
    (add_add : ∀ state first second, add (add state first) second = add state (first ++ second))
    (items : List α) (state : σ) :
    (items.foldlM (fun state item => do return add state [← row item]) state :
      Except ApiError σ) = (items.mapM row).map (add state) := by
  induction items generalizing state with
  | nil => exact congrArg Except.ok (add_nil state).symm
  | cons item items ih =>
      rw [List.foldlM_cons, List.mapM_cons]
      simp only [Except.map_eq_bind, bind_assoc, pure_bind, ih, add_add, List.singleton_append]

section Events

variable (tx : DbTx String) (db : Db)

theorem foldlM_updateStxEvent (events : List (DbStxEvent String)) :
    events.foldlM (updateStxEvent tx) db = (events.mapM (stxEventRow tx)).map fun rows =>
      { db with stxEvents := db.stxEvents ++ rows } :=
  foldlM_insert (stxEventRow tx)
    (fun (db : Db) rows => ({ db with stxEvents := db.stxEvents ++ rows } : Db))
    (by simp) (by simp) events db

theorem foldlM_updateFtEvent (events : List (DbFtEvent String)) :
    events.foldlM (updateFtEvent tx) db = (events.mapM (ftEventRow tx)).map fun rows =>
      { db with ftEvents := db.ftEvents ++ rows } :=
  foldlM_insert (ftEventRow tx)
    (fun (db : Db) rows => ({ db with ftEvents := db.ftEvents ++ rows } : Db))
    (by simp) (by simp) events db

theorem foldlM_updateNftEvent (events : List (DbNftEvent String)) :
    events.foldlM (updateNftEvent tx) db = (events.mapM (nftEventRow tx)).map fun rows =>
      { db with nftEvents := db.nftEvents ++ rows } :=
  foldlM_insert (nftEventRow tx)
    (fun (db : Db) rows => ({ db with nftEvents := db.nftEvents ++ rows } : Db))
    (by simp) (by simp) events db

theorem foldlM_updateSmartContractEvent (events : List (DbSmartContractEvent String)) :
    events.foldlM (updateSmartContractEvent tx) db =
      (events.mapM (contractLogRow tx)).map fun rows =>
        { db with contractLogs := db.contractLogs ++ rows } :=
  foldlM_insert (contractLogRow tx)
    (fun (db : Db) rows => ({ db with contractLogs := db.contractLogs ++ rows } : Db))
    (by simp) (by simp) events db

theorem foldlM_updateSmartContract (contracts : List (DbSmartContract String)) :
    contracts.foldlM (updateSmartContract tx) db =
      (contracts.mapM (smartContractRow tx)).map fun rows =>
        { db with smartContracts := db.smartContracts ++ rows } :=
  foldlM_insert (smartContractRow tx)
    (fun (db : Db) rows => ({ db with smartContracts := db.smartContracts ++ rows } : Db))
    (by simp) (by simp) contracts db

end Events

theorem updateEntry_eq (db : Db) (entry : TxEntry) :
    updateEntry db entry = (entryRows entry).map db.addEntry := by
  rw [updateEntry, entryRows, updateTx]
  simp only [foldlM_updateStxEvent, foldlM_updateFtEvent, foldlM_updateNftEvent,
    foldlM_updateSmartContractEvent, foldlM_updateSmartContract, Except.map_eq_bind,
    bind_assoc, pure_bind]
  rfl

/-- The loop over the entries of an update. -/
theorem foldlM_updateEntry (db : Db) (entries : List TxEntry) :
    entries.foldlM updateEntry db =
      (entries.mapM entryRows).map fun rows => rows.foldl Db.addEntry db := by
  induction entries generalizing db with
  | nil => rfl
  | cons entry entries ih =>
      rw [List.foldlM_cons, List.mapM_cons, updateEntry_eq]
      simp only [Except.map_eq_bind, bind_assoc, pure_bind, ih, List.foldl_cons]

end StacksApi.Datastore
