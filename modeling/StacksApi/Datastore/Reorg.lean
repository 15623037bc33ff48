import StacksApi.Chain.Restore
import StacksApi.Datastore.Insert

/-!
# Reorganisation of the canonical chain

`getChainTipHeight`, `pruneMempoolTxs`, `markEntitiesCanonical`,
`restoreOrphanedChain` and `handleReorg`, as the source computes them.  The
recursion of `restoreOrphanedChain` moves one height down at a time; its depth
is bounded by the height of the incoming block.
-/

namespace StacksApi.Datastore

open StacksApi.Binary
open StacksApi.Relational
open CanonicalEntity

/-- The highest canonical block. -/
structure ChainTip where
  blockHeight : Nat
  blockHash : String
  indexBlockHash : String
  deriving DecidableEq

/-- `SELECT MAX(block_height) FROM blocks`, with zero for no rows. -/
def Db.maxBlockHeight (db : Db) : Nat :=
  (db.blocks.map DbBlock.blockHeight).foldr max 0

/-- The tip of the canonical chain, or zero and empty hashes before the first block. -/
def getChainTipHeight (db : Db) : ChainTip :=
  match db.blocks.filter fun row => row.canonical && row.blockHeight = db.maxBlockHeight with
  | [] =>
      { blockHeight := 0
        blockHash := bufferToHexPrefixString []
        indexBlockHash := bufferToHexPrefixString [] }
  | row :: _ =>
      { blockHeight := row.blockHeight
        blockHash := bufferToHexPrefixString row.blockHash
        indexBlockHash := bufferToHexPrefixString row.indexBlockHash }

/-- Numbers of rows whose flag was changed. -/
structure EntityCounts where
  blocks : Nat := 0
  txs : Nat := 0
  stxEvents : Nat := 0
  ftEvents : Nat := 0
  nftEvents : Nat := 0
  contractLogs : Nat := 0
  smartContracts : Nat := 0
  deriving DecidableEq

/-- How many rows of each table changed to either side. -/
structure UpdatedEntities where
  markedCanonical : EntityCounts := {}
  markedNonCanonical : EntityCounts := {}
  deriving DecidableEq

/-- Change the counts of one direction. -/
def UpdatedEntities.count (updated : UpdatedEntities) (canonical : Bool)
    (change : EntityCounts → EntityCounts) : UpdatedEntities :=
  if canonical then { updated with markedCanonical := change updated.markedCanonical }
  else { updated with markedNonCanonical := change updated.markedNonCanonical }

/-- Remove transactions from the mempool table; the removed ids are returned. -/
def pruneMempoolTxs (db : Db) (txIds : List String) : Except ApiError (Db × List String) :=
  match txIds with
  | [] => .ok (db, [])
  | txIds => do
      let txIdBuffers ← txIds.mapM hexToBuffer
      let (mempoolTxs, removed) := deleteRows (fun row => row.txId ∈ txIdBuffers) db.mempoolTxs
      return ({ db with mempoolTxs }, removed.map fun row => bufferToHexPrefixString row.txId)

/-- The tables without the mempool rows of the given ids. -/
def Db.withoutMempoolTxs (db : Db) (txIds : List Buffer) : Db :=
  { db with mempoolTxs := db.mempoolTxs.filter fun row => !decide (row.txId ∈ txIds) }

/-- Set the flag of everything that belongs to a block; the ids of the
transactions that became canonical are returned. -/
def markEntitiesCanonical (db : Db) (indexBlockHash : Buffer) (canonical : Bool)
    (updated : UpdatedEntities) : Db × List String × UpdatedEntities :=
  let (txs, txRows) := setFlag indexBlockHash canonical db.txs
  let (stxEvents, stxRows) := setFlag indexBlockHash canonical db.stxEvents
  let (ftEvents, ftRows) := setFlag indexBlockHash canonical db.ftEvents
  let (nftEvents, nftRows) := setFlag indexBlockHash canonical db.nftEvents
  let (contractLogs, contractLogRows) := setFlag indexBlockHash canonical db.contractLogs
  let (smartContracts, smartContractRows) := setFlag indexBlockHash canonical db.smartContracts
  let txIds := txRows.map fun row => bufferToHexPrefixString row.txId
  ({ db with txs, stxEvents, ftEvents, nftEvents, contractLogs, smartContracts },
    if canonical then txIds else [],
    updated.count canonical fun counts =>
      { counts with
        txs := counts.txs + txRows.length
        stxEvents := counts.stxEvents + stxRows.length
        ftEvents := counts.ftEvents + ftRows.length
        nftEvents := counts.nftEvents + nftRows.length
        contractLogs := counts.contractLogs + contractLogRows.length
        smartContracts := counts.smartContracts + smartContractRows.length })

/-- `updatedEntities.….blocks++` -/
def UpdatedEntities.countBlock (updated : UpdatedEntities) (canonical : Bool) :
    UpdatedEntities :=
  updated.count canonical fun counts => { counts with blocks := counts.blocks + 1 }

/-- Orphan the conflicting block at the height of the restored one. -/
def orphanConflicting (db : Db) (restored : DbBlock Buffer) (updated : UpdatedEntities) :
    Db × UpdatedEntities :=
  let (blocks, orphaned) := updateRows
    (fun row => decide (row.blockHeight = restored.blockHeight ∧
      row.indexBlockHash ≠ restored.indexBlockHash) && row.canonical)
    (withCanonical false) db.blocks
  let db := { db with blocks }
  match orphaned with
  | [] => (db, updated)
  | orphan :: _ =>
      let (db, _, updated) :=
        markEntitiesCanonical db orphan.indexBlockHash false (updated.countBlock false)
      (db, updated)

/-- The non-canonical parent of a restored block, if the table holds one. -/
def orphanedParents (db : Db) (restored : DbBlock Buffer) : List (DbBlock Buffer) :=
  db.blocks.filter fun row => decide (row.blockHeight + 1 = restored.blockHeight ∧
    row.indexBlockHash = restored.parentIndexBlockHash) && !row.canonical

/-- Put a restored block in the place of the one it conflicts with. -/
def exchangeEntities (db : Db) (restored : DbBlock Buffer) (updated : UpdatedEntities) :
    Except ApiError (Db × UpdatedEntities) := do
  let (db, updated) := orphanConflicting db restored updated
  let (db, txsMarkedCanonical, updated) :=
    markEntitiesCanonical db restored.indexBlockHash true updated
  let (db, _) ← pruneMempoolTxs db txsMarkedCanonical
  return (db, updated)

/-- One call of `restoreOrphanedChain` up to the query for the parent. -/
def restoreOrphanedBlock (db : Db) (indexBlockHash : Buffer) (updated : UpdatedEntities) :
    Except ApiError (Db × DbBlock Buffer × UpdatedEntities) :=
  let (blocks, restored) := updateRows
    (fun row => decide (row.indexBlockHash = indexBlockHash) && !row.canonical)
    (withCanonical true) db.blocks
  match restored with
  | [] => .error (.reorg (.orphanNotFound indexBlockHash))
  | _ :: _ :: _ => .error (.reorg (.multipleOrphans indexBlockHash))
  | [block] => do
      let (db, updated) ← exchangeEntities { db with blocks } block (updated.countBlock true)
      return (db, block, updated)

/-- Restore a block and, as long as they are orphaned too, its ancestors. -/
def restoreOrphanedChain : Nat → Db → Buffer → UpdatedEntities →
    Except ApiError (Db × UpdatedEntities)
  | 0, _, _, _ => .error (.reorg .endlessRestore)
  | depth + 1, db, indexBlockHash, updated => do
      let (db, block, updated) ← restoreOrphanedBlock db indexBlockHash updated
      match orphanedParents db block with
      | [] => return (db, updated)
      | [parent] => restoreOrphanedChain depth db parent.indexBlockHash updated
      | _ => throw (.reorg .multipleOrphanedParents)

/-- The stored blocks with a hash one height below an incoming block. -/
def parentRows (db : Db) (blockHeight : Nat) (parentHash : Buffer) : List (DbBlock Buffer) :=
  db.blocks.filter fun row => decide (row.blockHeight + 1 = blockHeight ∧
    row.indexBlockHash = parentHash)

/-- Check that the parent of an incoming block is stored, and restore the
parent's chain when the block makes it the longest. -/
def handleReorg (db : Db) (block : DbBlock String) (chainTipHeight : Nat) :
    Except ApiError (Db × UpdatedEntities) :=
  if block.blockHeight > 1 then do
    let parentHash ← hexToBuffer block.parentIndexBlockHash
    match parentRows db block.blockHeight parentHash with
    | [] => throw (.reorg (.missingParent (block.blockHeight - 1) block.parentIndexBlockHash))
    | _ :: _ :: _ =>
        throw (.reorg (.multipleBlocks (block.blockHeight - 1) block.parentIndexBlockHash))
    | [parent] =>
        if !parent.canonical ∧ block.blockHeight > chainTipHeight then
          restoreOrphanedChain block.blockHeight db parent.indexBlockHash {}
        else
          return (db, {})
  else
    .ok (db, {})

end StacksApi.Datastore
