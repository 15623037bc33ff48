import StacksApi.Datastore.Reorg
import StacksApi.Transition.Run

/-!
# The update transaction

`PgDataStore.update` and the announcements it makes after the commit.  A
database transaction that fails is rolled back, so an update is a function to
the new tables or an error.
-/

namespace StacksApi.Datastore

open StacksApi.Binary
open StacksApi.Relational
open StacksApi.Transition

/-! ## Announcements -/

/-- A map from addresses to sets of transactions in order of insertion.  The
members of the sets are objects, so a transaction stands with its position in
the update. -/
abbrev AddressTxUpdates : Type :=
  List (String × List (Nat × DbTx String))

/-- `getOrAdd(addressTxUpdates, addr, () => new Set()).add(tx)` for an address
that is neither absent nor empty. -/
def addAddressTx (member : Nat × DbTx String) (updates : AddressTxUpdates) :
    Option String → AddressTxUpdates
  | none => updates
  | some "" => updates
  | some addr =>
      if updates.any fun update => update.1 = addr then
        updates.map fun update =>
          if update.1 = addr ∧ update.2.all fun other => other.1 ≠ member.1 then
            (update.1, update.2 ++ [member])
          else update
      else updates ++ [(addr, [member])]

/-- The addresses of an entry in the order in which they are recorded. -/
def TxEntry.addresses (entry : TxEntry) : List (Option String) :=
  [some entry.tx.senderAddress] ++
    entry.stxEvents.flatMap (fun event => [event.sender, event.recipient]) ++
    entry.ftEvents.flatMap (fun event => [event.sender, event.recipient]) ++
    entry.nftEvents.flatMap (fun event => [event.sender, event.recipient]) ++
    entry.smartContracts.map (fun contract => some contract.contractId) ++
    match entry.tx.typeId with
    | .contractCall => [entry.tx.contractCallContractId]
    | .smartContract => [entry.tx.smartContractContractId]
    | .tokenTransfer => [entry.tx.tokenTransferRecipientAddress]
    | _ => []

/-- The transactions of an update by the addresses that they concern. -/
def addressTxUpdates (data : DataStoreUpdateData) : AddressTxUpdates :=
  data.txs.zipIdx.foldl
    (fun updates (entry, position) =>
      entry.addresses.foldl (addAddressTx (position, entry.tx)) updates) []

/-- The `addressUpdate` events of an update. -/
def emitAddressTxUpdates (data : DataStoreUpdateData) : List DataStoreEvent :=
  (addressTxUpdates data).map fun (address, txs) =>
    .addressUpdate { address, txs := txs.map fun member => member.2 }

/-- All events of an accepted update. -/
def updateEvents (data : DataStoreUpdateData) : List DataStoreEvent :=
  [.blockUpdate data.block] ++ data.txs.map (fun entry => .txUpdate entry.tx) ++
    emitAddressTxUpdates data

/-! ## The update -/

/-- The ids that a new canonical block removes from the mempool. -/
def candidateTxIds (data : DataStoreUpdateData) : List String :=
  (data.txs.filter fun entry => entry.tx.typeId ≠ .coinbase).map fun entry => entry.tx.txId

/-- Remove the transactions of a new canonical block from the mempool. -/
def pruneNewlyMined (db : Db) (data : DataStoreUpdateData) : Except ApiError Db := do
  let (db, _) ← pruneMempoolTxs db (candidateTxIds data)
  return db

/-- Store the block and, unless it was stored before, its entries. -/
def storeBlock (db : Db) (data : DataStoreUpdateData) : Except ApiError Db := do
  let (db, blocksUpdated) ← updateBlock db data.block
  if blocksUpdated ≠ 0 then data.txs.foldlM updateEntry db else return db

/-- Store a block: reorganise the chain, prune what is mined now, and insert the rows of a block
that is new.  The update is announced in any case. -/
def update (db : Db) (data : DataStoreUpdateData) :
    Except ApiError (Db × List DataStoreEvent) := do
  let chainTip := getChainTipHeight db
  let (db, _) ← handleReorg db data.block chainTip.blockHeight
  let isCanonical := decide (data.block.blockHeight > chainTip.blockHeight)
  let data := if isCanonical then data else data.markNonCanonical
  let db ← if isCanonical then pruneNewlyMined db data else pure db
  let db ← storeBlock db data
  return (db, updateEvents data)

/-- The tables after updates arrive one at a time in an empty store. -/
def runUpdates (updates : List DataStoreUpdateData) : Db :=
  run update Db.empty updates

end StacksApi.Datastore
