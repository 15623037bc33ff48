import StacksApi.Datastore.MemoryStore
import StacksApi.Datastore.StoreRun

/-!
# Runs of the store in memory

No call to the store in memory fails.  After every run each record stands in its map
under its own id, and each event under the key that is made of its id, its block and its
position.
-/

namespace StacksApi.Datastore

open StacksApi.Collections
open CanonicalEntity

/-- What a call makes of the memory store. -/
def performMemoryCall (store : MemoryDataStore) : StoreCall → MemoryDataStore
  | .update data => (store.update data).1
  | .updateMempoolTx mempoolTx => (store.updateMempoolTx mempoolTx).1

/-- The maps after calls to an empty store. -/
def runMemory (calls : List StoreCall) : MemoryDataStore :=
  calls.foldl performMemoryCall MemoryDataStore.empty

/-- The key under which an event is stored. -/
def itemKey {α : Type} (base : α → DbEventBase String) (item : MemoryEntry α) : String :=
  s!"{(base item.entry).txId}_{item.indexBlockHash}_{(base item.entry).eventIndex}"

/-- The records stand under their own keys. -/
structure MemoryKeys (store : MemoryDataStore) : Prop where
  blocks : Keyed (fun block => block.blockHash) store.blocks
  txs : Keyed (fun tx => tx.txId) store.txs
  txMempool : Keyed (fun tx => tx.txId) store.txMempool
  stxTokenEvents : Keyed (itemKey fun event => event.toDbEventBase) store.stxTokenEvents
  fungibleTokenEvents : Keyed (itemKey fun event => event.toDbEventBase) store.fungibleTokenEvents
  nonFungibleTokenEvents :
    Keyed (itemKey fun event => event.toDbEventBase) store.nonFungibleTokenEvents
  smartContractEvents : Keyed (itemKey fun event => event.toDbEventBase) store.smartContractEvents

namespace MemoryKeys

variable {store : MemoryDataStore}

theorem empty : MemoryKeys MemoryDataStore.empty :=
  ⟨.nil, .nil, .nil, .nil, .nil, .nil, .nil⟩

theorem updateCanonicalStatus (keys : MemoryKeys store) (height : Nat) :
    MemoryKeys (store.updateCanonicalStatus height) where
  blocks := keys.blocks.updateValues fun block => by
    dsimp only [MemoryDataStore.orphanFrom]
    split <;> rfl
  txs := keys.txs.updateValues fun tx => by
    dsimp only [MemoryDataStore.orphanFrom]
    split <;> rfl
  txMempool := keys.txMempool
  stxTokenEvents := keys.stxTokenEvents.updateValues fun item => by
    dsimp only [MemoryDataStore.orphanEntryFrom, MemoryDataStore.orphanFrom]
    split <;> rfl
  fungibleTokenEvents := keys.fungibleTokenEvents.updateValues fun item => by
    dsimp only [MemoryDataStore.orphanEntryFrom, MemoryDataStore.orphanFrom]
    split <;> rfl
  nonFungibleTokenEvents := keys.nonFungibleTokenEvents.updateValues fun item => by
    dsimp only [MemoryDataStore.orphanEntryFrom, MemoryDataStore.orphanFrom]
    split <;> rfl
  smartContractEvents := keys.smartContractEvents.updateValues fun item => by
    dsimp only [MemoryDataStore.orphanEntryFrom, MemoryDataStore.orphanFrom]
    split <;> rfl

theorem updateBlock (keys : MemoryKeys store) (block : DbBlock String) :
    MemoryKeys (store.updateBlock block) := by
  rw [MemoryDataStore.updateBlock]
  split
  · have status := keys.updateCanonicalStatus block.blockHeight
    exact { status with blocks := status.blocks.setEntry block }
  · exact { keys with blocks := keys.blocks.setEntry block }

theorem updateEntry (keys : MemoryKeys store) (entry : TxEntry) :
    MemoryKeys (store.updateEntry entry) := by
  rw [MemoryDataStore.updateEntry]
  have tx : MemoryKeys (store.updateTx entry.tx) := { keys with txs := keys.txs.setEntry entry.tx }
  have stx := List.foldlRecOn entry.stxEvents (MemoryDataStore.updateStxEvent entry.tx) tx
    fun store keys event _ => { keys with
      stxTokenEvents := keys.stxTokenEvents.setEntry ⟨entry.tx.indexBlockHash, event⟩ }
  have ft := List.foldlRecOn entry.ftEvents (MemoryDataStore.updateFtEvent entry.tx) stx
    fun store keys event _ => { keys with
      fungibleTokenEvents := keys.fungibleTokenEvents.setEntry ⟨entry.tx.indexBlockHash, event⟩ }
  have nft := List.foldlRecOn entry.nftEvents (MemoryDataStore.updateNftEvent entry.tx) ft
    fun store keys event _ => { keys with
      nonFungibleTokenEvents :=
        keys.nonFungibleTokenEvents.setEntry ⟨entry.tx.indexBlockHash, event⟩ }
  have logs := List.foldlRecOn entry.contractLogEvents
    (MemoryDataStore.updateSmartContractEvent entry.tx) nft
    fun store keys event _ => { keys with
      smartContractEvents := keys.smartContractEvents.setEntry ⟨entry.tx.indexBlockHash, event⟩ }
  exact List.foldlRecOn entry.smartContracts (MemoryDataStore.updateSmartContract entry.tx) logs
    fun store keys contract _ => { keys with }

theorem performMemoryCall (keys : MemoryKeys store) (call : StoreCall) :
    MemoryKeys (performMemoryCall store call) := by
  cases call with
  | update data =>
      exact List.foldlRecOn data.txs MemoryDataStore.updateEntry (keys.updateBlock data.block)
        fun store keys entry _ => keys.updateEntry entry
  | updateMempoolTx mempoolTx =>
      exact { keys with txMempool := keys.txMempool.setEntry mempoolTx }

end MemoryKeys

theorem runMemory_keys (calls : List StoreCall) : MemoryKeys (runMemory calls) :=
  List.foldlRecOn calls performMemoryCall MemoryKeys.empty fun _ keys call _ =>
    keys.performMemoryCall call

end StacksApi.Datastore
