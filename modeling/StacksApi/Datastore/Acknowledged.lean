import StacksApi.Datastore.AddressUpdates
import StacksApi.Datastore.Lasting

/-!
# What an accepted call leaves for good

After an accepted update its block and its transactions are stored, whether it has stored
them itself or an earlier update of the same block has; after an accepted insertion its
transaction is known.  Every event that a call emits is about what is stored then.
-/

namespace StacksApi.Datastore

open StacksApi.Binary
open StacksApi.Chain
open StacksApi.Relational
open StacksApi.Transition
open CanonicalEntity

/-! ## Updates -/

/-- The block of the update and its transactions are stored. -/
structure Contains (db : Db) (data : DataStoreUpdateData) : Prop where
  block : ∃ block ∈ db.blocks, hexToBuffer data.block.blockHash = .ok block.blockHash
  txs : ∀ entry ∈ data.txs, ∃ tx ∈ db.txs, hexToBuffer entry.tx.txId = .ok tx.txId

/-- The index hash of a block identifies its hash and its transactions. -/
def SameContents (updates : List DataStoreUpdateData) : Prop :=
  ∀ first ∈ updates, ∀ second ∈ updates, ∀ hash,
    hexToBuffer first.block.indexBlockHash = .ok hash →
      hexToBuffer second.block.indexBlockHash = .ok hash →
        first.block.blockHash = second.block.blockHash ∧
          first.txs.map (fun entry => entry.tx.txId) = second.txs.map fun entry => entry.tx.txId

section Contains

variable {db db' : Db} {data other : DataStoreUpdateData}

theorem Contains.mono (holds : Contains db data) (outlasts : Outlasts db db') :
    Contains db' data where
  block := by
    obtain ⟨block, mem, hash⟩ := holds.block
    obtain ⟨block', mem', same⟩ := outlasts.exists_block mem
    have sameHash : block'.blockHash = block.blockHash :=
      congrArg (fun block => block.blockHash) same
    exact ⟨block', mem', sameHash ▸ hash⟩
  txs entry entryMem := by
    obtain ⟨tx, mem, txId⟩ := holds.txs entry entryMem
    obtain ⟨tx', mem', same⟩ := outlasts.exists_txId mem
    exact ⟨tx', mem', same ▸ txId⟩

theorem Contains.congr (holds : Contains db data)
    (sameHash : other.block.blockHash = data.block.blockHash)
    (sameTxs : other.txs.map (fun entry => entry.tx.txId) =
      data.txs.map fun entry => entry.tx.txId) : Contains db other where
  block := sameHash ▸ holds.block
  txs entry mem := by
    have named : entry.tx.txId ∈ data.txs.map fun entry => entry.tx.txId :=
      sameTxs ▸ List.mem_map_of_mem mem
    obtain ⟨original, originalMem, same⟩ := List.mem_map.mp named
    obtain ⟨tx, txMem, txId⟩ := holds.txs original originalMem
    exact ⟨tx, txMem, same ▸ txId⟩

theorem map_txId_settled (data : DataStoreUpdateData) (db : Db) :
    (data.settled db).txs.map (fun entry => entry.tx.txId) =
      data.txs.map fun entry => entry.tx.txId := by
  rw [DataStoreUpdateData.settled]
  split
  · rfl
  · exact List.map_map

/-- An update that stores its block stores its transactions with it. -/
theorem Extended.contains {reorged pruned : Db} {flag flag' : Buffer → Bool} {row : DbBlock Buffer}
    (extended : Extended db reorged pruned db' flag flag' data row)
    (accepted : Accepted db data reorged pruned row db') : Contains db' data := by
  obtain ⟨rows, computed, rfl⟩ := extended.entries
  suffices settled :
      Contains (rows.foldl Db.addEntry { pruned with blocks := pruned.blocks ++ [row] })
        (data.settled db) from
    settled.congr (settled_blockHash data db).symm (map_txId_settled data db).symm
  constructor
  · refine ⟨row, ?_, blockHash_of_blockRow accepted.decoded⟩
    rw [Db.blocks_foldl_addEntry]
    exact List.mem_append_right _ (List.mem_singleton_self row)
  · intro entry mem
    obtain ⟨entryRow, rowMem, rowOk⟩ := exists_of_mapM_ok computed mem
    obtain ⟨tx, txMem, same, -⟩ := exists_inclusion
      { pruned with blocks := pruned.blocks ++ [row] } rowMem
    exact ⟨tx, txMem, same ▸ (txRow_ok (entryRows_ok rowOk).tx).txId⟩

end Contains

/-- Every stored block is that of an update whose contents are stored. -/
theorem runStore_contains {calls : List StoreCall} (consistent : Consistent (updatesOf calls)) :
    ∀ block ∈ (runStore calls).blocks, ∃ data ∈ updatesOf calls,
      hexToBuffer data.block.indexBlockHash = .ok block.indexBlockHash ∧
        Contains (runStore calls) data := by
  suffices all : ∃ flag, ChainInvariant (runStore calls) flag ∧
      LinksFrom (updatesOf calls) (runStore calls).links ∧
        ∀ block ∈ (runStore calls).blocks, ∃ data ∈ updatesOf calls,
          hexToBuffer data.block.indexBlockHash = .ok block.indexBlockHash ∧
            Contains (runStore calls) data by
    obtain ⟨-, -, -, holds⟩ := all
    exact holds
  apply @runStore_induction
    (fun calls db _ => ∀ block ∈ db.blocks, ∃ data ∈ updatesOf calls,
      hexToBuffer data.block.indexBlockHash = .ok block.indexBlockHash ∧ Contains db data)
    (by rintro block ⟨⟩) _ _ calls consistent
  · intro past call db flag pool holds block mem
    obtain ⟨data, dataMem, hash, stored⟩ := holds block mem
    refine ⟨data, ?_, hash, ⟨stored.block, stored.txs⟩⟩
    rw [updatesOf_append]
    exact List.mem_append_left _ dataMem
  · intro past data db reorged pruned row db' flag flag' consistent holds accepted extended
      block mem
    have linked : block.link ∈ db'.links := List.mem_map_of_mem mem
    rw [extended.links] at linked
    rcases List.mem_append.mp linked with old | new
    · obtain ⟨original, originalMem, same⟩ := List.mem_map.mp old
      obtain ⟨earlier, earlierMem, hash, stored⟩ := holds original originalMem
      have sameHash : original.indexBlockHash = block.indexBlockHash :=
        congrArg Link.hash same
      refine ⟨earlier, ?_, sameHash ▸ hash, stored.mono (extended.outlasts accepted)⟩
      rw [updatesOf_append]
      exact List.mem_append_left _ earlierMem
    · have sameHash : block.indexBlockHash = row.indexBlockHash :=
        congrArg Link.hash (List.mem_singleton.mp new)
      have last := mem_updatesOf_last past data
      obtain ⟨hash, -⟩ := accepted.decodedBlock (consistent.canonical data last)
      exact ⟨data, last, sameHash ▸ hash, extended.contains accepted⟩

/-- After an accepted update, its contents are stored. -/
theorem contains_of_accepted {past : List StoreCall} {data : DataStoreUpdateData}
    (consistent : Consistent (updatesOf (past ++ [.update data])))
    (same : SameContents (updatesOf (past ++ [.update data])))
    (accepted : Succeeds (update (runStore past) data)) :
    Contains (runStore (past ++ [.update data])) data := by
  obtain ⟨⟨db', events⟩, ok⟩ := accepted
  have earlier : Consistent (updatesOf past) := by
    apply consistent.of_subset
    rw [updatesOf_append]
    exact List.subset_append_left _ _
  obtain ⟨flag, invariant, linksFrom⟩ := runStore_chainInvariant earlier
  have known := invariant.known (incoming_of_call consistent linksFrom data rfl) ok
  have stored : runStore (past ++ [.update data]) = db' := by
    rw [runStore_append_singleton]
    exact commit_of_ok ok
  rw [← stored] at known
  obtain ⟨b, mem, hash⟩ := known.stored
  obtain ⟨block, blockMem, rfl⟩ := List.mem_map.mp mem
  obtain ⟨original, originalMem, originalHash, holds⟩ := runStore_contains consistent block blockMem
  obtain ⟨sameHash, sameTxs⟩ :=
    same data (mem_updatesOf_last past data) original originalMem _ hash originalHash
  exact holds.congr sameHash sameTxs

/-- After an accepted insertion, its transaction is known. -/
theorem txKnown_of_accepted {db db' : Db} {mempoolTx : DbMempoolTx String}
    {events : List DataStoreEvent} (ok : updateMempoolTx db mempoolTx = .ok (db', events)) :
    ∃ buffer, hexToBuffer mempoolTx.txId = .ok buffer ∧ TxKnown db' buffer := by
  obtain ⟨row, decoded, outcome⟩ := updateMempoolTx_ok ok
  refine ⟨row.txId, (mempoolTxRow_ok decoded).txId, Or.inl ?_⟩
  rcases outcome with ⟨⟨stored, mem, same⟩, rfl, -⟩ | ⟨-, rfl, -⟩
  · exact ⟨stored, mem, same⟩
  · exact ⟨row, List.mem_append_right _ (List.mem_singleton_self row), rfl⟩

/-! ## Events -/

/-- The transaction with the id is stored. -/
def IdKnown (db : Db) (txId : String) : Prop :=
  ∃ buffer, hexToBuffer txId = .ok buffer ∧ TxKnown db buffer

/-- What an event is about is stored. -/
def Reported (db : Db) : DataStoreEvent → Prop
  | .blockUpdate block => ∃ row ∈ db.blocks, hexToBuffer block.blockHash = .ok row.blockHash
  | .txUpdate tx => IdKnown db tx.txId
  | .mempoolTxUpdate tx => IdKnown db tx.txId
  | .addressUpdate info => ∀ tx ∈ info.txs, IdKnown db tx.txId

theorem Contains.idKnown {db : Db} {data : DataStoreUpdateData} (holds : Contains db data)
    {txId : String} (named : txId ∈ data.txs.map fun entry => entry.tx.txId) : IdKnown db txId := by
  obtain ⟨entry, mem, rfl⟩ := List.mem_map.mp named
  obtain ⟨tx, txMem, decoded⟩ := holds.txs entry mem
  exact ⟨tx.txId, decoded, Or.inr ⟨tx, txMem, rfl⟩⟩

/-- The transactions of an address event are those of entries. -/
theorem exists_entry_of_addressUpdate {data : DataStoreUpdateData} {info : AddressTxUpdateInfo}
    (emitted : .addressUpdate info ∈ updateEvents data) {tx : DbTx String} (mem : tx ∈ info.txs) :
    ∃ entry ∈ data.txs, entry.tx = tx := by
  have announced : info.txs ∈ announcedTxs info.address (updateEvents data) :=
    List.mem_filterMap.mpr ⟨_, emitted, if_pos rfl⟩
  rw [announcedTxs_updateEvents, announcement] at announced
  split at announced
  · cases announced
  · rw [List.mem_singleton.mp announced] at mem
    obtain ⟨entry, entryMem, same⟩ := List.mem_map.mp mem
    exact ⟨entry, (List.mem_filter.mp entryMem).1, same⟩

/-- The events of an accepted call are about what is stored after it. -/
theorem reported_of_accepted {past : List StoreCall} {call : StoreCall} {db' : Db}
    {events : List DataStoreEvent} (consistent : Consistent (updatesOf (past ++ [call])))
    (same : SameContents (updatesOf (past ++ [call])))
    (ok : performCall (runStore past) call = .ok (db', events)) :
    ∀ event ∈ events, Reported (runStore (past ++ [call])) event := by
  cases call with
  | update data =>
      have holds := contains_of_accepted consistent same ⟨_, ok⟩
      obtain ⟨rfl, -⟩ := update_ok ok
      have known : ∀ entry ∈ (data.settled (runStore past)).txs,
          IdKnown (runStore (past ++ [.update data])) entry.tx.txId := by
        intro entry mem
        apply holds.idKnown
        rw [← map_txId_settled data (runStore past)]
        exact List.mem_map_of_mem mem
      intro event emitted
      cases event with
      | blockUpdate block =>
          simp only [updateEvents, emitAddressTxUpdates, List.mem_append, List.mem_map,
            List.mem_singleton, DataStoreEvent.blockUpdate.injEq, reduceCtorEq, and_false,
            exists_false, or_false] at emitted
          subst emitted
          rw [Reported, settled_blockHash]
          exact holds.block
      | txUpdate tx =>
          simp only [updateEvents, emitAddressTxUpdates, List.mem_append, List.mem_map,
            List.mem_singleton, DataStoreEvent.txUpdate.injEq, reduceCtorEq, and_false,
            exists_false, or_false, false_or] at emitted
          obtain ⟨entry, mem, rfl⟩ := emitted
          exact known entry mem
      | mempoolTxUpdate tx => simp [updateEvents, emitAddressTxUpdates] at emitted
      | addressUpdate info =>
          intro tx mem
          obtain ⟨entry, entryMem, rfl⟩ := exists_entry_of_addressUpdate emitted mem
          exact known entry entryMem
  | updateMempoolTx mempoolTx =>
      have known := txKnown_of_accepted ok
      have stored : runStore (past ++ [.updateMempoolTx mempoolTx]) = db' := by
        rw [runStore_append_singleton]
        exact commit_of_ok ok
      rw [← stored] at known
      intro event emitted
      obtain ⟨row, -, ⟨-, -, rfl⟩ | ⟨-, -, rfl⟩⟩ := updateMempoolTx_ok ok
      · cases emitted
      · rw [List.mem_singleton.mp emitted]
        exact known

theorem IdKnown.mono {db db' : Db} {txId : String} (known : IdKnown db txId)
    (outlasts : Outlasts db db') : IdKnown db' txId := by
  obtain ⟨buffer, decoded, known⟩ := known
  exact ⟨buffer, decoded, outlasts.txKnown known⟩

end StacksApi.Datastore
