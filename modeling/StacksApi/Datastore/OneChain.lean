import StacksApi.Datastore.BalanceRead
import StacksApi.Datastore.ToldApart
import StacksApi.Datastore.Pruned

/-!
# Runs on one chain

The store in memory and the tables agree as long as no second block is delivered at a
height and no block brings a transaction that was sent to the mempool before.  The first
call that does so ends the agreement: a block that forks is canonical in memory only, and
a pending transaction that is mined leaves the mempool of the tables only.
-/

namespace StacksApi.Datastore

open StacksApi.Binary
open StacksApi.Chain
open StacksApi.Collections
open StacksApi.Relational
open StacksApi.Transition
open CanonicalEntity

/-- The update brings no second block to its height, and none of its transactions but a
coinbase is pending when it comes first. -/
structure Undisputed (past : List StoreCall) (data : DataStoreUpdateData) : Prop where
  height : ∀ earlier ∈ updatesOf past,
    earlier.block.blockHeight = data.block.blockHeight → earlier = data
  notPending : data ∉ updatesOf past → ∀ entry ∈ data.txs, entry.tx.typeId ≠ .coinbase →
    ∀ pending ∈ pendingOf past, pending.txId ≠ entry.tx.txId

/-- No update of the run is disputed when it comes. -/
def OneChain (calls : List StoreCall) : Prop :=
  ∀ past data, past ++ [.update data] <+: calls → Undisputed past data

namespace OneChain

variable {first second past calls : List StoreCall}

theorem nil : OneChain [] := by
  intro past data isPrefix
  simp at isPrefix

theorem of_prefix (chain : OneChain second) (isPrefix : first <+: second) : OneChain first :=
  fun past data earlier => chain past data (earlier.trans isPrefix)

theorem append_iff {call : StoreCall} :
    OneChain (past ++ [call]) ↔
      OneChain past ∧ ∀ data, call = .update data → Undisputed past data := by
  constructor
  · intro chain
    refine ⟨chain.of_prefix (List.prefix_append past [call]), ?_⟩
    rintro data rfl
    exact chain past data (List.prefix_refl _)
  · rintro ⟨chain, last⟩ earlier data isPrefix
    rcases List.prefix_concat_iff.mp isPrefix with same | within
    · obtain ⟨rfl, rfl⟩ := List.append_inj' same rfl |>.imp_right List.singleton_inj.mp
      exact last data rfl
    · exact chain earlier data within

/-- There is one block at each height. -/
theorem eq_of_height (chain : OneChain calls) {a b : DataStoreUpdateData}
    (aMem : a ∈ updatesOf calls) (bMem : b ∈ updatesOf calls)
    (same : a.block.blockHeight = b.block.blockHeight) : a = b := by
  induction calls using List.reverseRecOn with
  | nil => cases aMem
  | append_singleton past call ih =>
      obtain ⟨earlier, last⟩ := append_iff.mp chain
      cases call with
      | updateMempoolTx mempoolTx =>
          have none : updatesOf [.updateMempoolTx mempoolTx] = [] := rfl
          rw [updatesOf_append, none, List.append_nil] at aMem bMem
          exact ih earlier aMem bMem
      | update data =>
          have delivered : updatesOf [.update data] = [data] := rfl
          have undisputed := last data rfl
          rw [updatesOf_append, delivered, List.mem_append, List.mem_singleton] at aMem bMem
          rcases aMem with aOld | rfl <;> rcases bMem with bOld | rfl
          · exact ih earlier aOld bOld
          · exact undisputed.height a aOld same
          · exact (undisputed.height b bOld same.symm).symm
          · rfl

/-- A run stays on one chain when no height is delivered twice and no id is both pending and
mined. -/
theorem of_apart (heights : ∀ first ∈ updatesOf calls, ∀ second ∈ updatesOf calls,
      first.block.blockHeight = second.block.blockHeight → first = second)
    (free : ∀ pending ∈ pendingOf calls, ∀ tx ∈ deliveredTxs calls, pending.txId ≠ tx.txId) :
    OneChain calls := by
  rintro past data ⟨rest, rfl⟩
  have mem : data ∈ updatesOf (past ++ [.update data] ++ rest) := by
    rw [updatesOf_append]
    exact List.mem_append_left _ (mem_updatesOf_last past data)
  constructor
  · intro earlier earlierMem level
    refine heights earlier ?_ data mem level
    rw [List.append_assoc, updatesOf_append]
    exact List.mem_append_left _ earlierMem
  · intro _ entry entryMem _ pending pendingMem
    refine free pending ?_ entry.tx (mem_deliveredTxs.mpr ⟨data, mem, entry, entryMem, rfl⟩)
    rw [List.append_assoc, pendingOf_append]
    exact List.mem_append_left _ pendingMem

end OneChain

/-! ## Canonical flags -/

section Flags

variable {calls : List StoreCall}

/-- On one chain all stored blocks are canonical. -/
theorem OneChain.canonical_blocks (chain : OneChain calls) (toldApart : ToldApart calls)
    {row : DbBlock Buffer} (mem : row ∈ (runStore calls).blocks) : row.canonical = true := by
  obtain ⟨flag, invariant, -⟩ := runStore_invariant toldApart.regular
  have stores := runStore_stores toldApart
  have grounded := invariant.chain.grounded
  have linkMem : row.link ∈ (runStore calls).links := List.mem_map_of_mem mem
  obtain ⟨b, ⟨bMem, flagged, level⟩, -⟩ := invariant.chain.canonical.existsUnique_at grounded
    (grounded.heightPos row.link linkMem) (height_le_maxHeight linkMem)
  obtain ⟨data, dataMem, dataRow, decoded, rfl⟩ := stores.mem_links.mp bMem
  obtain ⟨other, otherMem, otherRow, otherDecoded, same⟩ := stores.mem_links.mp linkMem
  have sameHeight : data.block.blockHeight = other.block.blockHeight := by
    rw [← (blockRow_ok decoded).blockHeight, ← (blockRow_ok otherDecoded).blockHeight]
    exact level.trans (congrArg Link.height same).symm
  obtain rfl := chain.eq_of_height dataMem otherMem sameHeight
  rw [decoded] at otherDecoded
  cases otherDecoded
  rw [same] at flagged
  exact (invariant.chain.canonical_iff mem).mpr flagged

/-- The rows of the transactions follow their blocks. -/
theorem OneChain.canonical_txs (chain : OneChain calls) (toldApart : ToldApart calls)
    {row : DbTx Buffer} (mem : row ∈ (runStore calls).txs) : row.canonical = true := by
  obtain ⟨block, blockMem, -, flag⟩ := (runStore_standing toldApart.wired).owned .txs row mem
  have own : row.canonical = block.canonical := flag.symm
  rw [own]
  exact chain.canonical_blocks toldApart blockMem

/-- No block in memory stands at the height of an undisputed block under another hash. -/
theorem Undisputed.reorgDetected_eq_false {past : List StoreCall} {data : DataStoreUpdateData}
    (undisputed : Undisputed past data) (toldApart : ToldApart past) :
    (runMemory past).reorgDetected data.block = false := by
  rw [MemoryDataStore.reorgDetected, List.any_eq_false]
  intro stored mem conflict
  simp only [Bool.and_eq_true, decide_eq_true_eq] at conflict
  obtain ⟨⟨sameHeight, otherHash⟩, -⟩ := conflict
  have raisedMem : withCanonical true stored ∈
      mapValues (updateValues (withCanonical true) (runMemory past).blocks) := by
    rw [mapValues_updateValues]
    exact List.mem_map_of_mem mem
  obtain ⟨earlier, earlierMem, same⟩ := (toldApart.mem_mapValues_blocks_iff _).mp raisedMem
  have height := congrArg DbBlock.blockHeight same
  change earlier.block.blockHeight = stored.blockHeight at height
  have hash := congrArg DbBlock.blockHash same
  change earlier.block.blockHash = stored.blockHash at hash
  obtain rfl := undisputed.height earlier earlierMem (height.trans sameHeight)
  exact otherHash hash.symm

/-- The maps of blocks and transactions hold canonical records only. -/
structure CanonicalMaps (store : MemoryDataStore) : Prop where
  blocks : ∀ block ∈ mapValues store.blocks, block.canonical = true
  txs : ∀ tx ∈ mapValues store.txs, tx.canonical = true

theorem CanonicalMaps.update {store : MemoryDataStore} (maps : CanonicalMaps store)
    {data : DataStoreUpdateData} (wired : data.Wired)
    (free : store.reorgDetected data.block = false) : CanonicalMaps (store.update data).1 := by
  have updated : store.updateBlock data.block =
      { store with blocks := setEntry data.block.blockHash data.block store.blocks } := by
    rw [MemoryDataStore.updateBlock, free]
    rfl
  constructor
  · intro block mem
    rw [MemoryDataStore.blocks_update, updated] at mem
    rcases mem_mapValues_setEntry mem with rfl | old
    · exact wired.canonical
    · exact maps.blocks block old
  · rw [MemoryDataStore.txs_update, updated]
    refine List.foldlRecOn (motive := fun txs : List (String × DbTx String) =>
      ∀ tx ∈ mapValues txs, tx.canonical = true) _ _ maps.txs ?_
    intro txs kept added addedMem tx mem
    obtain ⟨entry, entryMem, rfl⟩ := List.mem_map.mp addedMem
    rcases mem_mapValues_setEntry mem with rfl | old
    · exact (wired.carries entry entryMem).tx
    · exact kept tx old

/-- On one chain all records in memory are canonical. -/
theorem OneChain.canonicalMaps (chain : OneChain calls) (toldApart : ToldApart calls) :
    CanonicalMaps (runMemory calls) := by
  induction calls using List.reverseRecOn with
  | nil => exact ⟨by rintro block ⟨⟩, by rintro tx ⟨⟩⟩
  | append_singleton past call ih =>
      obtain ⟨earlier, last⟩ := append_iff.mp chain
      have pastToldApart := toldApart.of_prefix (List.prefix_append past [call])
      have maps := ih earlier pastToldApart
      rw [runMemory_append_singleton]
      cases call with
      | updateMempoolTx mempoolTx => exact ⟨maps.blocks, maps.txs⟩
      | update data =>
          have mem := mem_updatesOf_last past data
          exact maps.update (toldApart.wired data mem)
            ((last data rfl).reorgDetected_eq_false pastToldApart)

end Flags

/-! ## The mempool -/

/-- The rows of the mempool are the given transactions. -/
structure Pending (db : Db) (pending : List (DbMempoolTx String)) : Prop where
  distinct : (db.mempoolTxs.map fun row => row.txId).Nodup
  parses : ∀ row ∈ db.mempoolTxs, ∃ tx ∈ pending, parseMempoolTxQueryResult row = .ok tx
  stored : ∀ tx ∈ pending, ∃ row ∈ db.mempoolTxs, parseMempoolTxQueryResult row = .ok tx

section Mempool

variable {calls : List StoreCall}

theorem Pending.updateMempoolTx {db : Db} {pending : List (DbMempoolTx String)}
    (holds : Pending db pending) {tx : DbMempoolTx String} (lossless : tx.Lossless)
    (told : ∀ other ∈ pending, other.txId = tx.txId → other = tx) :
    Pending (commit performCall db (.updateMempoolTx tx)) (pending ++ [tx]) := by
  obtain ⟨row, decoded, parsed⟩ := lossless
  have accepted : Succeeds (Datastore.updateMempoolTx db tx) :=
    succeeds_updateMempoolTx.mpr ⟨row, decoded⟩
  obtain ⟨⟨db', events⟩, ok⟩ := accepted
  have committed : commit performCall db (.updateMempoolTx tx) = db' := commit_of_ok ok
  obtain ⟨inserted, insertedOk, outcome⟩ := updateMempoolTx_ok ok
  rw [decoded] at insertedOk
  cases insertedOk
  rw [committed]
  rcases outcome with ⟨⟨stored, storedMem, sameId⟩, rfl, -⟩ | ⟨fresh, rfl, -⟩
  · -- the id is pending, so that its transaction is the given one
    obtain ⟨other, otherMem, otherOk⟩ := holds.parses stored storedMem
    have otherId := txId_of_parsedMempool otherOk
    rw [sameId, ← txId_of_parsedMempool parsed] at otherId
    obtain rfl := told other otherMem otherId
    refine ⟨holds.distinct, fun row mem => ?_, fun tx mem => ?_⟩
    · obtain ⟨tx, txMem, ok⟩ := holds.parses row mem
      exact ⟨tx, List.mem_append_left _ txMem, ok⟩
    · rcases List.mem_append.mp mem with old | new
      · exact holds.stored tx old
      · rw [List.mem_singleton.mp new]
        exact ⟨stored, storedMem, otherOk⟩
  · refine ⟨?_, fun row mem => ?_, fun tx mem => ?_⟩
    · rw [List.map_append, List.map_singleton, ← List.concat_eq_append]
      refine List.Nodup.concat (fun mem => ?_) holds.distinct
      obtain ⟨stored, storedMem, sameId⟩ := List.mem_map.mp mem
      exact fresh stored storedMem sameId
    · rcases List.mem_append.mp mem with old | new
      · obtain ⟨tx, txMem, ok⟩ := holds.parses row old
        exact ⟨tx, List.mem_append_left _ txMem, ok⟩
      · rw [List.mem_singleton.mp new]
        exact ⟨_, List.mem_append_right _ (List.mem_singleton_self _), parsed⟩
    · rcases List.mem_append.mp mem with old | new
      · obtain ⟨row, rowMem, ok⟩ := holds.stored tx old
        exact ⟨row, List.mem_append_left _ rowMem, ok⟩
      · rw [List.mem_singleton.mp new]
        exact ⟨_, List.mem_append_right _ (List.mem_singleton_self _), parsed⟩

/-- Where all blocks are canonical nothing is reorganised. -/
theorem handleReorg_of_canonical {db db' : Db} {block : DbBlock String} {chainTipHeight : Nat}
    {updated : UpdatedEntities} (canonical : ∀ row ∈ db.blocks, row.canonical = true)
    (handled : handleReorg db block chainTipHeight = .ok (db', updated)) : db' = db := by
  rw [handleReorg] at handled
  split at handled
  · obtain ⟨parentHash, -, handled⟩ := Except.bind_eq_ok.mp handled
    split at handled
    · cases handled
    · cases handled
    · next parent found =>
        have mem : parent ∈ parentRows db block.blockHeight parentHash :=
          found ▸ List.mem_singleton_self parent
        have flag := canonical parent (List.mem_filter.mp mem).1
        rw [flag] at handled
        simp only [Bool.not_true, Bool.false_eq_true, false_and, if_false] at handled
        cases handled
        rfl
  · cases handled
    rfl

/-- No pending row has the id of a transaction that is pruned. -/
theorem Pending.update {db pruned db' : Db} {pending : List (DbMempoolTx String)}
    {data : DataStoreUpdateData} {row : DbBlock Buffer} (holds : Pending db pending)
    (accepted : Accepted db data db pruned row db') (lossless : data.Lossless)
    (high : Heightens db data) (free : ∀ entry ∈ data.txs, entry.tx.typeId ≠ .coinbase →
      ∀ tx ∈ pending, tx.txId ≠ entry.tx.txId) : Pending db' pending := by
  obtain ⟨buffers, decoded, rfl⟩ := accepted.prune high
  have kept : db'.mempoolTxs = db.mempoolTxs := by
    rw [accepted.mempoolTxs, Db.withoutMempoolTxs]
    refine List.filter_eq_self.mpr fun row mem => ?_
    rw [Bool.not_eq_true', decide_eq_false_iff_not]
    intro removed
    obtain ⟨txId, candidate, txIdOk⟩ := mem_of_mapM_ok decoded removed
    obtain ⟨entry, inBlock, rfl⟩ := List.mem_map.mp candidate
    obtain ⟨entryMem, notCoinbase⟩ := List.mem_filter.mp inBlock
    obtain ⟨tx, txMem, parsed⟩ := holds.parses row mem
    apply free entry entryMem (of_decide_eq_true notCoinbase) tx txMem
    rw [txId_of_parsedMempool parsed, lossless.txId_eq entryMem txIdOk]
  exact ⟨kept ▸ holds.distinct, kept ▸ holds.parses, kept ▸ holds.stored⟩

/-- A block that is delivered first at its height becomes the tip. -/
theorem heightens_of_first {past : List StoreCall} {data : DataStoreUpdateData}
    (first : ∀ earlier ∈ updatesOf past,
      earlier.block.blockHeight = data.block.blockHeight → earlier = data)
    (toldApart : ToldApart past) (heightPos : 1 ≤ data.block.blockHeight)
    (isNew : data ∉ updatesOf past) : Heightens (runStore past) data := by
  obtain ⟨flag, invariant, -⟩ := runStore_invariant toldApart.regular
  rw [invariant.chain.heightens_iff]
  by_contra low
  obtain ⟨b, ⟨bMem, -, level⟩, -⟩ := invariant.chain.canonical.existsUnique_at
    invariant.chain.grounded heightPos (Nat.not_lt.mp low)
  obtain ⟨earlier, mem, row, decoded, rfl⟩ := (runStore_stores toldApart).mem_links.mp bMem
  have height : earlier.block.blockHeight = data.block.blockHeight :=
    (blockRow_ok decoded).blockHeight.symm.trans level
  exact isNew (first earlier mem height ▸ mem)

/-- On one chain the mempool holds all that was inserted. -/
theorem OneChain.pending (chain : OneChain calls) (toldApart : ToldApart calls) :
    Pending (runStore calls) (pendingOf calls) := by
  induction calls using List.reverseRecOn with
  | nil => exact ⟨List.nodup_nil, by rintro row ⟨⟩, by rintro tx ⟨⟩⟩
  | append_singleton past call ih =>
      obtain ⟨earlier, last⟩ := append_iff.mp chain
      have pastToldApart := toldApart.of_prefix (List.prefix_append past [call])
      have holds := ih earlier pastToldApart
      rw [runStore_append_singleton, pendingOf_append]
      cases call with
      | updateMempoolTx tx =>
          have delivered : pendingOf (past ++ [.updateMempoolTx tx]) = pendingOf past ++ [tx] :=
            pendingOf_append _ _
          have mem : tx ∈ pendingOf (past ++ [.updateMempoolTx tx]) := by
            rw [delivered]
            exact List.mem_append_right _ (List.mem_singleton_self tx)
          apply holds.updateMempoolTx (toldApart.pending tx mem)
          intro other otherMem sameId
          refine toldApart.pendingOfId other ?_ tx mem sameId
          rw [delivered]
          exact List.mem_append_left _ otherMem
      | update data =>
          have none : pendingOf [.update data] = [] := rfl
          rw [none, List.append_nil]
          obtain ⟨flag, invariant, linksFrom⟩ := runStore_invariant pastToldApart.regular
          have stores := runStore_stores pastToldApart
          have mem := mem_updatesOf_last past data
          have lossless := toldApart.updates data mem
          rcases toldApart.commit_update invariant linksFrom stores with
            ⟨-, same⟩ | ⟨reorged, pruned, row, flag', accepted, extended⟩
          · rw [same]
            exact holds
          · have isNew := extended.not_delivered accepted lossless stores
            obtain ⟨counts, handled⟩ := accepted.reorg
            obtain rfl := handleReorg_of_canonical
              (fun row mem => earlier.canonical_blocks pastToldApart mem) handled
            have undisputed := last data rfl
            exact holds.update accepted lossless
              (heightens_of_first undisputed.height pastToldApart (toldApart.heightPos data mem)
                isNew)
              (undisputed.notPending isNew)

end Mempool

/-! ## Agreement -/

section Agreement

variable {calls : List StoreCall}

/-- On one chain no two transactions have the same place in the listing. -/
theorem OneChain.nodup_positions (chain : OneChain calls) (toldApart : ToldApart calls) :
    ((runStore calls).txs.map txOrder).Nodup := by
  have inclusions := runStore_inclusionsUnique calls
  refine List.Nodup.map_on ?_ (List.Nodup.of_map _ inclusions)
  intro first firstMem second secondMem samePlace
  obtain ⟨tx, txMem, ok⟩ := toldApart.parses_txs firstMem
  obtain ⟨other, otherMem, otherOk⟩ := toldApart.parses_txs secondMem
  have place : toLex (tx.blockHeight, tx.txIndex) = toLex (other.blockHeight, other.txIndex) := by
    rw [place_of_parseRaised ok, place_of_parseRaised otherOk, samePlace]
  obtain ⟨sameHeight, samePosition⟩ := Prod.mk.inj (toLex_inj.mp place)
  obtain ⟨a, aMem, entry, entryMem, rfl⟩ := mem_deliveredTxs.mp txMem
  obtain ⟨b, bMem, otherEntry, otherEntryMem, rfl⟩ := mem_deliveredTxs.mp otherMem
  have aLossless := toldApart.updates a aMem
  have bLossless := toldApart.updates b bMem
  obtain rfl : a = b := by
    apply chain.eq_of_height aMem bMem
    rw [← aLossless.blockHeight entry entryMem, sameHeight,
      bLossless.blockHeight otherEntry otherEntryMem]
  have sameHash : entry.tx.indexBlockHash = otherEntry.tx.indexBlockHash := by
    rw [(aLossless.carries entry entryMem).indexBlockHash,
      (aLossless.carries otherEntry otherEntryMem).indexBlockHash]
  rw [← toldApart.txOfPosition _ txMem _ otherMem sameHash samePosition] at otherOk
  exact List.inj_on_of_nodup_map inclusions firstMem secondMem
    (inclusion_eq_of_parseRaised ok otherOk)

/-- On one chain the maps mirror the tables. -/
theorem OneChain.mirrored (chain : OneChain calls) (toldApart : ToldApart calls) :
    Mirrored (runStore calls) (runMemory calls) := by
  have raisedSame := runStore_mirroredRaised toldApart
  have maps := chain.canonicalMaps toldApart
  have forked := (runStore_standing toldApart.wired).forked
  have pending := chain.pending toldApart
  have keys := runMemory_keys calls
  exact
    { blocks := by
        refine raisedSame.blocks.of_raised ?_ maps.blocks
        rintro row mem record ⟨⟩
        exact chain.canonical_blocks toldApart mem
      txs := by
        refine raisedSame.txs.of_raised ?_ maps.txs
        intro row mem record ok
        exact (parsedTx_of_ok ok).canonical.trans (chain.canonical_txs toldApart mem)
      mempoolTxs := by
        refine Mirrors.of_mem_iff pending.distinct
          (List.Nodup.of_map _ keys.txMempool.nodup_map_keyOf) ?_ ?_ fun tx => ?_
        · intro first second tx firstOk secondOk
          apply bufferToHexPrefixString_injective
          rw [← txId_of_parsedMempool firstOk, txId_of_parsedMempool secondOk]
        · intro row mem
          obtain ⟨tx, -, ok⟩ := pending.parses row mem
          exact ⟨tx, ok⟩
        · rw [runMemory_txMempool, mem_setAll_iff toldApart.pendingOfId]
          constructor
          · rintro ⟨row, mem, ok⟩
            obtain ⟨tx, txMem, parsed⟩ := pending.parses row mem
            rw [ok] at parsed
            rw [Except.ok.inj parsed]
            exact txMem
          · exact pending.stored tx
      keys
      heights := by
        refine List.Nodup.map_on ?_ (List.Nodup.of_map _ forked.keys)
        intro first firstMem second secondMem sameHeight
        exact forked.single first firstMem second secondMem
          (chain.canonical_blocks toldApart firstMem)
          (chain.canonical_blocks toldApart secondMem) sameHeight
      positions := chain.nodup_positions toldApart }

/-- On one chain both stores give the same answers. -/
theorem OneChain.storesAgree (chain : OneChain calls) (toldApart : ToldApart calls)
    {scanned : Db} (scan : Scan (runStore calls) scanned) :
    StoresAgree scanned (runMemory calls) :=
  ((chain.mirrored toldApart).scan scan).storesAgree

end Agreement

/-! ## Disagreement -/

section Disagreement

variable {past calls : List StoreCall} {data : DataStoreUpdateData}

/-- A block that is found is parsed from one of the rows. -/
theorem exists_of_getBlock {db : Db} {buffer : Buffer} {block : DbBlock String}
    (found : getBlock db (bufferToHexPrefixString buffer) = .ok (some block)) :
    ∃ row ∈ db.blocks, parseBlockQueryResult row = block := by
  rw [getBlock, hexToBuffer_bufferToHexPrefixString] at found
  obtain ⟨row, head, parsed⟩ := Option.map_eq_some_iff.mp (Except.ok.inj found)
  have mem := (orderByDesc_perm _ _).mem_iff.mp (List.mem_of_mem_head? head)
  exact ⟨row, (List.mem_filter.mp mem).1, parsed⟩

/-- What was delivered last is found in memory as it was delivered. -/
theorem getBlock_runMemory (calls : List StoreCall) (data : DataStoreUpdateData) :
    (runMemory (calls ++ [.update data])).getBlock data.block.blockHash = some data.block := by
  have stored : data.block ∈ mapValues (runMemory (calls ++ [.update data])).blocks := by
    rw [runMemory_append_singleton, performMemoryCall, MemoryDataStore.blocks_update]
    exact mem_mapValues_setEntry_self
  exact (runMemory_keys _).blocks.lookup_eq_some_iff.mpr ⟨stored, rfl⟩

/-- A second block at a height is canonical in memory and not in the tables. -/
theorem OneChain.not_agree_of_fork (chain : OneChain past)
    (toldApart : ToldApart (past ++ [.update data])) {earlier : DataStoreUpdateData}
    (mem : earlier ∈ updatesOf past)
    (level : earlier.block.blockHeight = data.block.blockHeight) (other : earlier ≠ data) :
    ¬StoresAgree (runStore (past ++ [.update data])) (runMemory (past ++ [.update data])) := by
  intro agree
  have pastToldApart := toldApart.of_prefix (List.prefix_append past [.update data])
  obtain ⟨flag, invariant, linksFrom⟩ := runStore_invariant pastToldApart.regular
  have stores := runStore_stores pastToldApart
  have last := mem_updatesOf_last past data
  have lossless := toldApart.updates data last
  rw [runStore_append_singleton] at agree
  rcases toldApart.commit_update invariant linksFrom stores with
    ⟨delivered, -⟩ | ⟨reorged, pruned, row, flag', accepted, extended⟩
  · exact other (chain.eq_of_height mem delivered level)
  · obtain ⟨hash, -, -, canonical⟩ := accepted.decodedBlock lossless.canonical
    have low : ¬Heightens (runStore past) data := by
      obtain ⟨original, decoded, -⟩ := (pastToldApart.updates earlier mem).block
      have link := stores.mem_links.mpr ⟨earlier, mem, original, decoded, rfl⟩
      have height : original.link.height = data.block.blockHeight :=
        (blockRow_ok decoded).blockHeight.trans level
      rw [invariant.chain.heightens_iff, ← height]
      exact Nat.not_lt.mpr (height_le_maxHeight link)
    obtain ⟨original, decoded, parsed⟩ := lossless.block
    have text : bufferToHexPrefixString original.blockHash = data.block.blockHash :=
      congrArg DbBlock.blockHash parsed
    have inMemory := getBlock_runMemory past data
    have found := agree.getBlock original.blockHash
    rw [← text] at inMemory
    rw [inMemory] at found
    obtain ⟨stored, storedMem, storedParsed⟩ := exists_of_getBlock found
    have rowMem : row ∈ (commit performCall (runStore past) (.update data)).blocks := by
      obtain ⟨rows, -, same⟩ := extended.entries
      rw [same, Db.blocks_foldl_addEntry]
      exact List.mem_append_right _ (List.mem_singleton_self row)
    have sameHash : stored.indexBlockHash = row.indexBlockHash := by
      apply bufferToHexPrefixString_injective
      rw [← lossless.indexBlockHash_eq hash]
      exact congrArg DbBlock.indexBlockHash storedParsed
    obtain rfl := eq_of_indexBlockHash extended.invariant.grounded storedMem rowMem sameHash
    have flag : stored.canonical = data.block.canonical := congrArg DbBlock.canonical storedParsed
    rw [canonical, lossless.canonical, decide_eq_true_eq] at flag
    exact low flag

/-- A pending transaction of a new block stays in memory and leaves the tables. -/
theorem not_agree_of_mined
    (toldApart : ToldApart (past ++ [.update data])) (first : ∀ earlier ∈ updatesOf past,
      earlier.block.blockHeight = data.block.blockHeight → earlier = data)
    (isNew : data ∉ updatesOf past) {entry : TxEntry} (entryMem : entry ∈ data.txs)
    (notCoinbase : entry.tx.typeId ≠ .coinbase) {pending : DbMempoolTx String}
    (mem : pending ∈ pendingOf past) (same : pending.txId = entry.tx.txId) :
    ¬StoresAgree (runStore (past ++ [.update data])) (runMemory (past ++ [.update data])) := by
  intro agree
  have pastToldApart := toldApart.of_prefix (List.prefix_append past [.update data])
  obtain ⟨flag, invariant, linksFrom⟩ := runStore_invariant pastToldApart.regular
  have stores := runStore_stores pastToldApart
  have last := mem_updatesOf_last past data
  have lossless := toldApart.updates data last
  rcases toldApart.commit_update invariant linksFrom stores with
    ⟨delivered, -⟩ | ⟨reorged, pruned, row, flag', accepted, extended⟩
  · exact isNew delivered
  · have high := heightens_of_first first pastToldApart (toldApart.heightPos data last) isNew
    obtain ⟨rows, rowsOk, -⟩ := lossless.entries entry entryMem
    have decoded := (txRow_ok (entryRows_ok rowsOk).tx).txId
    have removed : (runStore (past ++ [.update data])).mempoolTxs.filter
        (fun stored => stored.txId = rows.tx.txId) =
          (none : Option (DbMempoolTx Buffer)).toList := by
      rw [runStore_append_singleton]
      refine List.filter_eq_nil_iff.mpr fun stored storedMem sameId => ?_
      exact accepted.not_pending high entryMem notCoinbase decoded stored storedMem
        (of_decide_eq_true sameId)
    have kept : (runMemory (past ++ [.update data])).getMempoolTx pending.txId = some pending := by
      refine (runMemory_keys _).txMempool.lookup_eq_some_iff.mpr ⟨?_, rfl⟩
      rw [runMemory_txMempool, mem_setAll_iff toldApart.pendingOfId, pendingOf_append]
      exact List.mem_append_left _ mem
    have found := agree.getMempoolTx rows.tx.txId
    rw [getMempoolTx_of_filter removed, ← lossless.txId_eq entryMem decoded, ← same, kept] at found
    cases found

end Disagreement

/-- In every run in which hashes and ids tell records apart, both stores find the same
blocks and transactions, but for the flags.  They give the same answers throughout exactly
when the run stays on one chain and mines nothing that is pending. -/
theorem runMemory_agrees {calls : List StoreCall} (toldApart : ToldApart calls) :
    (∀ past, past <+: calls → ∀ scanned, Scan (runStore past) scanned →
      RecordsAgree scanned (runMemory past)) ∧
    ((∀ past, past <+: calls → ∀ scanned, Scan (runStore past) scanned →
      StoresAgree scanned (runMemory past)) ↔ OneChain calls) := by
  refine ⟨fun past isPrefix scanned scan => ?_, ?_, ?_⟩
  · exact ((runStore_mirroredRaised (toldApart.of_prefix isPrefix)).scan scan).recordsAgree
  · intro agree
    induction calls using List.reverseRecOn with
    | nil => exact OneChain.nil
    | append_singleton past call ih =>
        have chain := ih (toldApart.of_prefix (List.prefix_append past [call]))
          fun earlier isPrefix => agree earlier (isPrefix.trans (List.prefix_append past [call]))
        refine OneChain.append_iff.mpr ⟨chain, ?_⟩
        rintro data rfl
        have last := agree _ (List.prefix_refl _) _ (Scan.refl _)
        have first : ∀ earlier ∈ updatesOf past,
            earlier.block.blockHeight = data.block.blockHeight → earlier = data := by
          intro earlier mem level
          by_contra other
          exact chain.not_agree_of_fork toldApart mem level other last
        refine ⟨first, fun isNew entry entryMem notCoinbase pending mem same => ?_⟩
        exact not_agree_of_mined toldApart first isNew entryMem notCoinbase mem same last
  · intro chain past isPrefix scanned scan
    exact (chain.of_prefix isPrefix).storesAgree (toldApart.of_prefix isPrefix) scan

/-! ## Samples -/

theorem lossless_of_checked {data : DataStoreUpdateData} (wired : data.Wired)
    (blockHeight : ∀ entry ∈ data.txs, entry.tx.blockHeight = data.block.blockHeight)
    (block : (blockRow data.block).toOption.map parseBlockQueryResult = some data.block)
    (entries : ∀ entry ∈ data.txs, (entryRows entry).toOption.map
      (fun rows => (parseTxQueryResult rows.tx).toOption) = some (some entry.tx)) :
    data.Lossless where
  toWired := wired
  blockHeight := blockHeight
  block := by
    cases decoded : blockRow data.block with
    | error error =>
        rw [decoded] at block
        cases block
    | ok row =>
        rw [decoded] at block
        exact ⟨row, rfl, Option.some.inj block⟩
  entries entry mem := by
    have checked := entries entry mem
    cases computed : entryRows entry with
    | error error =>
        rw [computed] at checked
        cases checked
    | ok rows =>
        rw [computed] at checked
        have parsed : (parseTxQueryResult rows.tx).toOption = some entry.tx :=
          Option.some.inj checked
        refine ⟨rows, rfl, ?_⟩
        cases result : parseTxQueryResult rows.tx with
        | error error =>
            rw [result] at parsed
            cases parsed
        | ok tx =>
            rw [result] at parsed
            rw [Option.some.inj parsed]

/-- A transfer that waits to be mined. -/
def pendingTransfer : DbMempoolTx String where
  toDbTxBase := { (transferEntry "0x11" 1).tx.toDbTxBase with status := .pending }
  receiptTime := 1594647997

/-- Two blocks of a chain, a pending transaction, and the first block once more. -/
def chainedCalls : List StoreCall :=
  [.update (coinbaseBlock "0x11" "0x00" 1), .updateMempoolTx (pendingCoinbase "0x0c"),
    .update { emptyBlock "0x21" "0x11" 2 with txs := [transferEntry "0x21" 2] },
    .update (coinbaseBlock "0x11" "0x00" 1)]

theorem chainedCalls_toldApart : ToldApart chainedCalls where
  heightPos := by decide
  parentsFirst := by
    have isParent : (coinbaseBlock "0x11" "0x00" 1).IsParent
        { emptyBlock "0x21" "0x11" 2 with txs := [transferEntry "0x21" 2] } :=
      isParent_of_checked (by decide) (by decide) (by decide)
    exact ((ParentsFirst.nil.root (Nat.le_refl 1)).child (by decide) isParent).root (Nat.le_refl 1)
  updates := by
    have coinbase : (coinbaseBlock "0x11" "0x00" 1).Lossless := by
      refine lossless_of_checked ⟨rfl, fun entry mem => ?_⟩ (by decide) (by decide) (by decide)
      rw [List.mem_singleton.mp mem]
      exact coinbaseEntry_carries _ _
    have transfer : DataStoreUpdateData.Lossless
        { emptyBlock "0x21" "0x11" 2 with txs := [transferEntry "0x21" 2] } := by
      refine lossless_of_checked ⟨rfl, fun entry mem => ?_⟩ (by decide) (by decide) (by decide)
      rw [List.mem_singleton.mp mem]
      exact transferEntry_carries _ _
    intro data mem
    have cases : data = coinbaseBlock "0x11" "0x00" 1 ∨
        data = { emptyBlock "0x21" "0x11" 2 with txs := [transferEntry "0x21" 2] } ∨
        data = coinbaseBlock "0x11" "0x00" 1 := by
      simpa [chainedCalls, updatesOf] using mem
    rcases cases with rfl | rfl | rfl
    · exact coinbase
    · exact transfer
    · exact coinbase
  pending := by
    intro tx mem
    rw [List.mem_singleton.mp mem]
    exact ⟨_, rfl, rfl⟩
  blockOfHash := by decide
  txOfId := by decide
  txOfPosition := by decide
  pendingOfId := by decide

theorem chainedCalls_oneChain : OneChain chainedCalls :=
  OneChain.of_apart (by decide) (by decide)

/-- The sample run stays on one chain, and the stores agree throughout. -/
theorem runMemory_agrees_chainedCalls :
    OneChain chainedCalls ∧ ∀ past, past <+: chainedCalls → ∀ scanned,
      Scan (runStore past) scanned → StoresAgree scanned (runMemory past) :=
  ⟨chainedCalls_oneChain, (runMemory_agrees chainedCalls_toldApart).2.mpr chainedCalls_oneChain⟩

/-- Two blocks at one height. -/
def rivalCalls : List StoreCall :=
  [.update (emptyBlock "0x11" "0x00" 1), .update (emptyBlock "0x12" "0x00" 1)]

/-- A transfer that is mined after it was sent to the mempool. -/
def minedCalls : List StoreCall :=
  [.updateMempoolTx pendingTransfer,
    .update { emptyBlock "0x11" "0x00" 1 with txs := [transferEntry "0x11" 1] }]

/-- Two blocks of a chain with one transaction. -/
def minedTwiceCalls : List StoreCall :=
  [.update (coinbaseBlock "0x11" "0x00" 1), .update (coinbaseBlock "0x21" "0x11" 2)]

/-- A pending transaction that is sent twice. -/
def resentCalls : List StoreCall :=
  [.updateMempoolTx pendingTransfer,
    .updateMempoolTx { pendingTransfer with receiptTime := 1594647998 }]

/-- Two transactions at one position of a block. -/
def tiedCalls : List StoreCall :=
  [.update { emptyBlock "0x11" "0x00" 1 with
    txs := [coinbaseEntry "0x11" 1, secondEntry "0x11" 0] }]

/-- A block whose hash is written in capitals. -/
def capitalCalls : List StoreCall :=
  [.update (emptyBlock "0xAB" "0x00" 1)]

theorem emptyBlock_carries (indexBlockHash parentIndexBlockHash : String) (blockHeight : Nat) :
    (emptyBlock indexBlockHash parentIndexBlockHash blockHeight).Carries :=
  fun _ mem => (List.not_mem_nil mem).elim

/-- The updates of the run form a tree in which parents come first. -/
structure Ordered (calls : List StoreCall) : Prop where
  tree : BlockTree (updatesOf calls)
  parentsFirst : ParentsFirst (updatesOf calls)

theorem ordered_of_empty {calls : List StoreCall} (none : updatesOf calls = []) :
    Ordered calls := by
  constructor
  · rw [none]
    exact blockTree_of_checked (by decide) (by rintro data ⟨⟩) .nil
  · rw [none]
    exact ParentsFirst.nil

theorem ordered_of_single {calls : List StoreCall} {data : DataStoreUpdateData}
    (single : updatesOf calls = [data]) (height : data.block.blockHeight = 1)
    (canonical : data.block.canonical = true) (carries : data.Carries) : Ordered calls := by
  constructor
  · rw [single]
    refine blockTree_of_checked ?_ ?_ (List.pairwise_singleton _ _)
    · intro other mem
      rw [List.mem_singleton.mp mem]
      exact ⟨Nat.le_of_eq height.symm, canonical⟩
    · intro other mem
      rw [List.mem_singleton.mp mem]
      exact carries
  · rw [single]
    exact ParentsFirst.nil.root (Nat.le_of_eq height)

theorem rivalCalls_ordered : Ordered rivalCalls := by
  constructor
  · refine blockTree_of_checked (by decide) ?_ (by decide)
    have cases : ∀ data ∈ updatesOf rivalCalls, data.txs = [] := by decide
    intro data mem entry inBlock
    rw [cases data mem] at inBlock
    cases inBlock
  · have first : ParentsFirst [emptyBlock "0x11" "0x00" 1] :=
      ParentsFirst.nil.root (Nat.le_refl 1)
    exact first.root (Nat.le_refl 1)

theorem minedTwiceCalls_ordered : Ordered minedTwiceCalls := by
  have isParent : (coinbaseBlock "0x11" "0x00" 1).IsParent (coinbaseBlock "0x21" "0x11" 2) :=
    isParent_of_checked (by decide) (by decide) (by decide)
  constructor
  · refine blockTree_of_checked (by decide) ?_ (by decide)
    intro data mem
    apply forkedCoinbases_carries data
    exact List.mem_of_mem_take (i := 2) mem
  · exact (ParentsFirst.nil.root (Nat.le_refl 1)).child List.mem_cons_self isParent

theorem tiedCalls_ordered : Ordered tiedCalls := by
  refine ordered_of_single rfl rfl rfl fun entry mem => ?_
  rcases List.mem_cons.mp mem with rfl | mem
  · exact coinbaseEntry_carries _ _
  · rw [List.mem_singleton.mp mem]
    exact
      { indexBlockHash := rfl
        tx := rfl
        stxEvents := fun event eventMem => by rw [List.mem_singleton.mp eventMem]
        ftEvents := fun event eventMem => by rw [List.mem_singleton.mp eventMem]
        nftEvents := fun event eventMem => (List.not_mem_nil eventMem).elim
        contractLogEvents := fun event eventMem => (List.not_mem_nil eventMem).elim
        smartContracts := fun contract contractMem => (List.not_mem_nil contractMem).elim }

/-- Forks, transactions that are mined after they were pending or mined in two blocks,
pending transactions that are sent twice, equal positions, and texts that the tables
change, each make the stores differ. -/
theorem runMemory_disagrees :
    (Ordered rivalCalls ∧
      getBlock (runStore rivalCalls) "0x12" ≠ .ok ((runMemory rivalCalls).getBlock "0x12")) ∧
    (Ordered minedCalls ∧
      getMempoolTx (runStore minedCalls) "0x0b" ≠
        .ok ((runMemory minedCalls).getMempoolTx "0x0b")) ∧
    (Ordered minedTwiceCalls ∧
      getTxList (runStore minedTwiceCalls) 10 0 [] ≠
        (runMemory minedTwiceCalls).getTxList 10 0 []) ∧
    (Ordered resentCalls ∧
      getMempoolTx (runStore resentCalls) "0x0b" ≠
        .ok ((runMemory resentCalls).getMempoolTx "0x0b")) ∧
    (Ordered tiedCalls ∧ ∃ scanned, Scan (runStore tiedCalls) scanned ∧
      getTxList scanned 10 0 [] ≠ (runMemory tiedCalls).getTxList 10 0 []) ∧
    Ordered capitalCalls ∧
      getBlock (runStore capitalCalls) "0xAB" ≠ .ok ((runMemory capitalCalls).getBlock "0xAB") := by
  have mined : Ordered minedCalls := by
    refine ordered_of_single rfl rfl rfl fun entry mem => ?_
    rw [List.mem_singleton.mp mem]
    exact transferEntry_carries _ _
  exact ⟨⟨rivalCalls_ordered, by decide +kernel⟩, ⟨mined, by decide +kernel⟩,
    ⟨minedTwiceCalls_ordered, by decide +kernel⟩, ⟨ordered_of_empty rfl, by decide +kernel⟩,
    ⟨tiedCalls_ordered, _, scan_reverse_txs _, by decide +kernel⟩,
    ordered_of_single rfl rfl rfl (emptyBlock_carries _ _ _), by decide +kernel⟩

end StacksApi.Datastore
