import StacksApi.Datastore.Standing

/-!
# What an update removes from the mempool

The mempool after an update in terms of the tables before and after it: the
transactions of the incoming block are removed if it becomes canonical, but for its
coinbases, and so are those of the stored blocks that become canonical with it.
-/

namespace StacksApi.Datastore

open StacksApi.Binary
open StacksApi.Relational
open StacksApi.Transition
open CanonicalEntity

/-! ## Removed ids -/

/-- The stored blocks that were not canonical before and are after. -/
def restoredHashes (before after : Db) : List Buffer :=
  hashes (before.blocks.filter fun block =>
    !block.canonical && after.blocks.any fun later =>
      decide (later.indexBlockHash = block.indexBlockHash) && later.canonical)

/-- The ids of the transactions in these blocks. -/
def restoredTxIds (before after : Db) : List Buffer :=
  (before.txs.filter fun tx => tx.indexBlockHash ∈ restoredHashes before after).map
    fun tx => tx.txId

/-- The incoming block was not stored before and is canonical after. -/
def becomesCanonical (before after : Db) (data : DataStoreUpdateData) : Bool :=
  match hexToBuffer data.block.indexBlockHash with
  | .ok hash =>
      !(before.blocks.any fun block => block.indexBlockHash = hash) &&
        after.blocks.any fun block => decide (block.indexBlockHash = hash) && block.canonical
  | .error _ => false

/-- The ids of the transactions of the incoming block but for its coinbases. -/
def minedTxIds (data : DataStoreUpdateData) : List Buffer :=
  data.txs.filterMap fun entry =>
    if entry.tx.typeId = .coinbase then none else (hexToBuffer entry.tx.txId).toOption

/-- The ids that an update from `before` to `after` removes from the mempool. -/
def prunedTxIds (before after : Db) (data : DataStoreUpdateData) : List Buffer :=
  (if becomesCanonical before after data then minedTxIds data else []) ++
    restoredTxIds before after

section Ids

variable {before after : Db}

theorem mem_restoredHashes {hash : Buffer} : hash ∈ restoredHashes before after ↔
    (∃ block ∈ before.blocks, block.indexBlockHash = hash ∧ block.canonical = false) ∧
      ∃ later ∈ after.blocks, later.indexBlockHash = hash ∧ later.canonical = true := by
  simp only [restoredHashes, hashes, List.mem_map, List.mem_filter, Bool.and_eq_true,
    Bool.not_eq_true', List.any_eq_true, decide_eq_true_eq]
  constructor
  · rintro ⟨block, ⟨mem, orphaned, later, laterMem, same, canonical⟩, rfl⟩
    exact ⟨⟨block, mem, rfl, orphaned⟩, later, laterMem, same, canonical⟩
  · rintro ⟨⟨block, mem, rfl, orphaned⟩, later, laterMem, same, canonical⟩
    exact ⟨block, ⟨mem, orphaned, later, laterMem, same, canonical⟩, rfl⟩

theorem restoredHashes_self {db : Db} (forked : Forked db) : restoredHashes db db = [] := by
  apply List.eq_nil_iff_forall_not_mem.mpr
  intro hash mem
  obtain ⟨⟨block, blockMem, hashOk, orphaned⟩, later, laterMem, laterHash, canonical⟩ :=
    mem_restoredHashes.mp mem
  rw [forked.eq_of_hash laterMem blockMem (laterHash.trans hashOk.symm), orphaned] at canonical
  cases canonical

theorem restoredTxIds_of_none (none : restoredHashes before after = []) :
    restoredTxIds before after = [] := by
  rw [restoredTxIds, none]
  simp

theorem mem_minedTxIds {data : DataStoreUpdateData} {buffers : List Buffer}
    (decoded : (candidateTxIds data).mapM hexToBuffer = .ok buffers) {txId : Buffer} :
    txId ∈ minedTxIds data ↔ txId ∈ buffers := by
  rw [minedTxIds, List.mem_filterMap]
  constructor
  · rintro ⟨entry, entryMem, kept⟩
    by_cases coinbase : entry.tx.typeId = .coinbase
    · rw [if_pos coinbase] at kept
      cases kept
    · rw [if_neg coinbase] at kept
      have candidate : entry.tx.txId ∈ candidateTxIds data :=
        List.mem_map_of_mem (List.mem_filter.mpr ⟨entryMem, decide_eq_true coinbase⟩)
      obtain ⟨buffer, bufferMem, bufferOk⟩ := exists_of_mapM_ok decoded candidate
      rw [bufferOk] at kept
      cases kept
      exact bufferMem
  · intro mem
    obtain ⟨text, candidate, ok⟩ := mem_of_mapM_ok decoded mem
    obtain ⟨entry, kept, rfl⟩ := List.mem_map.mp candidate
    obtain ⟨entryMem, notCoinbase⟩ := List.mem_filter.mp kept
    refine ⟨entry, entryMem, ?_⟩
    rw [if_neg (of_decide_eq_true notCoinbase), ok]
    rfl

end Ids

/-! ## Reorganisations -/

section Reorg

variable {db reorged : Db} {up down : List Buffer}

theorem Db.reflag_nil (db : Db) : db.reflag [] [] = db := by
  have rows : ∀ {α : Type} [Flagged α Buffer] (rows : List α),
      rows.map (Relational.reflag [] []) = rows := by
    intro α _ rows
    have same : rows.map (Relational.reflag [] []) = rows.map id :=
      List.map_congr_left fun row _ => Relational.reflag_nil row
    rw [same, List.map_id]
  apply Db.ext_tables
  · exact rows db.blocks
  · intro table
    rw [rows_reflag, rows]
  · have none : raisedRows ([] : List Buffer) db.txs = [] :=
      List.filter_eq_nil_iff.mpr fun row _ => by simp
    simp [Db.reflag, none]

/-- A reorganisation that raises the flags of orphaned blocks and lowers others. -/
structure Reflagged (db reorged : Db) (up down : List Buffer) : Prop where
  tables : reorged = db.reflag up down
  orphaned : ∀ hash ∈ up, ∃ block ∈ db.blocks,
    block.indexBlockHash = hash ∧ block.canonical = false

theorem handleReorg_reflagged {block : DbBlock String} {counts : UpdatedEntities}
    (forked : Forked db) {chainTipHeight : Nat}
    (handled : handleReorg db block chainTipHeight = .ok (reorged, counts)) :
    reorged = db ∨
      chainTipHeight < block.blockHeight ∧ ∃ up down, Reflagged db reorged up down := by
  rw [handleReorg] at handled
  split at handled
  · obtain ⟨parentHash, -, handled⟩ := Except.bind_eq_ok.mp handled
    split at handled
    · cases handled
    · cases handled
    · next parent single =>
        split at handled
        · next reorganises =>
            have found : parent ∈ parentRows db block.blockHeight parentHash :=
              single ▸ List.mem_singleton_self parent
            obtain ⟨mem, matched⟩ := List.mem_filter.mp found
            obtain ⟨below, -⟩ := of_decide_eq_true matched
            have orphaned : parent.canonical = false := by simpa using reorganises.1
            obtain ⟨branch, isBranch⟩ := OrphanedBranch.exists_of_mem mem orphaned
            have enough : parent.blockHeight < block.blockHeight := by omega
            rw [restoreOrphanedChain_branch forked isBranch enough] at handled
            cases handled
            refine Or.inr ⟨reorganises.2, _, _, rfl, ?_⟩
            intro hash hashMem
            obtain ⟨row, rowMem, rfl⟩ := List.mem_map.mp hashMem
            obtain ⟨inBlocks, rowOrphaned, -⟩ := isBranch.of_mem rowMem
            exact ⟨row, inBlocks, rfl, rowOrphaned⟩
        · cases handled
          exact Or.inl rfl
  · cases handled
    exact Or.inl rfl

/-- The blocks that a reorganisation restores are those whose flags it raises. -/
theorem Reflagged.mem_restoredHashes_iff (reflagged : Reflagged db reorged up down)
    (forked : Forked db) {after : Db} {added : List (DbBlock Buffer)}
    (blocks : after.blocks = reorged.blocks ++ added)
    (fresh : ∀ stored ∈ reorged.blocks, ∀ row ∈ added, stored.indexBlockHash ≠ row.indexBlockHash)
    {hash : Buffer} : hash ∈ restoredHashes db after ↔ hash ∈ up := by
  rw [mem_restoredHashes, blocks]
  have leveled : reorged.blocks = db.blocks.map (Relational.reflag up down) := by
    rw [reflagged.tables]
    rfl
  constructor
  · rintro ⟨⟨block, mem, rfl, orphaned⟩, later, laterMem, same, canonical⟩
    have blockAfter : Relational.reflag up down block ∈ reorged.blocks :=
      leveled ▸ List.mem_map_of_mem mem
    have key : (Relational.reflag up down block).indexBlockHash = block.indexBlockHash :=
      key_reflag up down block
    rcases List.mem_append.mp laterMem with old | new
    · rw [leveled] at old
      obtain ⟨original, originalMem, rfl⟩ := List.mem_map.mp old
      have originalKey : (Relational.reflag up down original).indexBlockHash =
          original.indexBlockHash := key_reflag up down original
      have sameRow : original = block :=
        forked.eq_of_hash originalMem mem (originalKey.symm.trans same)
      rw [sameRow] at canonical
      by_contra notUp
      by_cases lowered : Flagged.key block ∈ down
      · rw [reflag_of_mem_down notUp lowered] at canonical
        cases canonical
      · rw [reflag_of_not_mem notUp lowered, orphaned] at canonical
        cases canonical
    · exact absurd (key.trans same.symm) (fresh _ blockAfter later new)
  · intro inUp
    obtain ⟨block, mem, rfl, orphaned⟩ := reflagged.orphaned hash inUp
    refine ⟨⟨block, mem, rfl, orphaned⟩, Relational.reflag up down block, ?_, ?_, ?_⟩
    · exact List.mem_append_left _ (leveled ▸ List.mem_map_of_mem mem)
    · exact key_reflag up down block
    · rw [reflag_of_mem_up inUp]
      rfl

/-- All transactions of a restored block become canonical with it. -/
theorem Reflagged.mem_raisedRows_iff (reflagged : Reflagged db reorged up down)
    (standing : Standing db) {tx : DbTx Buffer} :
    tx ∈ raisedRows up db.txs ↔ tx ∈ db.txs ∧ tx.indexBlockHash ∈ up := by
  rw [mem_raisedRows]
  constructor
  · rintro ⟨mem, key, -⟩
    exact ⟨mem, key⟩
  · rintro ⟨mem, key⟩
    refine ⟨mem, key, ?_⟩
    obtain ⟨block, blockMem, hash, orphaned⟩ := reflagged.orphaned _ key
    obtain ⟨owner, ownerMem, ownerKey, flag⟩ := standing.owned .txs tx mem
    have same : owner = block :=
      standing.forked.eq_of_hash ownerMem blockMem (ownerKey.trans hash.symm)
    have lowered : owner.canonical = false := same ▸ orphaned
    exact flag.symm.trans lowered

end Reorg

/-! ## Updates -/

section Step

variable {db reorged pruned db' : Db} {data : DataStoreUpdateData} {row : DbBlock Buffer}

/-- The index hash of an incoming block belongs to one height. -/
def Identified (db : Db) (data : DataStoreUpdateData) : Prop :=
  ∀ stored ∈ db.blocks, hexToBuffer data.block.indexBlockHash = .ok stored.indexBlockHash →
    stored.blockHeight = data.block.blockHeight

/-- The effect of an update on the mempool, and when there is none. -/
structure PrunesExactly (before after : Db) (data : DataStoreUpdateData) : Prop where
  pool : after.mempoolTxs = before.mempoolTxs.filter fun pending =>
    !decide (pending.txId ∈ prunedTxIds before after data)
  nothing : becomesCanonical before after data = false → after.mempoolTxs = before.mempoolTxs

/-- A state that is left as it is loses nothing. -/
theorem PrunesExactly.self (standing : Standing db) (data : DataStoreUpdateData) :
    PrunesExactly db db data := by
  have notNew : becomesCanonical db db data = false := by
    rw [becomesCanonical]
    split
    · next hash _ =>
        rw [Bool.and_eq_false_iff, Bool.not_eq_false', List.any_eq_true]
        by_cases stored : ∃ block ∈ db.blocks, block.indexBlockHash = hash
        · obtain ⟨block, mem, same⟩ := stored
          exact Or.inl ⟨block, mem, decide_eq_true same⟩
        · right
          apply List.any_eq_false.mpr
          intro block mem matched
          rw [Bool.and_eq_true, decide_eq_true_eq] at matched
          exact stored ⟨block, mem, matched.1⟩
    · rfl
  have none : prunedTxIds db db data = [] := by
    rw [prunedTxIds, notNew, restoredTxIds_of_none (restoredHashes_self standing.forked)]
    rfl
  refine ⟨?_, fun _ => rfl⟩
  rw [none]
  simp

/-- A block that is not above the tip loses nothing. -/
theorem Accepted.low_mempoolTxs (accepted : Accepted db data reorged pruned row db')
    (forked : Forked db) (low : ¬Heightens db data) :
    reorged = db ∧ db'.mempoolTxs = db.mempoolTxs := by
  obtain ⟨counts, handled⟩ := accepted.reorg
  rcases handleReorg_reflagged forked handled with rfl | ⟨high, -⟩
  · refine ⟨rfl, ?_⟩
    rw [accepted.mempoolTxs, accepted.keep low]
  · exact absurd high low

/-- A stored block is not above the tip. -/
theorem Standing.not_heightens (standing : Standing db) (identified : Identified db data)
    {stored : DbBlock Buffer} (mem : stored ∈ db.blocks)
    (same : hexToBuffer data.block.indexBlockHash = .ok stored.indexBlockHash) :
    ¬Heightens db data := by
  rw [Heightens, standing.getChainTipHeight_blockHeight, ← identified stored mem same]
  exact Nat.not_lt.mpr (blockHeight_le_maxBlockHeight mem)

/-- The index hashes of the blocks are those before the reorganisation. -/
theorem exists_hash_of_handleReorg {block : DbBlock String} {chainTipHeight : Nat}
    {counts : UpdatedEntities}
    (handled : handleReorg db block chainTipHeight = .ok (reorged, counts))
    {stored : DbBlock Buffer} (mem : stored ∈ reorged.blocks) :
    ∃ original ∈ db.blocks, original.indexBlockHash = stored.indexBlockHash :=
  exists_key_of_raised_eq (handleReorg_remarked handled).blocks mem

/-- An accepted reorganisation as a change of flags, which may be none. -/
theorem exists_reflagged {block : DbBlock String} {chainTipHeight : Nat} {counts : UpdatedEntities}
    (forked : Forked db) (handled : handleReorg db block chainTipHeight = .ok (reorged, counts)) :
    ∃ up down, Reflagged db reorged up down := by
  rcases handleReorg_reflagged forked handled with rfl | ⟨-, up, down, reflagged⟩
  · exact ⟨[], [], (Db.reflag_nil reorged).symm, fun _ mem => nomatch mem⟩
  · exact ⟨up, down, reflagged⟩

theorem Reflagged.mem_restoredTxIds_iff {up down : List Buffer}
    (reflagged : Reflagged db reorged up down) (standing : Standing db) {after : Db}
    {added : List (DbBlock Buffer)} (blocks : after.blocks = reorged.blocks ++ added)
    (fresh : ∀ stored ∈ reorged.blocks, ∀ row ∈ added, stored.indexBlockHash ≠ row.indexBlockHash)
    {txId : Buffer} :
    txId ∈ restoredTxIds db after ↔ txId ∈ (raisedRows up db.txs).map fun tx => tx.txId := by
  simp only [restoredTxIds, List.mem_map, List.mem_filter, decide_eq_true_eq,
    reflagged.mem_restoredHashes_iff standing.forked blocks fresh,
    reflagged.mem_raisedRows_iff standing]

/-- A new block above the tip becomes canonical. -/
theorem becomesCanonical_of_high {after : Db} (hash :
    hexToBuffer data.block.indexBlockHash = .ok row.indexBlockHash)
    (fresh : ∀ stored ∈ db.blocks, stored.indexBlockHash ≠ row.indexBlockHash)
    (mem : row ∈ after.blocks) (canonical : row.canonical = true) :
    becomesCanonical db after data = true := by
  have notStored : (db.blocks.any fun block =>
      decide (block.indexBlockHash = row.indexBlockHash)) = false :=
    List.any_eq_false.mpr fun stored storedMem same =>
      fresh stored storedMem (of_decide_eq_true same)
  have found : (after.blocks.any fun block =>
      decide (block.indexBlockHash = row.indexBlockHash) && block.canonical) = true :=
    List.any_eq_true.mpr ⟨row, mem, by simp [canonical]⟩
  rw [becomesCanonical, hash]
  simp only [notStored, found, Bool.not_false, Bool.true_and]

/-- A new block beside the chain does not. -/
theorem becomesCanonical_of_low {after : Db} (hash :
    hexToBuffer data.block.indexBlockHash = .ok row.indexBlockHash)
    (fresh : ∀ stored ∈ db.blocks, stored.indexBlockHash ≠ row.indexBlockHash)
    (blocks : after.blocks = db.blocks ++ [row]) (notCanonical : row.canonical = false) :
    becomesCanonical db after data = false := by
  have notFound : (after.blocks.any fun block =>
      decide (block.indexBlockHash = row.indexBlockHash) && block.canonical) = false := by
    apply List.any_eq_false.mpr
    intro block mem matched
    rw [Bool.and_eq_true, decide_eq_true_eq] at matched
    rw [blocks] at mem
    rcases List.mem_append.mp mem with old | new
    · exact fresh block old matched.1
    · rw [List.mem_singleton.mp new, notCanonical] at matched
      cases matched.2
  rw [becomesCanonical, hash]
  simp only [notFound, Bool.and_false]

theorem Accepted.prunesExactly_of_high (accepted : Accepted db data reorged pruned row db')
    (standing : Standing db) (wired : data.Wired) (identified : Identified db data)
    (high : Heightens db data) : PrunesExactly db db' data := by
  obtain ⟨counts, handled⟩ := accepted.reorg
  obtain ⟨hash, -, -, canonical⟩ := accepted.decodedBlock wired.canonical
  obtain ⟨reorgedStanding, -⟩ := standing.handleReorg handled
  have freshBefore : ∀ stored ∈ db.blocks, stored.indexBlockHash ≠ row.indexBlockHash :=
    fun stored mem same => standing.not_heightens identified mem (same ▸ hash) high
  have fresh : ∀ stored ∈ reorged.blocks, stored.indexBlockHash ≠ row.indexBlockHash := by
    intro stored mem same
    obtain ⟨original, originalMem, sameHash⟩ := exists_hash_of_handleReorg handled mem
    exact freshBefore original originalMem (sameHash.trans same)
  rcases accepted.outcome wired reorgedStanding with ⟨⟨stored, mem, same⟩, -⟩ | ⟨-, blocks, -⟩
  · exact absurd same (fresh stored mem)
  · have rowMem : row ∈ db'.blocks := by
      rw [blocks]
      exact List.mem_append_right _ (List.mem_singleton_self row)
    have becomes := becomesCanonical_of_high hash freshBefore rowMem
      (canonical.trans (decide_eq_true high))
    obtain ⟨up, down, reflagged⟩ := exists_reflagged standing.forked handled
    obtain ⟨buffers, decoded, prunedEq⟩ := accepted.prune high
    have restored : ∀ txId, txId ∈ restoredTxIds db db' ↔
        txId ∈ (raisedRows up db.txs).map fun tx => tx.txId := by
      intro txId
      apply reflagged.mem_restoredTxIds_iff standing blocks
      intro stored mem new newMem
      rw [List.mem_singleton.mp newMem]
      exact fresh stored mem
    refine ⟨?_, fun notNew => absurd becomes (by rw [notNew]; exact Bool.false_ne_true)⟩
    rw [accepted.mempoolTxs, prunedEq, Db.withoutMempoolTxs, reflagged.tables]
    change (db.mempoolTxs.filter _).filter _ = _
    rw [List.filter_filter, prunedTxIds, becomes, if_pos rfl]
    apply List.filter_congr
    intro pending _
    rw [Bool.eq_iff_iff]
    simp only [Bool.and_eq_true, Bool.not_eq_true', decide_eq_false_iff_not, List.mem_append,
      mem_minedTxIds decoded, restored, not_or]

theorem Accepted.prunesExactly_of_low (accepted : Accepted db data reorged pruned row db')
    (standing : Standing db) (wired : data.Wired) (low : ¬Heightens db data) :
    PrunesExactly db db' data := by
  obtain ⟨sameDb, pool⟩ := accepted.low_mempoolTxs standing.forked low
  obtain ⟨hash, -, -, canonical⟩ := accepted.decodedBlock wired.canonical
  rw [decide_eq_false low] at canonical
  rw [sameDb] at accepted
  rcases accepted.outcome wired standing with ⟨-, rfl⟩ | ⟨fresh, blocks, -⟩
  · rw [accepted.keep low]
    exact PrunesExactly.self standing data
  · have notNew := becomesCanonical_of_low hash fresh blocks canonical
    have unchanged : Reflagged db db [] [] :=
      ⟨(Db.reflag_nil db).symm, fun _ mem => nomatch mem⟩
    have none : restoredTxIds db db' = [] := by
      apply restoredTxIds_of_none
      apply List.eq_nil_iff_forall_not_mem.mpr
      intro k mem
      have inNil := (unchanged.mem_restoredHashes_iff standing.forked blocks (by
        intro stored storedMem new newMem
        rw [List.mem_singleton.mp newMem]
        exact fresh stored storedMem)).mp mem
      cases inNil
    refine ⟨?_, fun _ => pool⟩
    rw [pool, prunedTxIds, notNew, none]
    simp

end Step

/-! ## Runs -/

/-- After every run of the store, an update removes from the mempool the transactions
of its block, but for coinbases, if the block becomes canonical, and those of the stored
blocks that become canonical with it.  Unless its block becomes canonical, it removes
nothing. -/
theorem runStore_prunesExactly {calls : List StoreCall} {data : DataStoreUpdateData}
    (wired : WiredCalls (calls ++ [.update data]))
    (identified : Identified (runStore calls) data) :
    PrunesExactly (runStore calls) (runStore (calls ++ [.update data])) data := by
  rw [WiredCalls, updatesOf_append, List.forall_mem_append] at wired
  have standing := runStore_standing wired.1
  rw [runStore_append_singleton]
  cases result : performCall (runStore calls) (.update data) with
  | error error =>
      rw [commit_of_error result]
      exact PrunesExactly.self standing data
  | ok outcome =>
      obtain ⟨db', events⟩ := outcome
      rw [commit_of_ok result]
      obtain ⟨-, reorged, pruned, row, accepted⟩ := update_ok result
      have wiredData := wired.2 data List.mem_cons_self
      by_cases high : Heightens (runStore calls) data
      · exact accepted.prunesExactly_of_high standing wiredData identified high
      · exact accepted.prunesExactly_of_low standing wiredData high

/-- A pending coinbase with no columns but the required ones. -/
def pendingCoinbase (txId : String) : DbMempoolTx String where
  txId := txId
  rawTx := []
  typeId := .coinbase
  status := .pending
  postConditions := [0x01, 0, 0, 0, 0]
  feeRate := 0
  senderAddress := "ST1"
  originHashMode := 0
  sponsored := false
  sponsorAddress := none
  coinbasePayload := some []
  receiptTime := 1594647997

/-- A fork that is stored, and three pending transactions of which the first is in it. -/
def forkedCalls : List StoreCall :=
  [.update (coinbaseBlock "0x11" "0x00" 1), .update (emptyBlock "0x21" "0x11" 2),
    .update (coinbaseBlock "0x22" "0x11" 2), .updateMempoolTx (pendingCoinbase "0x0a"),
    .updateMempoolTx (pendingCoinbase "0x0b"), .updateMempoolTx (pendingCoinbase "0x0c")]

/-- A block on the fork with a coinbase and a transfer. -/
def overtakingBlock : DataStoreUpdateData :=
  { emptyBlock "0x32" "0x22" 3 with
    txs := [{ coinbaseEntry "0x32" 3 with
      tx := { (coinbaseEntry "0x32" 3).tx with txId := "0x0c" } }, transferEntry "0x32" 3] }

/-- The block that makes the fork canonical removes the transaction of the fork and its own
transfer, but not its coinbase. -/
theorem runStore_prunesExactly_fork :
    PrunesExactly (runStore forkedCalls) (runStore (forkedCalls ++ [.update overtakingBlock]))
        overtakingBlock ∧
      (runStore forkedCalls).mempoolTxs.map (fun pending => pending.txId) =
        [[0x0a], [0x0b], [0x0c]] ∧
      (runStore (forkedCalls ++ [.update overtakingBlock])).mempoolTxs.map
        (fun pending => pending.txId) = [[0x0c]] := by
  have other : ∀ stored ∈ (runStore forkedCalls).blocks,
      hexToBuffer "0x32" ≠ .ok stored.indexBlockHash := by decide
  refine ⟨runStore_prunesExactly ?_ fun stored mem same => absurd same (other stored mem),
    by decide, by decide⟩
  intro data mem
  have cases : data = coinbaseBlock "0x11" "0x00" 1 ∨ data = emptyBlock "0x21" "0x11" 2 ∨
      data = coinbaseBlock "0x22" "0x11" 2 ∨ data = overtakingBlock := by
    simpa [forkedCalls, updatesOf] using mem
  rcases cases with rfl | rfl | rfl | rfl
  · exact ⟨rfl, fun entry entryMem => List.mem_singleton.mp entryMem ▸ coinbaseEntry_carries _ _⟩
  · exact ⟨rfl, fun entry entryMem => nomatch entryMem⟩
  · exact ⟨rfl, fun entry entryMem => List.mem_singleton.mp entryMem ▸ coinbaseEntry_carries _ _⟩
  · refine ⟨rfl, fun entry entryMem => ?_⟩
    rcases List.mem_cons.mp entryMem with rfl | entryMem
    · exact { coinbaseEntry_carries "0x32" 3 with }
    · exact List.mem_singleton.mp entryMem ▸ transferEntry_carries _ _

end StacksApi.Datastore
