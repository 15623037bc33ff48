import StacksApi.Datastore.Restoration
import StacksApi.Datastore.StoreRun

/-!
# What holds of every reachable store

Without any assumption on the forest that the messages describe, index hashes stay
unique, no two canonical blocks have the same height, the highest block is canonical
unless all heights are zero, and the rows of the other tables have the flag of their
block.  A reorganisation keeps this because each level of it does, an insertion because
a new canonical block is higher than all others.
-/

namespace StacksApi.Datastore

open StacksApi.Binary
open StacksApi.Relational
open StacksApi.Transition
open CanonicalEntity

/-- A block row has the hash and the flag of the row of another table. -/
def OwnedBy {α : Type} [Flagged α Buffer] (blocks : List (DbBlock Buffer)) (row : α) : Prop :=
  ∃ block ∈ blocks, block.indexBlockHash = Flagged.key row ∧ block.canonical = Flagged.flag row

/-- The blocks are keyed and canonical once a height, up to the greatest, and the rows of
the other tables follow them. -/
structure Standing (db : Db) : Prop where
  forked : Forked db
  tip : db.maxBlockHeight = 0 ∨
    ∃ block ∈ db.blocks, block.canonical = true ∧ block.blockHeight = db.maxBlockHeight
  owned : ∀ table, ∀ row ∈ db.rows table, OwnedBy db.blocks row

theorem Standing.empty : Standing Db.empty where
  forked := ⟨List.nodup_nil, fun _ mem => nomatch mem⟩
  tip := Or.inl rfl
  owned table row mem := by cases table <;> cases mem

theorem Standing.withMempoolTxs {db : Db} (standing : Standing db)
    (pool : List (DbMempoolTx Buffer)) : Standing { db with mempoolTxs := pool } where
  forked := ⟨standing.forked.keys, standing.forked.single⟩
  tip := standing.tip
  owned table := by cases table <;> exact standing.owned _

/-! ## The tip -/

theorem maxBlockHeight_eq_of_heights {first second : Db}
    (same : first.blocks.map DbBlock.blockHeight = second.blocks.map DbBlock.blockHeight) :
    first.maxBlockHeight = second.maxBlockHeight := by
  rw [Db.maxBlockHeight, Db.maxBlockHeight, same]

theorem blockHeight_le_maxBlockHeight {db : Db} {block : DbBlock Buffer} (mem : block ∈ db.blocks) :
    block.blockHeight ≤ db.maxBlockHeight := by
  have link : block.link ∈ db.links := List.mem_map_of_mem mem
  rw [db.maxBlockHeight_eq]
  exact Chain.height_le_maxHeight link

/-- The query for the chain tip finds the greatest height. -/
theorem Standing.getChainTipHeight_blockHeight {db : Db} (standing : Standing db) :
    (getChainTipHeight db).blockHeight = db.maxBlockHeight := by
  rw [getChainTipHeight]
  split
  · next none =>
      rcases standing.tip with zero | ⟨block, mem, canonical, height⟩
      · exact zero.symm
      · have found : block ∈ db.blocks.filter fun row =>
            row.canonical && row.blockHeight = db.maxBlockHeight :=
          List.mem_filter.mpr ⟨mem, by simp [canonical, height]⟩
        rw [none] at found
        cases found
  · next row rest found =>
      have mem : row ∈ db.blocks.filter fun row =>
          row.canonical && row.blockHeight = db.maxBlockHeight := found ▸ List.mem_cons_self
      have matched := (List.mem_filter.mp mem).2
      rw [Bool.and_eq_true, decide_eq_true_eq] at matched
      exact matched.2

/-! ## Reorganisations -/

/-- What the level of an orphaned block keeps is kept by a reorganisation. -/
theorem handleReorg_levelDb {P : Db → Prop} (forked : ∀ db, P db → Forked db)
    (level : ∀ db block, P db → block ∈ db.blocks → block.canonical = false →
      P (levelDb db block))
    {db db' : Db} {block : DbBlock String} {chainTipHeight : Nat} {updated : UpdatedEntities}
    (holds : P db) (handled : handleReorg db block chainTipHeight = .ok (db', updated)) :
    P db' := by
  refine handleReorg_levels ?_ holds handled
  intro db indexBlockHash updated db' restored updated' holds ok
  obtain ⟨⟨original, found, -⟩, -⟩ := restoreOrphanedBlock_ok_iff.mp ok
  have originalMem : original ∈ db.blocks.filter (isOrphan indexBlockHash) :=
    found ▸ List.mem_singleton_self original
  obtain ⟨mem, matched⟩ := List.mem_filter.mp originalMem
  rw [isOrphan, Bool.and_eq_true, decide_eq_true_eq, Bool.not_eq_true'] at matched
  obtain ⟨rfl, orphaned⟩ := matched
  rw [restoreOrphanedBlock_eq (forked db holds) mem orphaned] at ok
  cases ok
  exact level db original holds mem orphaned

section Level

variable {db : Db} {block : DbBlock Buffer}

theorem maxBlockHeight_reflag (db : Db) (up down : List Buffer) :
    (db.reflag up down).maxBlockHeight = db.maxBlockHeight := by
  apply maxBlockHeight_eq_of_heights
  rw [Db.reflag, List.map_map]
  exact List.map_congr_left fun row _ => blockHeight_reflag up down row

/-- Rows with the key and the flag of another row are changed like it. -/
theorem OwnedBy.reflag {α : Type} [Flagged α Buffer] {blocks : List (DbBlock Buffer)} {row : α}
    (owned : OwnedBy blocks row) (up down : List Buffer) :
    OwnedBy (blocks.map (Relational.reflag up down)) (Relational.reflag up down row) := by
  obtain ⟨block, mem, key, flag⟩ := owned
  refine ⟨Relational.reflag up down block, List.mem_map_of_mem mem, ?_, ?_⟩
  · exact (key_reflag up down block).trans (key.trans (key_reflag up down row).symm)
  · have sameFlag : Flagged.flag (Relational.reflag up down block) =
        Flagged.flag (Relational.reflag up down row) :=
      flag_reflag_congr key flag
    exact sameFlag

theorem Standing.levelDb (standing : Standing db) (mem : block ∈ db.blocks) :
    Standing (levelDb db block) where
  forked := standing.forked.levelDb mem
  tip := by
    rw [Datastore.levelDb, maxBlockHeight_reflag]
    rcases standing.tip with zero | ⟨top, topMem, canonical, height⟩
    · exact Or.inl zero
    · right
      by_cases level : top.blockHeight = block.blockHeight
      · refine ⟨_, List.mem_map_of_mem mem, ?_, ?_⟩
        · rw [reflag_of_mem_up (List.mem_singleton_self block.indexBlockHash)]
          rfl
        · rw [blockHeight_reflag, ← level, height]
      · exact ⟨top, (standing.forked.mem_levelDb mem level).mp topMem, canonical, height⟩
  owned table row rowMem := by
    rw [Datastore.levelDb, rows_reflag] at rowMem
    obtain ⟨original, originalMem, rfl⟩ := List.mem_map.mp rowMem
    exact (standing.owned table original originalMem).reflag _ _

theorem Standing.handleReorg {db db' : Db} {block : DbBlock String} {chainTipHeight : Nat}
    {updated : UpdatedEntities} (standing : Standing db)
    (handled : handleReorg db block chainTipHeight = .ok (db', updated)) :
    Standing db' ∧ db'.maxBlockHeight = db.maxBlockHeight := by
  apply handleReorg_levelDb (P := fun after => Standing after ∧
    after.maxBlockHeight = db.maxBlockHeight)
    (fun _ holds => holds.1.forked) _ ⟨standing, rfl⟩ handled
  rintro middle original ⟨middleStanding, same⟩ mem -
  exact ⟨middleStanding.levelDb mem, (maxBlockHeight_reflag _ _ _).trans same⟩

end Level

/-! ## Updates -/

section Step

variable {db reorged pruned db' : Db} {data : DataStoreUpdateData} {row : DbBlock Buffer}

/-- The update as `handleClientMessage` builds it: canonical throughout, and all its
entries in its block. -/
structure DataStoreUpdateData.Wired (data : DataStoreUpdateData) : Prop where
  canonical : data.block.canonical = true
  carries : data.Carries

/-- An update that is accepted and finds its block stored only reorganises and prunes;
any other adds the block and the rows of its entries. -/
theorem Accepted.outcome (accepted : Accepted db data reorged pruned row db')
    (wired : data.Wired) (standing : Standing reorged) :
    (∃ stored ∈ reorged.blocks, stored.indexBlockHash = row.indexBlockHash) ∧ db' = pruned ∨
      (∀ stored ∈ reorged.blocks, stored.indexBlockHash ≠ row.indexBlockHash) ∧
        db'.blocks = reorged.blocks ++ [row] ∧
        ∃ rows, (data.settled db).txs.mapM entryRows = .ok rows ∧
          ∀ table, db'.rows table = reorged.rows table ++ insertedRows rows table := by
  have sameBlocks := accepted.blocks_pruned
  rcases accepted.store with ⟨stored, rfl⟩ | ⟨fresh, rows, computed, rfl⟩
  · exact Or.inl ⟨sameBlocks ▸ stored, rfl⟩
  · right
    rw [sameBlocks] at fresh
    refine ⟨fresh, by rw [Db.blocks_foldl_addEntry, sameBlocks], rows, computed, ?_⟩
    apply accepted.rows_inserted wired.canonical wired.carries computed
    intro tx mem same
    obtain ⟨block, blockMem, key, -⟩ := standing.owned .txs tx mem
    exact fresh block blockMem (key.trans same)

/-- The rows of a new block have its flag. -/
theorem Accepted.owned_insertedRows (accepted : Accepted db data reorged pruned row db')
    (wired : data.Wired) {rows : List EntryRows}
    (computed : (data.settled db).txs.mapM entryRows = .ok rows) {table : EntityTable}
    {added : table.Row} (mem : added ∈ insertedRows rows table) :
    row.indexBlockHash = Flagged.key added ∧ row.canonical = Flagged.flag added := by
  obtain ⟨entry, entryMem, inEntry⟩ := mem_insertedRows mem
  obtain ⟨key, flag⟩ :=
    accepted.inBlockRows wired.canonical wired.carries computed entry entryMem table added inEntry
  obtain ⟨-, -, -, canonical⟩ := accepted.decodedBlock wired.canonical
  exact ⟨key.symm, canonical.trans flag.symm⟩

theorem maxBlockHeight_of_blocks_append {before after : Db} {row : DbBlock Buffer}
    (same : after.blocks = before.blocks ++ [row]) :
    after.maxBlockHeight = max before.maxBlockHeight row.blockHeight := by
  have links : after.links = before.links ++ [row.link] := by
    rw [Db.links, same, List.map_append]
    rfl
  rw [after.maxBlockHeight_eq, before.maxBlockHeight_eq, links, Chain.maxHeight_append_singleton]
  rfl

theorem Forked.append {before after : Db} {row : DbBlock Buffer} (forked : Forked before)
    (same : after.blocks = before.blocks ++ [row])
    (fresh : ∀ stored ∈ before.blocks, stored.indexBlockHash ≠ row.indexBlockHash)
    (high : row.canonical = true → before.maxBlockHeight < row.blockHeight) : Forked after where
  keys := by
    rw [same, List.map_append, List.nodup_append]
    refine ⟨forked.keys, List.nodup_singleton _, ?_⟩
    rintro hash oldMem _ newMem
    obtain ⟨stored, mem, rfl⟩ := List.mem_map.mp oldMem
    rw [List.map_singleton, List.mem_singleton] at newMem
    rw [newMem]
    exact fresh stored mem
  single := by
    rw [same]
    intro first firstMem second secondMem firstCanonical secondCanonical level
    have above : ∀ stored ∈ before.blocks, row.canonical = true →
        stored.blockHeight < row.blockHeight :=
      fun stored mem canonical =>
        Nat.lt_of_le_of_lt (blockHeight_le_maxBlockHeight mem) (high canonical)
    rcases List.mem_append.mp firstMem with firstOld | firstNew <;>
      rcases List.mem_append.mp secondMem with secondOld | secondNew
    · exact forked.single first firstOld second secondOld firstCanonical secondCanonical level
    · obtain rfl : second = row := List.mem_singleton.mp secondNew
      have below := above first firstOld secondCanonical
      omega
    · obtain rfl : first = row := List.mem_singleton.mp firstNew
      have below := above second secondOld firstCanonical
      omega
    · rw [List.mem_singleton.mp firstNew, List.mem_singleton.mp secondNew]

/-- An accepted update keeps the invariant. -/
theorem Standing.update (standing : Standing db)
    (accepted : Accepted db data reorged pruned row db') (wired : data.Wired) : Standing db' := by
  obtain ⟨counts, handled⟩ := accepted.reorg
  obtain ⟨reorgedStanding, sameMax⟩ := standing.handleReorg handled
  obtain ⟨-, -, height, canonical⟩ := accepted.decodedBlock wired.canonical
  have heightens : row.canonical = true ↔ reorged.maxBlockHeight < row.blockHeight := by
    rw [canonical, decide_eq_true_eq, Heightens, standing.getChainTipHeight_blockHeight, sameMax,
      height]
  rcases accepted.outcome wired reorgedStanding with
    ⟨-, rfl⟩ | ⟨fresh, blocks, rows, computed, tables⟩
  · by_cases high : Heightens db data
    · obtain ⟨buffers, -, rfl⟩ := accepted.prune high
      exact reorgedStanding.withMempoolTxs _
    · rw [accepted.keep high]
      exact reorgedStanding
  · refine ⟨reorgedStanding.forked.append blocks fresh heightens.mp, ?_, ?_⟩
    · rw [maxBlockHeight_of_blocks_append blocks, blocks]
      by_cases high : reorged.maxBlockHeight < row.blockHeight
      · right
        refine ⟨row, List.mem_append_right _ (List.mem_singleton_self row), heightens.mpr high, ?_⟩
        omega
      · rw [Nat.max_eq_left (Nat.not_lt.mp high)]
        rcases reorgedStanding.tip with zero | ⟨top, topMem, topCanonical, topHeight⟩
        · exact Or.inl zero
        · exact Or.inr ⟨top, List.mem_append_left _ topMem, topCanonical, topHeight⟩
    · intro table stored storedMem
      rw [tables] at storedMem
      rw [blocks]
      rcases List.mem_append.mp storedMem with old | added
      · obtain ⟨block, blockMem, same⟩ := reorgedStanding.owned table stored old
        exact ⟨block, List.mem_append_left _ blockMem, same⟩
      · exact ⟨row, List.mem_append_right _ (List.mem_singleton_self row),
          accepted.owned_insertedRows wired computed added⟩

end Step

/-! ## Runs -/

/-- The updates among the calls are as `handleClientMessage` builds them. -/
def WiredCalls (calls : List StoreCall) : Prop :=
  ∀ data ∈ updatesOf calls, data.Wired

/-- A call keeps the invariant. -/
theorem Standing.commit_performCall {db : Db} (standing : Standing db) {call : StoreCall}
    (wired : ∀ data, call = .update data → data.Wired) :
    Standing (commit performCall db call) := by
  cases result : performCall db call with
  | error error =>
      rw [commit_of_error result]
      exact standing
  | ok outcome =>
      obtain ⟨db', events⟩ := outcome
      rw [commit_of_ok result]
      cases call with
      | update data =>
          obtain ⟨-, reorged, pruned, row, accepted⟩ := update_ok result
          exact standing.update accepted (wired data rfl)
      | updateMempoolTx mempoolTx =>
          obtain ⟨row, -, ⟨-, rfl, -⟩ | ⟨-, rfl, -⟩⟩ := updateMempoolTx_ok result
          · exact standing
          · exact standing.withMempoolTxs _

theorem runStore_standing {calls : List StoreCall} (wired : WiredCalls calls) :
    Standing (runStore calls) := by
  revert wired
  apply run_induction (motive := fun calls db => WiredCalls calls → Standing db)
  · exact fun _ => Standing.empty
  · intro past call ih wired
    have earlier : WiredCalls past := by
      intro data mem
      apply wired data
      rw [updatesOf_append]
      exact List.mem_append_left _ mem
    apply (ih earlier).commit_performCall
    rintro data rfl
    exact wired data (mem_updatesOf_last past data)

end StacksApi.Datastore
