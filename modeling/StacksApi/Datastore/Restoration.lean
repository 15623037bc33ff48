import StacksApi.Datastore.Flags
import StacksApi.Relational.Reflag

/-!
# The exact effect of a reorganisation

`restoreOrphanedChain` as one change of the tables: the flags of a branch of orphaned
blocks are raised and those of the blocks that it conflicts with are lowered, and the
mempool loses the transactions that become canonical.  Each level of the recursion is
such a change for one block, and changes for a block and for the branch below it
compose.  Of the tables it is only assumed that index hashes are unique and that no
two canonical blocks have the same height.
-/

namespace StacksApi.Datastore

open StacksApi.Binary
open StacksApi.Relational
open StacksApi.Transition
open CanonicalEntity

/-! ## Counts -/

attribute [ext] EntityCounts UpdatedEntities

instance : Add EntityCounts where
  add first second :=
    { blocks := first.blocks + second.blocks
      txs := first.txs + second.txs
      stxEvents := first.stxEvents + second.stxEvents
      ftEvents := first.ftEvents + second.ftEvents
      nftEvents := first.nftEvents + second.nftEvents
      contractLogs := first.contractLogs + second.contractLogs
      smartContracts := first.smartContracts + second.smartContracts }

instance : Add UpdatedEntities where
  add first second :=
    { markedCanonical := first.markedCanonical + second.markedCanonical
      markedNonCanonical := first.markedNonCanonical + second.markedNonCanonical }

theorem EntityCounts.add_def (first second : EntityCounts) : first + second =
    { blocks := first.blocks + second.blocks
      txs := first.txs + second.txs
      stxEvents := first.stxEvents + second.stxEvents
      ftEvents := first.ftEvents + second.ftEvents
      nftEvents := first.nftEvents + second.nftEvents
      contractLogs := first.contractLogs + second.contractLogs
      smartContracts := first.smartContracts + second.smartContracts } :=
  rfl

theorem UpdatedEntities.add_def (first second : UpdatedEntities) : first + second =
    { markedCanonical := first.markedCanonical + second.markedCanonical
      markedNonCanonical := first.markedNonCanonical + second.markedNonCanonical } :=
  rfl

theorem EntityCounts.add_assoc (first second third : EntityCounts) :
    first + second + third = first + (second + third) := by
  ext <;> simp only [EntityCounts.add_def, Nat.add_assoc]

theorem UpdatedEntities.add_assoc (first second third : UpdatedEntities) :
    first + second + third = first + (second + third) := by
  simp only [UpdatedEntities.add_def, EntityCounts.add_assoc]

/-- The numbers of selected rows in each of the tables. -/
def Db.countRows (db : Db) (selected : ∀ {α : Type} [Flagged α Buffer], List α → List α) :
    EntityCounts where
  blocks := (selected db.blocks).length
  txs := (selected db.txs).length
  stxEvents := (selected db.stxEvents).length
  ftEvents := (selected db.ftEvents).length
  nftEvents := (selected db.nftEvents).length
  contractLogs := (selected db.contractLogs).length
  smartContracts := (selected db.smartContracts).length

/-! ## The change -/

/-- The tables after the blocks of some index hashes became canonical and those of
others non-canonical, with all that belongs to them. -/
def Db.reflag (db : Db) (up down : List Buffer) : Db where
  blocks := db.blocks.map (Relational.reflag up down)
  txs := db.txs.map (Relational.reflag up down)
  stxEvents := db.stxEvents.map (Relational.reflag up down)
  ftEvents := db.ftEvents.map (Relational.reflag up down)
  nftEvents := db.nftEvents.map (Relational.reflag up down)
  contractLogs := db.contractLogs.map (Relational.reflag up down)
  smartContracts := db.smartContracts.map (Relational.reflag up down)
  mempoolTxs := db.mempoolTxs.filter fun pending =>
    !decide (pending.txId ∈ (raisedRows up db.txs).map fun tx => tx.txId)

/-- The numbers of rows whose flag the change raises and lowers. -/
def Db.flipCounts (db : Db) (up down : List Buffer) : UpdatedEntities where
  markedCanonical := db.countRows (raisedRows up)
  markedNonCanonical := db.countRows (loweredRows down)

/-- The index hashes of blocks. -/
def hashes (blocks : List (DbBlock Buffer)) : List Buffer :=
  blocks.map DbBlock.indexBlockHash

/-- A non-canonical stored block, followed by its ancestors one height below each as
long as these are stored and non-canonical too. -/
inductive OrphanedBranch (db : Db) : DbBlock Buffer → List (DbBlock Buffer) → Prop
  | last {block : DbBlock Buffer} (mem : block ∈ db.blocks) (orphaned : block.canonical = false)
      (stops : ∀ parent ∈ db.blocks, parent.blockHeight + 1 = block.blockHeight →
        parent.indexBlockHash = block.parentIndexBlockHash → parent.canonical = true) :
      OrphanedBranch db block [block]
  | next {block parent : DbBlock Buffer} {branch : List (DbBlock Buffer)}
      (mem : block ∈ db.blocks) (orphaned : block.canonical = false)
      (below : parent.blockHeight + 1 = block.blockHeight)
      (hash : parent.indexBlockHash = block.parentIndexBlockHash)
      (rest : OrphanedBranch db parent branch) :
      OrphanedBranch db block (block :: branch)

/-- The canonical blocks at the heights of a branch. -/
def conflicts (db : Db) (branch : List (DbBlock Buffer)) : List (DbBlock Buffer) :=
  db.blocks.filter fun row =>
    row.canonical && branch.any fun block => block.blockHeight = row.blockHeight

/-- What the tables hold of `blocks` before a reorganisation. -/
structure Forked (db : Db) : Prop where
  keys : (db.blocks.map DbBlock.indexBlockHash).Nodup
  single : ∀ first ∈ db.blocks, ∀ second ∈ db.blocks, first.canonical = true →
    second.canonical = true → first.blockHeight = second.blockHeight → first = second

namespace Forked

variable {db : Db} {block : DbBlock Buffer}

theorem eq_of_hash (forked : Forked db) {first second : DbBlock Buffer}
    (firstMem : first ∈ db.blocks) (secondMem : second ∈ db.blocks)
    (same : first.indexBlockHash = second.indexBlockHash) : first = second :=
  List.inj_on_of_nodup_map forked.keys firstMem secondMem same

theorem mem_of_hash_mem (forked : Forked db) {rows : List (DbBlock Buffer)}
    (subset : rows ⊆ db.blocks) {row : DbBlock Buffer} (mem : row ∈ db.blocks)
    (hashMem : row.indexBlockHash ∈ hashes rows) : row ∈ rows := by
  obtain ⟨other, otherMem, same⟩ := List.mem_map.mp hashMem
  rwa [← forked.eq_of_hash (subset otherMem) mem same]

end Forked

section Conflicts

variable {db : Db} {block row : DbBlock Buffer} {branch : List (DbBlock Buffer)}

theorem mem_conflicts : row ∈ conflicts db branch ↔
    row ∈ db.blocks ∧ row.canonical = true ∧
      ∃ block ∈ branch, block.blockHeight = row.blockHeight := by
  simp [conflicts, List.mem_filter]

theorem conflicts_subset : conflicts db branch ⊆ db.blocks :=
  List.filter_subset_self _

/-- There is at most one block to orphan at the height of a restored one. -/
theorem conflicts_singleton (forked : Forked db) (block : DbBlock Buffer) :
    conflicts db [block] = [] ∨ ∃ row, conflicts db [block] = [row] := by
  cases found : conflicts db [block] with
  | nil => exact Or.inl rfl
  | cons first rest =>
      right
      have firstMem : first ∈ conflicts db [block] := found ▸ List.mem_cons_self
      obtain ⟨inBlocks, canonical, owner, ownerMem, height⟩ := mem_conflicts.mp firstMem
      obtain rfl : owner = block := List.mem_singleton.mp ownerMem
      refine ⟨first, found.symm.trans ?_⟩
      have matched := (List.mem_filter.mp firstMem).2
      apply filter_eq_singleton forked.keys inBlocks matched
      intro other otherMem otherMatched
      obtain ⟨-, otherCanonical, second, secondMem, otherHeight⟩ :=
        mem_conflicts.mp (List.mem_filter.mpr ⟨otherMem, otherMatched⟩)
      obtain rfl : second = owner := List.mem_singleton.mp secondMem
      exact congrArg DbBlock.indexBlockHash (forked.single other otherMem first inBlocks
        otherCanonical canonical (otherHeight.symm.trans height))

/-- A restored block is not among those that it conflicts with. -/
theorem hash_not_mem_conflicts (forked : Forked db) (mem : block ∈ db.blocks)
    (orphaned : block.canonical = false) (branch : List (DbBlock Buffer)) :
    block.indexBlockHash ∉ hashes (conflicts db branch) := by
  intro hashMem
  have found := forked.mem_of_hash_mem conflicts_subset mem hashMem
  rw [(mem_conflicts.mp found).2.1] at orphaned
  cases orphaned

end Conflicts

/-! ## One level -/

section Level

variable {db : Db} {block : DbBlock Buffer}

@[simp]
theorem rows_reflag (db : Db) (up down : List Buffer) (table : EntityTable) :
    (db.reflag up down).rows table = (db.rows table).map (Relational.reflag up down) := by
  cases table <;> rfl

theorem Db.ext_tables {first second : Db} (blocks : first.blocks = second.blocks)
    (rows : ∀ table, first.rows table = second.rows table)
    (mempoolTxs : first.mempoolTxs = second.mempoolTxs) : first = second := by
  have txs : first.txs = second.txs := rows .txs
  have stxEvents : first.stxEvents = second.stxEvents := rows .stxEvents
  have ftEvents : first.ftEvents = second.ftEvents := rows .ftEvents
  have nftEvents : first.nftEvents = second.nftEvents := rows .nftEvents
  have contractLogs : first.contractLogs = second.contractLogs := rows .contractLogs
  have smartContracts : first.smartContracts = second.smartContracts := rows .smartContracts
  cases first
  cases second
  simp only [Db.mk.injEq]
  exact ⟨blocks, txs, stxEvents, ftEvents, nftEvents, contractLogs, smartContracts, mempoolTxs⟩

theorem blocks_markBlock (db : Db) (indexBlockHash : Buffer) :
    (db.markBlock indexBlockHash).blocks =
      db.blocks.map (Relational.reflag [indexBlockHash] []) := by
  apply List.map_congr_left
  intro row _
  by_cases same : row.indexBlockHash = indexBlockHash
  · have up : Flagged.key row ∈ [indexBlockHash] := List.mem_singleton.mpr same
    rw [reflag_of_mem_up up]
    cases flagged : row.canonical with
    | false => simp [isOrphan, same, flagged, Flagged.withFlag]
    | true =>
        have already : withCanonical true row = row := by
          rw [← flagged]
          exact withCanonical_canonical row
        simp [isOrphan, flagged, Flagged.withFlag, already]
  · have notUp : Flagged.key row ∉ [indexBlockHash] := fun mem => same (List.mem_singleton.mp mem)
    rw [reflag_of_not_mem notUp List.not_mem_nil]
    simp [isOrphan, same]

/-- The rows that a level orphans are those that conflict with the restored block. -/
theorem conflicting_snd (forked : Forked db) (mem : block ∈ db.blocks)
    (orphaned : block.canonical = false) :
    (conflicting (withCanonical true block) (db.markBlock block.indexBlockHash).blocks).2 =
      (conflicts db [block]).map (withCanonical false) := by
  rw [blocks_markBlock, conflicting, updateRows]
  refine congrArg (List.map (withCanonical false)) ?_
  rw [filter_map_reflag]
  · apply List.filter_congr
    intro row rowMem
    cases flagged : row.canonical with
    | false => simp
    | true =>
        have other : row.indexBlockHash ≠ block.indexBlockHash := by
          intro same
          rw [forked.eq_of_hash rowMem mem same, orphaned] at flagged
          cases flagged
        simp [other, withCanonical, eq_comm]
  · intro row _ touched
    have same : row.indexBlockHash = block.indexBlockHash :=
      touched.elim List.mem_singleton.mp fun none => absurd none List.not_mem_nil
    have sameAfter : (Relational.reflag [block.indexBlockHash] [] row).indexBlockHash =
        block.indexBlockHash :=
      (key_reflag [block.indexBlockHash] [] row).trans same
    simp [same, sameAfter, withCanonical]

theorem conflicting_fst (forked : Forked db) (block : DbBlock Buffer) :
    (conflicting (withCanonical true block) (db.markBlock block.indexBlockHash).blocks).1 =
      db.blocks.map
        (Relational.reflag [block.indexBlockHash] (hashes (conflicts db [block]))) := by
  rw [blocks_markBlock, conflicting, updateRows, List.map_map]
  apply List.map_congr_left
  intro row rowMem
  rw [Function.comp_apply]
  by_cases same : row.indexBlockHash = block.indexBlockHash
  · have up : Flagged.key row ∈ [block.indexBlockHash] := List.mem_singleton.mpr same
    rw [reflag_of_mem_up up, reflag_of_mem_up up]
    have sameAfter : (Flagged.withFlag true row).indexBlockHash = block.indexBlockHash := same
    simp [sameAfter, withCanonical]
  · have notUp : Flagged.key row ∉ [block.indexBlockHash] := fun up =>
      same (List.mem_singleton.mp up)
    rw [reflag_of_not_mem notUp List.not_mem_nil]
    by_cases found : row ∈ conflicts db [block]
    · obtain ⟨-, canonical, owner, ownerMem, height⟩ := mem_conflicts.mp found
      rw [List.mem_singleton.mp ownerMem] at height
      have down : Flagged.key row ∈ hashes (conflicts db [block]) := List.mem_map_of_mem found
      rw [reflag_of_mem_down notUp down]
      simp [canonical, height, same, withCanonical, Flagged.withFlag]
    · have notDown : Flagged.key row ∉ hashes (conflicts db [block]) := fun down =>
        found (forked.mem_of_hash_mem conflicts_subset rowMem down)
      rw [reflag_of_not_mem notUp notDown, if_neg]
      intro matched
      rw [Bool.and_eq_true, decide_eq_true_eq] at matched
      exact found (mem_conflicts.mpr
        ⟨rowMem, matched.2, block, List.mem_singleton_self block, matched.1.1.symm⟩)

section Unmark

variable {α : Type} [Flagged α Buffer] {restored : DbBlock Buffer} {orphans : List (DbBlock Buffer)}

theorem unmarkFirst_eq (single : orphans = [] ∨ ∃ orphan, orphans = [orphan]) (rows : List α) :
    unmarkFirst orphans rows = rows.map (Relational.reflag [] (hashes orphans)) := by
  rcases single with rfl | ⟨orphan, rfl⟩
  · have same : rows.map (Relational.reflag [] []) = rows.map id :=
      List.map_congr_left fun row _ => reflag_nil row
    exact (same.trans (List.map_id rows)).symm
  · exact setFlag_false_fst orphan.indexBlockHash rows

theorem raisedRows_unmarkFirst (single : orphans = [] ∨ ∃ orphan, orphans = [orphan])
    (other : restored.indexBlockHash ∉ hashes orphans) (rows : List α) :
    raisedRows [restored.indexBlockHash] (unmarkFirst orphans rows) =
      raisedRows [restored.indexBlockHash] rows := by
  rw [unmarkFirst_eq single, raisedRows_map_reflag fun _ _ => List.not_mem_nil]
  intro k mem
  rw [List.mem_singleton.mp mem]
  exact other

/-- A level on a table when at most one block is orphaned. -/
theorem levelRows_fst (single : orphans = [] ∨ ∃ orphan, orphans = [orphan]) (rows : List α) :
    (levelRows restored orphans rows).1 =
      rows.map (Relational.reflag [restored.indexBlockHash] (hashes orphans)) := by
  rw [levelRows, unmarkFirst_eq single, setFlag_true_fst, List.map_map]
  apply List.map_congr_left
  intro row _
  rw [Function.comp_apply, reflag_reflag fun _ _ => List.not_mem_nil, List.nil_append,
    List.append_nil]

theorem levelRows_snd (single : orphans = [] ∨ ∃ orphan, orphans = [orphan])
    (other : restored.indexBlockHash ∉ hashes orphans) (rows : List α) :
    (levelRows restored orphans rows).2 =
      (raisedRows [restored.indexBlockHash] rows).map (Flagged.withFlag true) := by
  rw [levelRows, setFlag_true_snd, raisedRows_unmarkFirst single other]

end Unmark

/-- Equal numbers of rows in the six tables. -/
theorem countRows_congr {first second : Db}
    {selected selected' : ∀ {α : Type} [Flagged α Buffer], List α → List α}
    (same : ∀ table, (selected (first.rows table)).length = (selected' (second.rows table)).length)
    (blocks : Nat) :
    { first.countRows selected with blocks } = { second.countRows selected' with blocks } := by
  have txs : (selected first.txs).length = (selected' second.txs).length := same .txs
  have stxEvents : (selected first.stxEvents).length = (selected' second.stxEvents).length :=
    same .stxEvents
  have ftEvents : (selected first.ftEvents).length = (selected' second.ftEvents).length :=
    same .ftEvents
  have nftEvents : (selected first.nftEvents).length = (selected' second.nftEvents).length :=
    same .nftEvents
  have contractLogs : (selected first.contractLogs).length =
      (selected' second.contractLogs).length := same .contractLogs
  have smartContracts : (selected first.smartContracts).length =
      (selected' second.smartContracts).length := same .smartContracts
  simp only [Db.countRows, txs, stxEvents, ftEvents, nftEvents, contractLogs, smartContracts]

theorem count_true_markEntitiesCanonical (db : Db) (indexBlockHash : Buffer)
    (updated : UpdatedEntities) :
    (markEntitiesCanonical db indexBlockHash true updated).2.2 = updated +
      { markedCanonical := { db.countRows (raisedRows [indexBlockHash]) with blocks := 0 } } := by
  simp [markEntitiesCanonical, UpdatedEntities.count, setFlag_true_snd, UpdatedEntities.add_def,
    EntityCounts.add_def, Db.countRows]

theorem count_false_markEntitiesCanonical (db : Db) (indexBlockHash : Buffer)
    (updated : UpdatedEntities) :
    (markEntitiesCanonical db indexBlockHash false updated).2.2 = updated +
      { markedNonCanonical :=
          { db.countRows (loweredRows [indexBlockHash]) with blocks := 0 } } := by
  simp [markEntitiesCanonical, UpdatedEntities.count, setFlag_false_snd, UpdatedEntities.add_def,
    EntityCounts.add_def, Db.countRows]

theorem loweredRows_nil {α : Type} [Flagged α Buffer] (rows : List α) :
    loweredRows ([] : List Buffer) rows = [] :=
  List.filter_eq_nil_iff.mpr fun row _ => by simp

theorem snd_orphanConflicting (db : Db) (restored : DbBlock Buffer) (updated : UpdatedEntities) :
    (orphanConflicting db restored updated).2 =
      match (conflicting restored db.blocks).2 with
      | [] => updated
      | orphan :: _ =>
          (markEntitiesCanonical { db with blocks := (conflicting restored db.blocks).1 }
          orphan.indexBlockHash false (updated.countBlock false)).2.2 := by
  rw [orphanConflicting]
  change (match (conflicting restored db.blocks).2 with | [] => _ | _ :: _ => _ :
    Db × UpdatedEntities).2 = _
  split <;> rfl

theorem count_orphanConflicting {db : Db} {restored : DbBlock Buffer}
    {orphans : List (DbBlock Buffer)} (found : (conflicting restored db.blocks).2 = orphans)
    (single : orphans = [] ∨ ∃ orphan, orphans = [orphan]) (updated : UpdatedEntities) :
    (orphanConflicting db restored updated).2 = updated +
      { markedNonCanonical :=
          { db.countRows (loweredRows (hashes orphans)) with blocks := orphans.length } } := by
  rw [snd_orphanConflicting, found]
  rcases single with rfl | ⟨orphan, rfl⟩
  · simp [UpdatedEntities.add_def, EntityCounts.add_def, Db.countRows, hashes, loweredRows_nil]
  · simp [count_false_markEntitiesCanonical, UpdatedEntities.countBlock, UpdatedEntities.count,
      UpdatedEntities.add_def, EntityCounts.add_def, Db.countRows, hashes]

/-- The numbers of block rows that a level changes. -/
theorem length_raisedRows_singleton (forked : Forked db) (mem : block ∈ db.blocks)
    (orphaned : block.canonical = false) :
    (raisedRows [block.indexBlockHash] db.blocks).length = 1 := by
  have same : raisedRows [block.indexBlockHash] db.blocks =
      db.blocks.filter (isOrphan block.indexBlockHash) := by
    apply raisedRows_eq_filter
    intro row _
    rw [isOrphan, Bool.and_eq_true, decide_eq_true_eq, Bool.not_eq_true', List.mem_singleton]
    rfl
  rw [same, filter_isOrphan forked.keys mem orphaned]
  rfl

theorem loweredRows_conflicts (forked : Forked db) (branch : List (DbBlock Buffer)) :
    loweredRows (hashes (conflicts db branch)) db.blocks = conflicts db branch := by
  apply loweredRows_eq_filter
  intro row rowMem
  rw [Bool.and_eq_true]
  constructor
  · rintro ⟨canonical, level⟩
    have found : row ∈ conflicts db branch :=
      List.mem_filter.mpr ⟨rowMem, Bool.and_eq_true_iff.mpr ⟨canonical, level⟩⟩
    exact ⟨List.mem_map_of_mem found, canonical⟩
  · rintro ⟨down, canonical⟩
    have found := forked.mem_of_hash_mem conflicts_subset rowMem down
    exact Bool.and_eq_true_iff.mp (List.mem_filter.mp found).2

/-- The rows that the level of a block orphans, as they are returned. -/
def orphansOf (db : Db) (block : DbBlock Buffer) : List (DbBlock Buffer) :=
  (conflicts db [block]).map (withCanonical false)

theorem hashes_orphansOf (db : Db) (block : DbBlock Buffer) :
    hashes (orphansOf db block) = hashes (conflicts db [block]) := by
  rw [hashes, orphansOf, List.map_map]
  rfl

theorem orphansOf_single (forked : Forked db) (block : DbBlock Buffer) :
    orphansOf db block = [] ∨ ∃ orphan, orphansOf db block = [orphan] := by
  rcases conflicts_singleton forked block with none | ⟨row, one⟩
  · exact Or.inl (by rw [orphansOf, none, List.map_nil])
  · exact Or.inr ⟨withCanonical false row, by rw [orphansOf, one, List.map_singleton]⟩

theorem hash_not_mem_orphansOf (forked : Forked db) (mem : block ∈ db.blocks)
    (orphaned : block.canonical = false) :
    (withCanonical true block : DbBlock Buffer).indexBlockHash ∉ hashes (orphansOf db block) := by
  rw [hashes_orphansOf]
  exact hash_not_mem_conflicts forked mem orphaned [block]

/-- The tables and the counts in the middle of the level of a block. -/
def orphanedState (db : Db) (block : DbBlock Buffer) (updated : UpdatedEntities) :
    Db × UpdatedEntities :=
  orphanConflicting (db.markBlock block.indexBlockHash) (withCanonical true block) updated

theorem rows_orphanedState (forked : Forked db) (mem : block ∈ db.blocks)
    (orphaned : block.canonical = false) (updated : UpdatedEntities) (table : EntityTable) :
    (orphanedState db block updated).1.rows table =
      unmarkFirst (orphansOf db block) (db.rows table) := by
  rw [orphanedState, rows_orphanConflicting, conflicting_snd forked mem orphaned, orphansOf]
  cases table <;> rfl

/-- The transactions that a level makes canonical. -/
theorem txIds_level (forked : Forked db) (mem : block ∈ db.blocks)
    (orphaned : block.canonical = false) (updated : UpdatedEntities) :
    (markEntitiesCanonical (orphanedState db block updated).1 block.indexBlockHash true
        (orphanedState db block updated).2).2.1 =
      ((raisedRows [block.indexBlockHash] db.txs).map fun tx => tx.txId).map
        bufferToHexPrefixString := by
  have txs : (orphanedState db block updated).1.txs = unmarkFirst (orphansOf db block) db.txs :=
    rows_orphanedState forked mem orphaned updated .txs
  have level : (setFlag block.indexBlockHash true
      (unmarkFirst (orphansOf db block) db.txs)).2 = _ :=
    levelRows_snd (orphansOf_single forked block)
      (hash_not_mem_orphansOf forked mem orphaned) db.txs
  rw [txIds_markEntitiesCanonical, txs, level]
  simp only [List.map_map]
  rfl

/-- The tables after a level. -/
theorem tables_level (forked : Forked db) (mem : block ∈ db.blocks)
    (orphaned : block.canonical = false) (updated : UpdatedEntities) :
    (markEntitiesCanonical (orphanedState db block updated).1 block.indexBlockHash true
        (orphanedState db block updated).2).1.withoutMempoolTxs
          ((raisedRows [block.indexBlockHash] db.txs).map fun tx => tx.txId) =
      db.reflag [block.indexBlockHash] (hashes (conflicts db [block])) := by
  apply Db.ext_tables
  · rw [Db.blocks_withoutMempoolTxs, blocks_markEntitiesCanonical, orphanedState,
      blocks_orphanConflicting, conflicting_fst forked]
    rfl
  · intro table
    rw [Db.rows_withoutMempoolTxs, rows_markEntitiesCanonical,
      rows_orphanedState forked mem orphaned, rows_reflag, ← hashes_orphansOf]
    exact @levelRows_fst _ _ (withCanonical true block) _ (orphansOf_single forked block)
      (db.rows table)
  · rw [Db.withoutMempoolTxs, mempoolTxs_markEntitiesCanonical, orphanedState,
      mempoolTxs_orphanConflicting]
    rfl

/-- The counts after a level. -/
theorem counts_level (forked : Forked db) (mem : block ∈ db.blocks)
    (orphaned : block.canonical = false) (updated : UpdatedEntities) :
    (markEntitiesCanonical (orphanedState db block (updated.countBlock true)).1
        block.indexBlockHash true (orphanedState db block (updated.countBlock true)).2).2.2 =
      updated + db.flipCounts [block.indexBlockHash] (hashes (conflicts db [block])) := by
  have raisedSame : { (orphanedState db block (updated.countBlock true)).1.countRows
        (raisedRows [block.indexBlockHash]) with blocks := 0 } =
      { db.countRows (raisedRows [block.indexBlockHash]) with blocks := 0 } := by
    apply countRows_congr
    intro table
    rw [rows_orphanedState forked mem orphaned]
    exact congrArg List.length (@raisedRows_unmarkFirst _ _ (withCanonical true block) _
      (orphansOf_single forked block) (hash_not_mem_orphansOf forked mem orphaned) (db.rows table))
  have loweredSame : { (db.markBlock block.indexBlockHash).countRows
        (loweredRows (hashes (conflicts db [block]))) with
          blocks := (conflicts db [block]).length } =
      db.countRows (loweredRows (hashes (conflicts db [block]))) := by
    conv_rhs => rw [Db.countRows, loweredRows_conflicts forked]
    rfl
  have middle : (orphanedState db block (updated.countBlock true)).2 = updated.countBlock true +
      { markedNonCanonical := db.countRows (loweredRows (hashes (conflicts db [block]))) } := by
    rw [orphanedState, count_orphanConflicting (conflicting_snd forked mem orphaned)
      (orphansOf_single forked block), ← loweredSame, ← hashes_orphansOf, List.length_map]
    rfl
  have one := length_raisedRows_singleton forked mem orphaned
  rw [count_true_markEntitiesCanonical, raisedSame, middle]
  simp only [UpdatedEntities.add_def, EntityCounts.add_def, UpdatedEntities.countBlock,
    UpdatedEntities.count, Db.flipCounts, Db.countRows, if_true, one, Nat.add_zero]

/-- One level raises the flags of one block and lowers those of the block that it
conflicts with. -/
theorem restoreOrphanedBlock_eq (forked : Forked db) (mem : block ∈ db.blocks)
    (orphaned : block.canonical = false) (updated : UpdatedEntities) :
    restoreOrphanedBlock db block.indexBlockHash updated =
      .ok (db.reflag [block.indexBlockHash] (hashes (conflicts db [block])),
        withCanonical true block,
        updated + db.flipCounts [block.indexBlockHash] (hashes (conflicts db [block]))) := by
  have sameHash : (withCanonical true block : DbBlock Buffer).indexBlockHash =
      block.indexBlockHash := rfl
  have middle : orphanConflicting (db.markBlock block.indexBlockHash) (withCanonical true block)
      (updated.countBlock true) = orphanedState db block (updated.countBlock true) := rfl
  obtain ⟨removed, pruned⟩ := pruneMempoolTxs_hex
    (markEntitiesCanonical (orphanedState db block (updated.countBlock true)).1
      block.indexBlockHash true (orphanedState db block (updated.countBlock true)).2).1
    ((raisedRows [block.indexBlockHash] db.txs).map fun tx => tx.txId)
  rw [restoreOrphanedBlock_of_single (filter_isOrphan forked.keys mem orphaned),
    exchangeEntities_eq, sameHash, middle, txIds_level forked mem orphaned, pruned,
    tables_level forked mem orphaned, counts_level forked mem orphaned]
  rfl

end Level

/-! ## Composition -/

section Compose

variable {db : Db} {up down up' down' : List Buffer}

theorem Db.reflag_congr {db : Db} {up down down' : List Buffer} (same : ∀ k, k ∈ down ↔ k ∈ down') :
    db.reflag up down = db.reflag up down' := by
  have rows : ∀ {α : Type} [Flagged α Buffer] (rows : List α),
      rows.map (Relational.reflag up down) = rows.map (Relational.reflag up down') :=
    fun rows => List.map_congr_left fun row _ =>
      Relational.reflag_congr (fun _ => Iff.rfl) same row
  simp only [Db.reflag, rows]

theorem Db.flipCounts_congr {db : Db} {up down down' : List Buffer}
    (same : ∀ k, k ∈ down ↔ k ∈ down') : db.flipCounts up down = db.flipCounts up down' := by
  simp only [Db.flipCounts, Db.countRows, loweredRows_congr same]

/-- A change after another one is a single change. -/
theorem Db.reflag_reflag (kept : ∀ k ∈ up, k ∉ down') (freeUp : ∀ k ∈ up', k ∉ up)
    (freeDown : ∀ k ∈ up', k ∉ down) :
    (db.reflag up down).reflag up' down' = db.reflag (up ++ up') (down ++ down') := by
  have rows : ∀ {α : Type} [Flagged α Buffer] (rows : List α),
      (rows.map (Relational.reflag up down)).map (Relational.reflag up' down') =
        rows.map (Relational.reflag (up ++ up') (down ++ down')) := by
    intro α _ rows
    rw [List.map_map]
    exact List.map_congr_left fun row _ => Relational.reflag_reflag kept row
  apply Db.ext_tables
  · exact rows db.blocks
  · intro table
    rw [rows_reflag, rows_reflag, rows_reflag]
    exact rows (db.rows table)
  · change (db.mempoolTxs.filter _).filter _ = db.mempoolTxs.filter _
    rw [List.filter_filter]
    apply List.filter_congr
    intro pending _
    have later : raisedRows up' (db.reflag up down).txs = raisedRows up' db.txs :=
      raisedRows_map_reflag freeUp freeDown
    rw [later, Bool.eq_iff_iff]
    simp only [Bool.and_eq_true, Bool.not_eq_true', decide_eq_false_iff_not, List.mem_map,
      mem_raisedRows, List.mem_append, not_exists, not_and]
    constructor
    · rintro ⟨later, first⟩ tx ⟨txMem, key, flag⟩
      exact key.elim (fun inUp => first tx ⟨txMem, inUp, flag⟩)
        fun inUp' => later tx ⟨txMem, inUp', flag⟩
    · intro both
      exact ⟨fun tx found => both tx ⟨found.1, Or.inr found.2.1, found.2.2⟩,
        fun tx found => both tx ⟨found.1, Or.inl found.2.1, found.2.2⟩⟩

theorem Db.flipCounts_append (upUp : ∀ k ∈ up, k ∉ up') (freeDown : ∀ k ∈ up', k ∉ down)
    (keptUp : ∀ k ∈ up, k ∉ down') (downDown : ∀ k ∈ down, k ∉ down') :
    db.flipCounts (up ++ up') (down ++ down') =
      db.flipCounts up down + (db.reflag up down).flipCounts up' down' := by
  have raisedLater : ∀ {α : Type} [Flagged α Buffer] (rows : List α),
      raisedRows up' (rows.map (Relational.reflag up down)) = raisedRows up' rows :=
    fun rows => raisedRows_map_reflag (fun k mem inUp => upUp k inUp mem) freeDown
  have loweredLater : ∀ {α : Type} [Flagged α Buffer] (rows : List α),
      loweredRows down' (rows.map (Relational.reflag up down)) = loweredRows down' rows :=
    fun rows => loweredRows_map_reflag (fun k mem inUp => keptUp k inUp mem)
      fun k mem inDown => downDown k inDown mem
  simp only [UpdatedEntities.add_def, EntityCounts.add_def, Db.flipCounts, Db.countRows, Db.reflag,
    raisedLater, loweredLater, length_raisedRows_append upUp, length_loweredRows_append downDown]

end Compose

/-! ## Branches -/

namespace OrphanedBranch

variable {db : Db} {block row : DbBlock Buffer} {branch : List (DbBlock Buffer)}

theorem head (orphaned : OrphanedBranch db block branch) :
    block ∈ db.blocks ∧ block.canonical = false := by
  cases orphaned with
  | last mem canonical _ => exact ⟨mem, canonical⟩
  | next mem canonical _ _ _ => exact ⟨mem, canonical⟩

theorem of_mem (orphaned : OrphanedBranch db block branch) (mem : row ∈ branch) :
    row ∈ db.blocks ∧ row.canonical = false ∧ row.blockHeight ≤ block.blockHeight := by
  induction orphaned with
  | last inBlocks canonical _ =>
      rw [List.mem_singleton.mp mem]
      exact ⟨inBlocks, canonical, Nat.le_refl _⟩
  | next inBlocks canonical below _ _ ih =>
      rcases List.mem_cons.mp mem with rfl | mem
      · exact ⟨inBlocks, canonical, Nat.le_refl _⟩
      · obtain ⟨rowMem, rowCanonical, low⟩ := ih mem
        exact ⟨rowMem, rowCanonical, by omega⟩

/-- Every orphaned block heads a branch. -/
theorem exists_of_mem (mem : block ∈ db.blocks) (canonical : block.canonical = false) :
    ∃ branch, OrphanedBranch db block branch := by
  induction height : block.blockHeight generalizing block with
  | zero =>
      refine ⟨[block], .last mem canonical fun parent _ below => ?_⟩
      omega
  | succ height ih =>
      by_cases found : ∃ parent ∈ db.blocks, parent.blockHeight + 1 = block.blockHeight ∧
          parent.indexBlockHash = block.parentIndexBlockHash ∧ parent.canonical = false
      · obtain ⟨parent, parentMem, below, hash, orphaned⟩ := found
        obtain ⟨branch, rest⟩ := ih parentMem orphaned (by omega)
        exact ⟨block :: branch, .next mem canonical below hash rest⟩
      · refine ⟨[block], .last mem canonical fun parent parentMem below hash => ?_⟩
        by_contra notCanonical
        exact found ⟨parent, parentMem, below, hash, by simpa using notCanonical⟩

/-- A branch does not depend on the blocks above it. -/
theorem congr {db' : Db} (orphaned : OrphanedBranch db block branch) {bound : Nat}
    (same : ∀ row : DbBlock Buffer, row.blockHeight < bound → (row ∈ db.blocks ↔ row ∈ db'.blocks))
    (low : block.blockHeight < bound) : OrphanedBranch db' block branch := by
  induction orphaned with
  | last mem canonical stops =>
      refine .last ((same _ low).mp mem) canonical fun parent parentMem below => ?_
      exact stops parent ((same parent (by omega)).mpr parentMem) below
  | next mem canonical below hash _ ih =>
      exact .next ((same _ low).mp mem) canonical below hash (ih (by omega))

end OrphanedBranch

/-! ## The whole chain -/

section Level

variable {db : Db} {block row : DbBlock Buffer}

/-- The tables after the level of a block. -/
def levelDb (db : Db) (block : DbBlock Buffer) : Db :=
  db.reflag [block.indexBlockHash] (hashes (conflicts db [block]))

/-- A level touches the blocks of its height only. -/
theorem Forked.height_of_touched (forked : Forked db) (mem : block ∈ db.blocks)
    (rowMem : row ∈ db.blocks) (touched : row.indexBlockHash ∈ [block.indexBlockHash] ∨
      row.indexBlockHash ∈ hashes (conflicts db [block])) :
    row.blockHeight = block.blockHeight := by
  rcases touched with up | down
  · rw [forked.eq_of_hash rowMem mem (List.mem_singleton.mp up)]
  · have found := forked.mem_of_hash_mem conflicts_subset rowMem down
    obtain ⟨-, -, owner, ownerMem, height⟩ := mem_conflicts.mp found
    rw [← height, List.mem_singleton.mp ownerMem]

theorem Forked.reflag_of_other_height (forked : Forked db) (mem : block ∈ db.blocks)
    (rowMem : row ∈ db.blocks) (other : row.blockHeight ≠ block.blockHeight) :
    Relational.reflag [block.indexBlockHash] (hashes (conflicts db [block])) row = row :=
  reflag_of_not_mem (fun up => other (forked.height_of_touched mem rowMem (Or.inl up)))
    fun down => other (forked.height_of_touched mem rowMem (Or.inr down))

theorem blockHeight_reflag (up down : List Buffer) (row : DbBlock Buffer) :
    (Relational.reflag up down row).blockHeight = row.blockHeight := by
  have same := congrArg DbBlock.blockHeight (withFlag_reflag true up down row)
  exact same

theorem Forked.mem_levelDb (forked : Forked db) (mem : block ∈ db.blocks)
    (other : row.blockHeight ≠ block.blockHeight) :
    row ∈ db.blocks ↔ row ∈ (levelDb db block).blocks := by
  constructor
  · intro rowMem
    rw [← forked.reflag_of_other_height mem rowMem other]
    exact List.mem_map_of_mem rowMem
  · intro rowMem
    obtain ⟨original, originalMem, rfl⟩ := List.mem_map.mp rowMem
    rw [blockHeight_reflag] at other
    rwa [forked.reflag_of_other_height mem originalMem other]

/-- A canonical block of a level is the restored one. -/
theorem Forked.eq_of_canonical_levelDb (forked : Forked db) (mem : block ∈ db.blocks)
    (rowMem : row ∈ db.blocks) (height : row.blockHeight = block.blockHeight)
    (canonical : (Relational.reflag [block.indexBlockHash] (hashes (conflicts db [block]))
      row).canonical = true) : row = block := by
  by_contra other
  have notUp : Flagged.key row ∉ [block.indexBlockHash] := fun up =>
    other (forked.eq_of_hash rowMem mem (List.mem_singleton.mp up))
  by_cases down : Flagged.key row ∈ hashes (conflicts db [block])
  · rw [reflag_of_mem_down notUp down] at canonical
    cases canonical
  · rw [reflag_of_not_mem notUp down] at canonical
    exact down (List.mem_map_of_mem (mem_conflicts.mpr
      ⟨rowMem, canonical, block, List.mem_singleton_self block, height.symm⟩))

theorem Forked.levelDb (forked : Forked db) (mem : block ∈ db.blocks) :
    Forked (levelDb db block) where
  keys := by
    have same : ((db.reflag [block.indexBlockHash] (hashes (conflicts db [block]))).blocks.map
        DbBlock.indexBlockHash) = db.blocks.map DbBlock.indexBlockHash :=
      map_key_map_reflag _ _ db.blocks
    rw [Datastore.levelDb, same]
    exact forked.keys
  single := by
    intro first firstMem second secondMem firstCanonical secondCanonical same
    obtain ⟨a, aMem, rfl⟩ := List.mem_map.mp firstMem
    obtain ⟨c, cMem, rfl⟩ := List.mem_map.mp secondMem
    rw [blockHeight_reflag, blockHeight_reflag] at same
    by_cases level : a.blockHeight = block.blockHeight
    · rw [forked.eq_of_canonical_levelDb mem aMem level firstCanonical,
        forked.eq_of_canonical_levelDb mem cMem (same.symm.trans level) secondCanonical]
    · rw [forked.reflag_of_other_height mem aMem level] at firstCanonical ⊢
      rw [forked.reflag_of_other_height mem cMem (same ▸ level)] at secondCanonical ⊢
      exact forked.single a aMem c cMem firstCanonical secondCanonical same

/-- What a branch below a block conflicts with is not touched by the level of the block. -/
theorem Forked.conflicts_levelDb (forked : Forked db) (mem : block ∈ db.blocks)
    {branch : List (DbBlock Buffer)} (below : ∀ row ∈ branch, row.blockHeight < block.blockHeight) :
    conflicts (Datastore.levelDb db block) branch = conflicts db branch := by
  have notBelow : ∀ row : DbBlock Buffer, row.blockHeight = block.blockHeight →
      (row.canonical && branch.any fun other => other.blockHeight = row.blockHeight) = false := by
    intro row height
    have none : (branch.any fun other => decide (other.blockHeight = row.blockHeight)) = false := by
      apply List.any_eq_false.mpr
      intro other otherMem same
      have low := below other otherMem
      have equal := of_decide_eq_true same
      omega
    rw [none, Bool.and_false]
  apply filter_map_reflag
  intro row rowMem touched
  have height := forked.height_of_touched mem rowMem touched
  exact ⟨notBelow row height, notBelow _ ((blockHeight_reflag _ _ row).trans height)⟩

theorem mem_hashes_conflicts_cons {branch : List (DbBlock Buffer)} (hash : Buffer) :
    hash ∈ hashes (conflicts db [block]) ++ hashes (conflicts db branch) ↔
      hash ∈ hashes (conflicts db (block :: branch)) := by
  simp only [hashes, List.mem_append, List.mem_map, mem_conflicts, List.mem_singleton,
    List.exists_mem_cons_iff]
  constructor
  · rintro (⟨row, ⟨rowMem, canonical, owner, rfl, height⟩, rfl⟩ |
      ⟨row, ⟨rowMem, canonical, owner, ownerMem, height⟩, rfl⟩)
    · exact ⟨row, ⟨rowMem, canonical, Or.inl height⟩, rfl⟩
    · exact ⟨row, ⟨rowMem, canonical, Or.inr ⟨owner, ownerMem, height⟩⟩, rfl⟩
  · rintro ⟨row, ⟨rowMem, canonical, height | ⟨owner, ownerMem, height⟩⟩, rfl⟩
    · exact Or.inl ⟨row, ⟨rowMem, canonical, block, rfl, height⟩, rfl⟩
    · exact Or.inr ⟨row, ⟨rowMem, canonical, owner, ownerMem, height⟩, rfl⟩

end Level

/-- Restoring a block and then the branch below it is one change. -/
theorem reflag_cons {db : Db} {block parent : DbBlock Buffer} {branch : List (DbBlock Buffer)}
    (forked : Forked db) (mem : block ∈ db.blocks) (orphaned : block.canonical = false)
    (below : parent.blockHeight + 1 = block.blockHeight) (rest : OrphanedBranch db parent branch) :
    (levelDb db block).reflag (hashes branch) (hashes (conflicts db branch)) =
        db.reflag (hashes (block :: branch)) (hashes (conflicts db (block :: branch))) ∧
      db.flipCounts [block.indexBlockHash] (hashes (conflicts db [block])) +
          (levelDb db block).flipCounts (hashes branch) (hashes (conflicts db branch)) =
        db.flipCounts (hashes (block :: branch)) (hashes (conflicts db (block :: branch))) := by
  have kept : ∀ k ∈ [block.indexBlockHash], k ∉ hashes (conflicts db branch) := by
    intro k kMem
    rw [List.mem_singleton.mp kMem]
    exact hash_not_mem_conflicts forked mem orphaned branch
  have upUp : ∀ k ∈ [block.indexBlockHash], k ∉ hashes branch := by
    intro k kMem inBranch
    obtain ⟨row, rowMem, rfl⟩ := List.mem_map.mp inBranch
    obtain ⟨rowBlocks, -, low⟩ := rest.of_mem rowMem
    rw [forked.eq_of_hash rowBlocks mem (List.mem_singleton.mp kMem)] at low
    omega
  have freeDown : ∀ k ∈ hashes branch, k ∉ hashes (conflicts db [block]) := by
    intro k kMem
    obtain ⟨row, rowMem, rfl⟩ := List.mem_map.mp kMem
    obtain ⟨rowBlocks, rowOrphaned, -⟩ := rest.of_mem rowMem
    exact hash_not_mem_conflicts forked rowBlocks rowOrphaned [block]
  have downDown : ∀ k ∈ hashes (conflicts db [block]), k ∉ hashes (conflicts db branch) := by
    intro k first second
    obtain ⟨row, rowMem, rfl⟩ := List.mem_map.mp first
    have again := forked.mem_of_hash_mem conflicts_subset (conflicts_subset rowMem) second
    obtain ⟨-, -, owner, ownerMem, height⟩ := mem_conflicts.mp rowMem
    obtain ⟨-, -, other, otherMem, otherHeight⟩ := mem_conflicts.mp again
    obtain ⟨-, -, low⟩ := rest.of_mem otherMem
    rw [List.mem_singleton.mp ownerMem] at height
    omega
  have all : ∀ k, k ∈ hashes (conflicts db [block]) ++ hashes (conflicts db branch) ↔
      k ∈ hashes (conflicts db (block :: branch)) := mem_hashes_conflicts_cons
  constructor
  · rw [levelDb, Db.reflag_reflag kept (fun k inBranch single => upUp k single inBranch) freeDown]
    exact Db.reflag_congr all
  · rw [levelDb, ← Db.flipCounts_append upUp freeDown kept downDown]
    exact Db.flipCounts_congr all

/-- Restoring the head of a branch restores the branch. -/
theorem restoreOrphanedChain_branch {db : Db} {block : DbBlock Buffer}
    {branch : List (DbBlock Buffer)} (forked : Forked db)
    (isBranch : OrphanedBranch db block branch)
    {depth : Nat} (enough : block.blockHeight < depth) (updated : UpdatedEntities) :
    restoreOrphanedChain depth db block.indexBlockHash updated =
      .ok (db.reflag (hashes branch) (hashes (conflicts db branch)),
        updated + db.flipCounts (hashes branch) (hashes (conflicts db branch))) := by
  induction branch generalizing db block updated depth with
  | nil => cases isBranch
  | cons first others ih =>
      obtain rfl : block = first := by cases isBranch <;> rfl
      obtain ⟨mem, orphaned⟩ := isBranch.head
      obtain ⟨depth, rfl⟩ : ∃ less, depth = less + 1 := ⟨depth - 1, by omega⟩
      rw [restoreOrphanedChain, restoreOrphanedBlock_eq forked mem orphaned]
      simp only [bind, Except.bind]
      have below : ∀ row : DbBlock Buffer, row.blockHeight + 1 = block.blockHeight →
          (row ∈ db.blocks ↔ row ∈ (levelDb db block).blocks) :=
        fun row below => forked.mem_levelDb mem (by omega)
      cases isBranch with
      | last _ _ stops =>
          have none : orphanedParents (levelDb db block) (withCanonical true block) = [] := by
            apply List.eq_nil_iff_forall_not_mem.mpr
            intro parent found
            obtain ⟨parentMem, heights, hash, notCanonical⟩ := mem_orphanedParents.mp found
            rw [stops parent ((below parent heights).mpr parentMem) heights hash] at notCanonical
            cases notCanonical
          rw [levelDb] at none
          rw [none]
          rfl
      | @next _ parent _ _ _ heights hash rest =>
          obtain ⟨parentMem, parentOrphaned⟩ := rest.head
          have found : parent ∈ orphanedParents (levelDb db block) (withCanonical true block) :=
            mem_orphanedParents.mpr
              ⟨(below parent heights).mp parentMem, heights, hash, parentOrphaned⟩
          have leveled := forked.levelDb mem
          have single := orphanedParents_eq_singleton leveled.keys found
          have restLeveled := rest.congr
            (fun row low => forked.mem_levelDb mem (Nat.ne_of_lt low)) (by omega)
          have enoughBelow : parent.blockHeight < depth := by omega
          have restored := ih leveled restLeveled enoughBelow
            (updated + db.flipCounts [block.indexBlockHash] (hashes (conflicts db [block])))
          have lower : ∀ row ∈ others, row.blockHeight < block.blockHeight := fun row rowMem => by
            have low := (rest.of_mem rowMem).2.2
            omega
          obtain ⟨tables, counts⟩ := reflag_cons forked mem orphaned heights rest
          rw [forked.conflicts_levelDb mem lower, tables, UpdatedEntities.add_assoc,
            counts] at restored
          rw [levelDb] at single
          rw [single]
          exact restored

/-- With unique index hashes and at most one canonical block a height, restoring an
orphaned block terminates.  It makes the block and its orphaned ancestors canonical and
the canonical blocks at their heights non-canonical, with the rows of the other tables
that belong to them; removes the ids of the transactions that become canonical from the
mempool; changes nothing else; and counts the rows whose flag changed. -/
theorem restoreOrphanedChain_effect {db : Db} {block : DbBlock Buffer} (forked : Forked db)
    (mem : block ∈ db.blocks) (orphaned : block.canonical = false) (updated : UpdatedEntities) :
    (∃ branch, OrphanedBranch db block branch) ∧
      ∀ branch, OrphanedBranch db block branch → ∀ depth, block.blockHeight < depth →
        restoreOrphanedChain depth db block.indexBlockHash updated =
          .ok (db.reflag (hashes branch) (hashes (conflicts db branch)),
            updated + db.flipCounts (hashes branch) (hashes (conflicts db branch))) := by
  refine ⟨OrphanedBranch.exists_of_mem mem orphaned, ?_⟩
  intro branch isBranch depth enough
  exact restoreOrphanedChain_branch forked isBranch enough updated

/-- A chain of three blocks, and a fork of the last two of them. -/
def deepFork : List DataStoreUpdateData :=
  [coinbaseBlock "0x11" "0x00" 1, coinbaseBlock "0x21" "0x11" 2, coinbaseBlock "0x31" "0x21" 3,
    coinbaseBlock "0x22" "0x11" 2, coinbaseBlock "0x32" "0x22" 3]

/-- A block of the fork. -/
def forkRow (blockHash parentBlockHash : Buffer) (blockHeight : Nat) : DbBlock Buffer where
  blockHash
  burnBlockTime := 1594647996
  indexBlockHash := blockHash
  parentIndexBlockHash := parentBlockHash
  parentBlockHash
  parentMicroblock := []
  blockHeight
  canonical := false

/-- Both blocks of the fork take the places of the others. -/
theorem restoreOrphanedChain_deepFork :
    OrphanedBranch (runUpdates deepFork) (forkRow [0x32] [0x22] 3)
        [forkRow [0x32] [0x22] 3, forkRow [0x22] [0x11] 2] ∧
      restoreOrphanedChain 4 (runUpdates deepFork) [0x32] {} =
        .ok ((runUpdates deepFork).reflag [[0x32], [0x22]] [[0x21], [0x31]],
          { markedCanonical := ⟨2, 2, 2, 2, 2, 2, 2⟩
            markedNonCanonical := ⟨2, 2, 2, 2, 2, 2, 2⟩ }) := by
  have top : forkRow [0x32] [0x22] 3 ∈ (runUpdates deepFork).blocks := by decide +kernel
  have below : forkRow [0x22] [0x11] 2 ∈ (runUpdates deepFork).blocks := by decide +kernel
  have branch : OrphanedBranch (runUpdates deepFork) (forkRow [0x32] [0x22] 3)
      [forkRow [0x32] [0x22] 3, forkRow [0x22] [0x11] 2] :=
    .next top rfl rfl rfl (.last below rfl (by decide +kernel))
  have restored := (restoreOrphanedChain_effect ⟨by decide +kernel, by decide +kernel⟩ top rfl
    {}).2 _ branch 4 (by decide)
  have conflict : hashes (conflicts (runUpdates deepFork)
      [forkRow [0x32] [0x22] 3, forkRow [0x22] [0x11] 2]) = [[0x21], [0x31]] := by
    decide +kernel
  have counts : ({} : UpdatedEntities) + (runUpdates deepFork).flipCounts [[0x32], [0x22]]
      [[0x21], [0x31]] = { markedCanonical := ⟨2, 2, 2, 2, 2, 2, 2⟩
                           markedNonCanonical := ⟨2, 2, 2, 2, 2, 2, 2⟩ } := by
    decide +kernel
  rw [conflict] at restored
  refine ⟨branch, restored.trans ?_⟩
  rw [← counts]
  rfl

end StacksApi.Datastore
