import StacksApi.Datastore.Admissible
import StacksApi.Datastore.Answers

/-!
# Orders of delivery

The blocks of a finite tree may be delivered in any order in which parents come
first.  Which of them end up in the tables does not depend on the order: they are
the storable ones, whose rows are admitted and whose ancestors are storable too.
Their rows agree up to flags, and the flags agree when one storable block is
above all others, since then the tip is the same.
-/

namespace StacksApi.Datastore

open StacksApi.Binary
open StacksApi.Chain
open StacksApi.Relational
open CanonicalEntity

/-! ## Trees of blocks -/

/-- The two blocks have different index hashes. -/
def DataStoreUpdateData.Differs (first second : DataStoreUpdateData) : Prop :=
  ∀ hash, hexToBuffer first.block.indexBlockHash = .ok hash →
    hexToBuffer second.block.indexBlockHash ≠ .ok hash

/-- `p` is the parent of the block, one height below. -/
def DataStoreUpdateData.IsParent (p data : DataStoreUpdateData) : Prop :=
  p.block.blockHeight + 1 = data.block.blockHeight ∧
    ∃ hash, hexToBuffer p.block.indexBlockHash = .ok hash ∧
      hexToBuffer data.block.parentIndexBlockHash = .ok hash

/-- Block messages with different hashes, as `handleClientMessage` passes them on. -/
structure BlockTree (updates : List DataStoreUpdateData) : Prop where
  heightPos : ∀ data ∈ updates, 1 ≤ data.block.blockHeight
  canonical : ∀ data ∈ updates, data.block.canonical = true
  carries : ∀ data ∈ updates, data.Carries
  distinct : updates.Pairwise DataStoreUpdateData.Differs

/-- The parent of every block above height one is delivered before the block. -/
def ParentsFirst (updates : List DataStoreUpdateData) : Prop :=
  ∀ past data, past ++ [data] <+: updates → 1 < data.block.blockHeight →
    ∃ p ∈ past, p.IsParent data

theorem ParentsFirst.nil : ParentsFirst [] := by
  intro past data isPrefix
  simp at isPrefix

theorem ParentsFirst.append {updates : List DataStoreUpdateData} {data : DataStoreUpdateData}
    (parentsFirst : ParentsFirst updates)
    (parent : 1 < data.block.blockHeight → ∃ p ∈ updates, p.IsParent data) :
    ParentsFirst (updates ++ [data]) := by
  intro past last isPrefix high
  rcases List.prefix_concat_iff.mp isPrefix with same | earlier
  · obtain ⟨rfl, rfl⟩ := List.append_inj_left' same rfl, List.singleton_inj.mp
      (List.append_inj_right' same rfl)
    exact parent high
  · exact parentsFirst past last earlier high

theorem ParentsFirst.root {updates : List DataStoreUpdateData} {data : DataStoreUpdateData}
    (parentsFirst : ParentsFirst updates) (low : data.block.blockHeight ≤ 1) :
    ParentsFirst (updates ++ [data]) :=
  parentsFirst.append fun high => absurd high (Nat.not_lt.mpr low)

theorem ParentsFirst.child {updates : List DataStoreUpdateData} {p data : DataStoreUpdateData}
    (parentsFirst : ParentsFirst updates) (mem : p ∈ updates) (isParent : p.IsParent data) :
    ParentsFirst (updates ++ [data]) :=
  parentsFirst.append fun _ => ⟨p, mem, isParent⟩

/-- The rows of the block are admitted, and so are those of its ancestors. -/
inductive Storable (updates : List DataStoreUpdateData) : DataStoreUpdateData → Prop
  | root {data : DataStoreUpdateData} (mem : data ∈ updates) (admissible : data.Admissible)
      (low : data.block.blockHeight ≤ 1) : Storable updates data
  | child {data p : DataStoreUpdateData} (mem : data ∈ updates) (admissible : data.Admissible)
      (parent : Storable updates p) (isParent : p.IsParent data) : Storable updates data

namespace Storable

variable {updates : List DataStoreUpdateData} {data : DataStoreUpdateData}

theorem mem (storable : Storable updates data) : data ∈ updates := by
  cases storable with
  | root mem => exact mem
  | child mem => exact mem

theorem admissible (storable : Storable updates data) : data.Admissible := by
  cases storable with
  | root _ admissible => exact admissible
  | child _ admissible => exact admissible

theorem of_subset {updates' : List DataStoreUpdateData} (subset : updates ⊆ updates')
    (storable : Storable updates data) : Storable updates' data := by
  induction storable with
  | root mem admissible low => exact .root (subset mem) admissible low
  | child mem admissible _ isParent ih => exact .child (subset mem) admissible ih isParent

end Storable

theorem DataStoreUpdateData.Differs.symm {first second : DataStoreUpdateData}
    (differs : first.Differs second) : second.Differs first :=
  fun hash secondHash firstHash => differs hash firstHash secondHash

namespace BlockTree

variable {updates : List DataStoreUpdateData}

theorem eq_of_hash (tree : BlockTree updates) {first second : DataStoreUpdateData}
    (firstMem : first ∈ updates) (secondMem : second ∈ updates) {hash : Buffer}
    (firstHash : hexToBuffer first.block.indexBlockHash = .ok hash)
    (secondHash : hexToBuffer second.block.indexBlockHash = .ok hash) : first = second := by
  by_contra different
  have symmetric : Std.Symm DataStoreUpdateData.Differs := ⟨fun _ _ differs => differs.symm⟩
  exact tree.distinct.forall firstMem secondMem different hash firstHash secondHash

theorem consistent (tree : BlockTree updates) : Consistent updates where
  heightPos := tree.heightPos
  canonical := tree.canonical
  identified first firstMem second secondMem hash firstHash secondHash := by
    rw [tree.eq_of_hash firstMem secondMem firstHash secondHash]

theorem perm {updates' : List DataStoreUpdateData} (tree : BlockTree updates)
    (perm : updates.Perm updates') : BlockTree updates' where
  heightPos data mem := tree.heightPos data (perm.mem_iff.mpr mem)
  canonical data mem := tree.canonical data (perm.mem_iff.mpr mem)
  carries data mem := tree.carries data (perm.mem_iff.mpr mem)
  distinct := (perm.pairwise_iff fun differs => differs.symm).mp tree.distinct

end BlockTree

/-! ## What the tables hold -/

/-- The row of the block, flag raised. -/
def DataStoreUpdateData.blockRows (data : DataStoreUpdateData) : List (DbBlock Buffer) :=
  match blockRow data.block with
  | .ok row => [withCanonical true row]
  | .error _ => []

/-- The rows of the entries for a table, flags raised. -/
def DataStoreUpdateData.tableRows (data : DataStoreUpdateData) (table : EntityTable) :
    List table.Row :=
  match data.txs.mapM entryRows with
  | .ok entries => raised (insertedRows entries table)
  | .error _ => []

/-- Up to flags, the tables hold the rows of the listed updates and nothing else. -/
structure Holds (db : Db) (stored : List DataStoreUpdateData) : Prop where
  blocks : raised db.blocks = stored.flatMap DataStoreUpdateData.blockRows
  rows : ∀ table, raised (db.rows table) = stored.flatMap fun data => data.tableRows table
  mempoolTxs : db.mempoolTxs = []

theorem Holds.empty : Holds Db.empty [] where
  blocks := rfl
  rows table := by cases table <;> rfl
  mempoolTxs := rfl

theorem mem_links_of_blocks {db : Db} {stored : List DataStoreUpdateData}
    (blocks : raised db.blocks = stored.flatMap DataStoreUpdateData.blockRows) {b : Link Buffer} :
    b ∈ db.links ↔ ∃ data ∈ stored, ∃ row, blockRow data.block = .ok row ∧ row.link = b := by
  rw [db.links_eq_raised, blocks, List.mem_map]
  constructor
  · rintro ⟨row, rowMem, rfl⟩
    obtain ⟨data, dataMem, inRows⟩ := List.mem_flatMap.mp rowMem
    rw [DataStoreUpdateData.blockRows] at inRows
    cases decoded : blockRow data.block with
    | error error =>
        rw [decoded] at inRows
        cases inRows
    | ok original =>
        rw [decoded] at inRows
        rw [List.mem_singleton.mp inRows]
        exact ⟨data, dataMem, original, decoded, rfl⟩
  · rintro ⟨data, dataMem, row, decoded, rfl⟩
    refine ⟨withCanonical true row, List.mem_flatMap.mpr ⟨data, dataMem, ?_⟩, rfl⟩
    rw [DataStoreUpdateData.blockRows, decoded]
    exact List.mem_singleton_self _

theorem Holds.mem_links {db : Db} {stored : List DataStoreUpdateData} (holds : Holds db stored)
    {b : Link Buffer} :
    b ∈ db.links ↔ ∃ data ∈ stored, ∃ row, blockRow data.block = .ok row ∧ row.link = b :=
  mem_links_of_blocks holds.blocks

/-- A new block adds its rows, up to flags. -/
theorem Extended.raised_tables {db reorged pruned db' : Db} {flag flag' : Buffer → Bool}
    {data : DataStoreUpdateData} {row : DbBlock Buffer} (rowsInvariant : RowsInvariant db flag)
    (extended : Extended db reorged pruned db' flag flag' data row)
    (accepted : Accepted db data reorged pruned row db') (canonical : data.block.canonical = true)
    (carries : data.Carries) :
    raised db'.blocks = raised db.blocks ++ data.blockRows ∧
      ∀ table, raised (db'.rows table) = raised (db.rows table) ++ data.tableRows table := by
  obtain ⟨original, entries, decoded, computed, sameRow, sameRows⟩ := extended.admissible accepted
  obtain ⟨rows, settled, tables⟩ :=
    extended.rows accepted canonical carries (rowsInvariant.attached .txs)
  obtain ⟨counts, handled⟩ := accepted.reorg
  have remarked := handleReorg_remarked handled
  obtain ⟨rows', -, result⟩ := extended.entries
  constructor
  · have blocks : db'.blocks = reorged.blocks ++ [row] := by
      rw [result, Db.blocks_foldl_addEntry, accepted.blocks_pruned]
    have added : raised [row] = data.blockRows := by
      rw [DataStoreUpdateData.blockRows, decoded]
      exact congrArg (fun row => [row]) sameRow
    rw [blocks, raised_append, remarked.blocks, added]
  · intro table
    have added : raised (insertedRows rows table) = data.tableRows table := by
      rw [DataStoreUpdateData.tableRows, computed]
      exact sameRows rows settled table
    rw [tables, raised_append, remarked.rows, added]

theorem Holds.append {db reorged pruned db' : Db} {flag flag' : Buffer → Bool}
    {data : DataStoreUpdateData} {row : DbBlock Buffer} {stored : List DataStoreUpdateData}
    (holds : Holds db stored) (rowsInvariant : RowsInvariant db flag)
    (extended : Extended db reorged pruned db' flag flag' data row)
    (accepted : Accepted db data reorged pruned row db') (canonical : data.block.canonical = true)
    (carries : data.Carries) : Holds db' (stored ++ [data]) := by
  obtain ⟨blocks, tables⟩ := extended.raised_tables rowsInvariant accepted canonical carries
  obtain ⟨counts, handled⟩ := accepted.reorg
  have remarked := handleReorg_remarked handled
  obtain ⟨rows, -, result⟩ := extended.entries
  constructor
  · rw [blocks, holds.blocks, List.flatMap_append, List.flatMap_singleton]
  · intro table
    rw [tables, holds.rows, List.flatMap_append, List.flatMap_singleton]
  · have emptyReorged : reorged.mempoolTxs = [] := by
      apply List.eq_nil_iff_forall_not_mem.mpr
      intro pending mem
      have inDb := remarked.mempoolTxs pending mem
      rw [holds.mempoolTxs] at inDb
      cases inDb
    rw [result, Db.mempoolTxs_foldl_addEntry]
    change pruned.mempoolTxs = []
    by_cases high : Heightens db data
    · obtain ⟨buffers, -, rfl⟩ := accepted.prune high
      rw [Db.withoutMempoolTxs, emptyReorged]
      rfl
    · rw [accepted.keep high]
      exact emptyReorged

/-! ## Runs in a given order -/

section Run

variable {updates : List DataStoreUpdateData}

open Classical in
/-- The delivered updates that are storable. -/
noncomputable def storableOf (updates past : List DataStoreUpdateData) :
    List DataStoreUpdateData :=
  past.filter fun data => Storable updates data

theorem mem_storableOf {past : List DataStoreUpdateData} {data : DataStoreUpdateData} :
    data ∈ storableOf updates past ↔ data ∈ past ∧ Storable updates data := by
  simp [storableOf]

theorem storableOf_append_of_storable {past : List DataStoreUpdateData}
    {data : DataStoreUpdateData} (storable : Storable updates data) :
    storableOf updates (past ++ [data]) = storableOf updates past ++ [data] := by
  simp [storableOf, List.filter_append, storable]

theorem storableOf_append_of_not {past : List DataStoreUpdateData}
    {data : DataStoreUpdateData} (refused : ¬ Storable updates data) :
    storableOf updates (past ++ [data]) = storableOf updates past := by
  simp [storableOf, List.filter_append, refused]

variable {past : List DataStoreUpdateData} {data : DataStoreUpdateData} {db : Db}
variable {flag : Buffer → Bool}

/-- A storable block finds its parent stored when it is delivered. -/
theorem Holds.parentStored (tree : BlockTree updates) (parentsFirst : ParentsFirst updates)
    (isPrefix : past ++ [data] <+: updates) (holds : Holds db (storableOf updates past))
    (storable : Storable updates data) (high : 1 < data.block.blockHeight) :
    ∃ p ∈ db.links, hexToBuffer data.block.parentIndexBlockHash = .ok p.hash ∧
      p.height + 1 = data.block.blockHeight := by
  cases storable with
  | root _ _ low => omega
  | @child _ p _ _ parent isParent =>
      obtain ⟨below, hash, pHash, parentHash⟩ := isParent
      obtain ⟨q, qMem, -, hash', qHash, parentHash'⟩ := parentsFirst past data isPrefix high
      rw [parentHash] at parentHash'
      cases parentHash'
      have inUpdates : q ∈ updates :=
        isPrefix.subset (List.mem_append_left _ qMem)
      have same : p = q := tree.eq_of_hash parent.mem inUpdates pHash qHash
      obtain ⟨row, entries, decoded, -⟩ := parent.admissible
      have rowOk := blockRow_ok decoded
      refine ⟨row.link, holds.mem_links.mpr ⟨p, mem_storableOf.mpr ⟨same ▸ qMem, parent⟩, row,
        decoded, rfl⟩, ?_, ?_⟩
      · have rowHash := rowOk.indexBlockHash
        rw [pHash] at rowHash
        cases rowHash
        exact parentHash
      · change row.blockHeight + 1 = data.block.blockHeight
        rw [rowOk.blockHeight]
        exact below

/-- A skipped update of the tree is not storable. -/
theorem Skipped.not_storable (tree : BlockTree updates) (parentsFirst : ParentsFirst updates)
    (isPrefix : past ++ [data] <+: updates) (invariant : ChainInvariant db flag)
    (holds : Holds db (storableOf updates past)) (skipped : Skipped db data) :
    ¬ Storable updates data := by
  intro storable
  cases skipped with
  | refused error result =>
      obtain ⟨db', events, accepted⟩ := invariant.update_accepts storable.admissible
        (holds.parentStored tree parentsFirst isPrefix storable)
      rw [result] at accepted
      cases accepted
  | repeated b mem hash =>
      obtain ⟨earlier, earlierMem, row, decoded, rfl⟩ := holds.mem_links.mp mem
      have distinct : (past ++ [data]).Pairwise DataStoreUpdateData.Differs :=
        tree.distinct.sublist isPrefix.sublist
      have differs := (List.pairwise_append.mp distinct).2.2 earlier
        (mem_storableOf.mp earlierMem).1 data (List.mem_singleton_self _)
      exact differs row.indexBlockHash (blockRow_ok decoded).indexBlockHash hash

/-- What an update adds is storable. -/
theorem Extended.storable {reorged pruned db' : Db} {flag' : Buffer → Bool}
    {row : DbBlock Buffer} (isPrefix : past ++ [data] <+: updates)
    (holds : Holds db (storableOf updates past))
    (extended : Extended db reorged pruned db' flag flag' data row)
    (accepted : Accepted db data reorged pruned row db') : Storable updates data := by
  have mem : data ∈ updates :=
    isPrefix.subset (List.mem_append_right _ (List.mem_singleton_self _))
  obtain ⟨original, entries, decoded, computed, -⟩ := extended.admissible accepted
  have admissible : data.Admissible := ⟨original, entries, decoded, computed⟩
  rcases Nat.lt_or_ge 1 data.block.blockHeight with high | low
  · obtain ⟨b, bMem, parentHash, below, -⟩ := extended.prepared.parent high
    obtain ⟨p, pMem, row, pDecoded, rfl⟩ := holds.mem_links.mp bMem
    have rowOk := blockRow_ok pDecoded
    refine .child mem admissible (mem_storableOf.mp pMem).2
      ⟨?_, row.indexBlockHash, rowOk.indexBlockHash, parentHash⟩
    rw [← rowOk.blockHeight]
    exact below
  · exact .root mem admissible low

/-- After each prefix of the delivery the tables hold its storable blocks. -/
theorem runUpdates_holds (tree : BlockTree updates) (parentsFirst : ParentsFirst updates)
    {past : List DataStoreUpdateData} (isPrefix : past <+: updates) :
    ∃ flag, ChainInvariant (runUpdates past) flag ∧ RowsInvariant (runUpdates past) flag ∧
      Holds (runUpdates past) (storableOf updates past) := by
  have consistent := tree.consistent.of_subset isPrefix.subset
  obtain ⟨flag, invariant, -, holds⟩ := @runUpdates_induction
    (fun past db flag => past <+: updates →
      RowsInvariant db flag ∧ Holds db (storableOf updates past))
    (fun _ => ⟨RowsInvariant.empty _, Holds.empty⟩)
    (fun past data db flag invariant ih skipped isPrefix => by
      obtain ⟨rows, holds⟩ := ih ((List.prefix_append past [data]).trans isPrefix)
      rw [storableOf_append_of_not
        (skipped.not_storable tree parentsFirst isPrefix invariant holds)]
      exact ⟨rows, holds⟩)
    (fun past data db reorged pruned row db' flag flag' consistent _ ih accepted extended
        isPrefix => by
      obtain ⟨rows, holds⟩ := ih ((List.prefix_append past [data]).trans isPrefix)
      have last : data ∈ past ++ [data] := List.mem_append_right _ (List.mem_singleton_self _)
      have canonical := consistent.canonical data last
      have carries := tree.carries data (isPrefix.subset last)
      rw [storableOf_append_of_storable (extended.storable isPrefix holds accepted)]
      exact ⟨extended.rowsInvariant accepted canonical carries rows,
        holds.append rows extended accepted canonical carries⟩)
    past consistent
  obtain ⟨rows, contents⟩ := holds isPrefix
  exact ⟨flag, invariant, rows, contents⟩

end Run

/-! ## Two orders -/

section Orders

variable {first second : List DataStoreUpdateData}

theorem storableOf_perm (perm : first.Perm second) :
    (storableOf first first).Perm (storableOf second second) := by
  have same : ∀ data, Storable first data ↔ Storable second data := fun data =>
    ⟨Storable.of_subset perm.subset, Storable.of_subset perm.symm.subset⟩
  have filtered : storableOf first second = storableOf second second :=
    List.filter_congr fun data _ => decide_eq_decide.mpr (same data)
  rw [← filtered]
  exact perm.filter _

theorem Holds.raised_perm {db db' : Db} {stored stored' : List DataStoreUpdateData}
    (holds : Holds db stored) (holds' : Holds db' stored') (perm : stored.Perm stored') :
    (raised db.blocks).Perm (raised db'.blocks) ∧
      ∀ table, (raised (db.rows table)).Perm (raised (db'.rows table)) := by
  constructor
  · rw [holds.blocks, holds'.blocks]
    exact perm.flatMap_right _
  · intro table
    rw [holds.rows, holds'.rows]
    exact perm.flatMap_right _

/-- The only highest storable block is the tip. -/
theorem Holds.tip_eq {db : Db} {updates stored : List DataStoreUpdateData}
    (holds : Holds db stored)
    (all : ∀ data, data ∈ stored ↔ Storable updates data) {top : DataStoreUpdateData}
    (unique : ∀ data, Storable updates data →
      (∀ other, Storable updates other → other.block.blockHeight ≤ data.block.blockHeight) →
        data = top) {tip : Link Buffer} (isTip : tip? db.links = some tip) :
    ∃ row, blockRow top.block = .ok row ∧ row.link = tip := by
  obtain ⟨mem, height⟩ := tip?_mem isTip
  obtain ⟨data, dataMem, row, decoded, rfl⟩ := holds.mem_links.mp mem
  have isTop : data = top := by
    apply unique data ((all data).mp dataMem)
    intro other storable
    obtain ⟨otherRow, -, otherDecoded, -⟩ := storable.admissible
    have otherLink : otherRow.link ∈ db.links :=
      holds.mem_links.mpr ⟨other, (all other).mpr storable, otherRow, otherDecoded, rfl⟩
    rw [← (blockRow_ok otherDecoded).blockHeight, ← (blockRow_ok decoded).blockHeight]
    exact Nat.le_trans (height_le_maxHeight otherLink) (Nat.le_of_eq height.symm)
  exact ⟨row, isTop ▸ decoded, rfl⟩

/-- When one storable block is above all others, the order of delivery does not
show in the tables or in the answers of the queries. -/
theorem runUpdates_order (tree : BlockTree first) (perm : first.Perm second)
    (firstOrder : ParentsFirst first) (secondOrder : ParentsFirst second)
    (top : ∃! data, Storable first data ∧
      ∀ other, Storable first other → other.block.blockHeight ≤ data.block.blockHeight) :
    SameTables (runUpdates first) (runUpdates second) ∧
      SameAnswers (runUpdates first) (runUpdates second) := by
  obtain ⟨flag, chain, rows, holds⟩ := runUpdates_holds tree firstOrder (List.prefix_refl first)
  obtain ⟨flag', chain', rows', holds'⟩ :=
    runUpdates_holds (tree.perm perm) secondOrder (List.prefix_refl second)
  obtain ⟨raisedBlocks, raisedRows⟩ := holds.raised_perm holds' (storableOf_perm perm)
  have sameLinks : ∀ b, b ∈ (runUpdates first).links ↔ b ∈ (runUpdates second).links := by
    intro b
    rw [Db.links_eq_raised, Db.links_eq_raised]
    exact (raisedBlocks.map DbBlock.link).mem_iff
  have all : ∀ data, data ∈ storableOf first first ↔ Storable first data := fun data =>
    mem_storableOf.trans ⟨And.right, fun storable => ⟨storable.mem, storable⟩⟩
  have all' : ∀ data, data ∈ storableOf second second ↔ Storable first data := fun data =>
    (storableOf_perm perm).mem_iff.symm.trans (all data)
  obtain ⟨highest, -, unique⟩ := top
  have only : ∀ data, Storable first data →
      (∀ other, Storable first other → other.block.blockHeight ≤ data.block.blockHeight) →
        data = highest := fun data storable above => unique data ⟨storable, above⟩
  have sameTip : ∀ tip tip', tip? (runUpdates first).links = some tip →
      tip? (runUpdates second).links = some tip' → tip = tip' := by
    intro tip tip' isTip isTip'
    obtain ⟨row, decoded, rfl⟩ := holds.tip_eq all only isTip
    obtain ⟨row', decoded', rfl⟩ := holds'.tip_eq all' only isTip'
    rw [decoded] at decoded'
    rw [Except.ok.inj decoded']
  have sameFlag : ∀ b ∈ (runUpdates first).links, flag b.hash = flag' b.hash := fun b mem =>
    flag_eq_of_same_tip chain.grounded chain.canonical chain'.grounded chain'.canonical sameLinks
      sameTip mem
  have sameTables : SameTables (runUpdates first) (runUpdates second) := by
    constructor
    · apply chain.blocks.perm chain'.blocks raisedBlocks
      intro row mem
      exact sameFlag row.link (List.mem_map_of_mem mem)
    · intro table
      apply (rows.follows table).perm (rows'.follows table) (raisedRows table)
      intro row mem
      obtain ⟨b, bMem, hash⟩ := rows.attached table row mem
      rw [← hash]
      exact sameFlag b bMem
  have scan : Scan (runUpdates first) (runUpdates second) :=
    { toSameTables := sameTables
      mempoolTxs := by rw [holds.mempoolTxs, holds'.mempoolTxs] }
  refine ⟨sameTables, scan.sameAnswers chain.canonicalChain ?_⟩
  intro row mem
  exact chain.grounded.heightPos row.link (List.mem_map_of_mem mem)

end Orders

/-! ## Samples -/

theorem isParent_of_checked {p data : DataStoreUpdateData}
    (below : p.block.blockHeight + 1 = data.block.blockHeight)
    (hash : hexToBuffer p.block.indexBlockHash = hexToBuffer data.block.parentIndexBlockHash)
    (decoded : (hexToBuffer p.block.indexBlockHash).toOption.isSome = true) :
    p.IsParent data := by
  cases pHash : hexToBuffer p.block.indexBlockHash with
  | error error =>
      rw [pHash] at decoded
      cases decoded
  | ok buffer => exact ⟨below, buffer, pHash, hash ▸ pHash⟩

theorem blockTree_of_checked {updates : List DataStoreUpdateData}
    (blocks : ∀ data ∈ updates, 1 ≤ data.block.blockHeight ∧ data.block.canonical = true)
    (carries : ∀ data ∈ updates, data.Carries)
    (distinct : updates.Pairwise fun first second =>
      (hexToBuffer first.block.indexBlockHash).toOption ≠
        (hexToBuffer second.block.indexBlockHash).toOption) : BlockTree updates where
  heightPos data mem := (blocks data mem).1
  canonical data mem := (blocks data mem).2
  carries := carries
  distinct := by
    apply distinct.imp
    intro first second different hash firstHash secondHash
    rw [firstHash, secondHash] at different
    exact different rfl

theorem admissible_of_checked {data : DataStoreUpdateData}
    (block : (blockRow data.block).toOption.isSome = true)
    (entries : (data.txs.mapM entryRows).toOption.isSome = true) : data.Admissible := by
  cases decoded : blockRow data.block with
  | error error =>
      rw [decoded] at block
      cases block
  | ok row =>
      cases computed : data.txs.mapM entryRows with
      | error error =>
          rw [computed] at entries
          cases entries
      | ok rows => exact ⟨row, rows, decoded, computed⟩

theorem coinbaseBlock_isParent : (coinbaseBlock "0x11" "0x00" 1).IsParent
    (coinbaseBlock "0x21" "0x11" 2) ∧ (coinbaseBlock "0x11" "0x00" 1).IsParent
    (coinbaseBlock "0x22" "0x11" 2) ∧ (coinbaseBlock "0x22" "0x11" 2).IsParent
    (coinbaseBlock "0x32" "0x22" 3) :=
  ⟨isParent_of_checked (by decide) (by decide) (by decide),
    isParent_of_checked (by decide) (by decide) (by decide),
    isParent_of_checked (by decide) (by decide) (by decide)⟩

/-- The forked blocks with the orphaned one delivered last. -/
def forkedCoinbasesLate : List DataStoreUpdateData :=
  [coinbaseBlock "0x11" "0x00" 1, coinbaseBlock "0x22" "0x11" 2, coinbaseBlock "0x32" "0x22" 3,
    coinbaseBlock "0x21" "0x11" 2]

theorem forkedCoinbases_parentsFirst : ParentsFirst forkedCoinbases := by
  obtain ⟨first, second, third⟩ := coinbaseBlock_isParent
  exact (((ParentsFirst.nil.root (Nat.le_refl 1)).child (by decide) first).child
    (by decide) second).child (by decide) third

theorem forkedCoinbasesLate_parentsFirst : ParentsFirst forkedCoinbasesLate := by
  obtain ⟨first, second, third⟩ := coinbaseBlock_isParent
  exact (((ParentsFirst.nil.root (Nat.le_refl 1)).child (by decide) second).child
    (by decide) third).child (by decide) first

theorem forkedCoinbases_top : ∃! data, Storable forkedCoinbases data ∧ ∀ other,
    Storable forkedCoinbases other → other.block.blockHeight ≤ data.block.blockHeight := by
  obtain ⟨-, second, third⟩ := coinbaseBlock_isParent
  have root : Storable forkedCoinbases (coinbaseBlock "0x11" "0x00" 1) :=
    .root (by decide) (admissible_of_checked (by decide) (by decide)) (by decide)
  have middle : Storable forkedCoinbases (coinbaseBlock "0x22" "0x11" 2) :=
    .child (by decide) (admissible_of_checked (by decide) (by decide)) root second
  have top : Storable forkedCoinbases (coinbaseBlock "0x32" "0x22" 3) :=
    .child (by decide) (admissible_of_checked (by decide) (by decide)) middle third
  have below : ∀ data ∈ forkedCoinbases, data.block.blockHeight ≤ 3 := by decide
  have only : ∀ data ∈ forkedCoinbases, 3 ≤ data.block.blockHeight →
      data = coinbaseBlock "0x32" "0x22" 3 := by decide
  refine ⟨_, ⟨top, fun other storable => below other storable.mem⟩, ?_⟩
  rintro data ⟨storable, above⟩
  exact only data storable.mem (above _ top)

/-- The orphaned block may arrive before or after the reorganisation. -/
theorem runUpdates_forkedCoinbasesLate :
    SameTables (runUpdates forkedCoinbases) (runUpdates forkedCoinbasesLate) ∧
      SameAnswers (runUpdates forkedCoinbases) (runUpdates forkedCoinbasesLate) :=
  runUpdates_order (blockTree_of_checked (by decide) forkedCoinbases_carries (by decide))
    (by decide) forkedCoinbases_parentsFirst forkedCoinbasesLate_parentsFirst forkedCoinbases_top

/-- A block with a contract whose source has a character that no text column takes. -/
def untextualBlock : DataStoreUpdateData :=
  { emptyBlock "0x32" "0x22" 3 with
    txs := [{ coinbaseEntry "0x32" 3 with
      smartContracts :=
        [{ txId := "0x0a", canonical := true, contractId := "ST1.token", blockHeight := 3
           sourceCode := "\x00", abi := "null" }] }] }

theorem untextualBlock_carries : untextualBlock.Carries := by
  intro entry mem
  have carries := coinbaseEntry_carries "0x32" 3
  rw [List.mem_singleton.mp mem]
  exact { carries with
    smartContracts := fun contract contractMem => by rw [List.mem_singleton.mp contractMem] }

/-- The only highest block may be refused, and then the order of the blocks below
it decides which of them is canonical. -/
theorem runUpdates_untextualBlock :
    ∃ first second, BlockTree first ∧ first.Perm second ∧ ParentsFirst first ∧
      ParentsFirst second ∧
      (∃! data, data ∈ first ∧
        ∀ other ∈ first, other.block.blockHeight ≤ data.block.blockHeight) ∧
      ∃ row ∈ (runUpdates first).blocks, row ∉ (runUpdates second).blocks := by
  have first : (emptyBlock "0x11" "0x00" 1).IsParent (emptyBlock "0x21" "0x11" 2) :=
    isParent_of_checked (by decide) (by decide) (by decide)
  have second : (emptyBlock "0x11" "0x00" 1).IsParent (emptyBlock "0x22" "0x11" 2) :=
    isParent_of_checked (by decide) (by decide) (by decide)
  have third : (emptyBlock "0x22" "0x11" 2).IsParent untextualBlock :=
    isParent_of_checked (by decide) (by decide) (by decide)
  refine ⟨[emptyBlock "0x11" "0x00" 1, emptyBlock "0x21" "0x11" 2, emptyBlock "0x22" "0x11" 2,
      untextualBlock],
    [emptyBlock "0x11" "0x00" 1, emptyBlock "0x22" "0x11" 2, emptyBlock "0x21" "0x11" 2,
      untextualBlock], blockTree_of_checked (by decide) ?_ (by decide), by decide, ?_, ?_, ?_,
    by decide⟩
  · intro data mem
    simp only [List.mem_cons, List.not_mem_nil, or_false] at mem
    rcases mem with rfl | rfl | rfl | rfl
    · exact fun entry inBlock => nomatch inBlock
    · exact fun entry inBlock => nomatch inBlock
    · exact fun entry inBlock => nomatch inBlock
    · exact untextualBlock_carries
  · exact (((ParentsFirst.nil.root (Nat.le_refl 1)).child (by decide) first).child
      (by decide) second).child (by decide) third
  · exact (((ParentsFirst.nil.root (Nat.le_refl 1)).child (by decide) second).child
      (by decide) first).child (by decide) third
  · have only : ∀ data ∈ [emptyBlock "0x11" "0x00" 1, emptyBlock "0x21" "0x11" 2,
        emptyBlock "0x22" "0x11" 2, untextualBlock], 3 ≤ data.block.blockHeight →
          data = untextualBlock := by decide
    refine ⟨untextualBlock, by decide, ?_⟩
    rintro data ⟨mem, above⟩
    exact only data mem (above untextualBlock (by decide))

end StacksApi.Datastore
