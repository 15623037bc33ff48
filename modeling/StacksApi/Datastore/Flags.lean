import StacksApi.Datastore.Rows

/-!
# Canonical flags of the other tables

Every row of the six tables that repeat the canonical flag belongs to a stored
block and has the flag of that block.  A reorganisation keeps this because it
exchanges the flags of one block at a time in all tables, an insertion because
all rows of an update have the flag of its block.
-/

namespace StacksApi.Datastore

open StacksApi.Binary
open StacksApi.Chain
open StacksApi.Relational
open StacksApi.Transition
open CanonicalEntity

/-- The entries of the update name its block and are flagged canonical, as
`handleClientMessage` builds them. -/
def DataStoreUpdateData.Carries (data : DataStoreUpdateData) : Prop :=
  ∀ entry ∈ data.txs, entry.Carries data.block.indexBlockHash true

/-- The rows of the tables belong to stored blocks and have their flags. -/
structure RowsInvariant (db : Db) (flag : Buffer → Bool) : Prop where
  follows : ∀ table, Follows flag (db.rows table)
  attached : ∀ table, ∀ row ∈ db.rows table, ∃ b ∈ db.links, b.hash = Flagged.key row

theorem RowsInvariant.empty (flag : Buffer → Bool) : RowsInvariant Db.empty flag where
  follows table row mem := by cases table <;> cases mem
  attached table row mem := by cases table <;> cases mem

section Step

variable {db reorged pruned db' : Db} {flag flag' : Buffer → Bool} {data : DataStoreUpdateData}
variable {row : DbBlock Buffer}

theorem settled_carries (carries : data.Carries) :
    ∀ entry ∈ (data.settled db).txs,
      entry.Carries data.block.indexBlockHash (decide (Heightens db data)) := by
  intro entry mem
  rw [DataStoreUpdateData.settled] at mem
  by_cases high : Heightens db data
  · rw [if_pos high] at mem
    rw [decide_eq_true high]
    exact carries entry mem
  · rw [if_neg high] at mem
    obtain ⟨original, originalMem, rfl⟩ := List.mem_map.mp mem
    rw [decide_eq_false high]
    exact (carries original originalMem).markNonCanonical

/-- The rows that an update computes belong to its block and have its flag. -/
theorem Accepted.inBlockRows (accepted : Accepted db data reorged pruned row db')
    (canonical : data.block.canonical = true) (carries : data.Carries) {rows : List EntryRows}
    (computed : (data.settled db).txs.mapM entryRows = .ok rows) :
    ∀ entry ∈ rows, ∀ table,
      InBlockRows row.indexBlockHash (decide (Heightens db data)) (entry.rows table) := by
  intro entry mem table
  obtain ⟨source, sourceMem, ok⟩ := mem_of_mapM_ok computed mem
  exact (entryRows_ok ok).inBlockRows (settled_carries carries source sourceMem)
    (accepted.decodedBlock canonical).1 table

/-- The rows of the entries of a new block come to those that the pruned tables have kept. -/
theorem Accepted.rows_inserted (accepted : Accepted db data reorged pruned row db')
    (canonical : data.block.canonical = true) (carries : data.Carries) {rows : List EntryRows}
    (computed : (data.settled db).txs.mapM entryRows = .ok rows)
    (fresh : ∀ tx ∈ reorged.txs, tx.indexBlockHash ≠ row.indexBlockHash) (table : EntityTable) :
    (rows.foldl Db.addEntry { pruned with blocks := pruned.blocks ++ [row] }).rows table =
      reorged.rows table ++ insertedRows rows table := by
  have inBlock : ∀ entry ∈ rows, entry.tx.indexBlockHash = row.indexBlockHash := by
    intro entry mem
    exact (accepted.inBlockRows canonical carries computed entry mem .txs entry.tx
      (List.mem_singleton_self _)).1
  have sameTxs : pruned.txs = reorged.txs := accepted.rows_pruned .txs
  have samePruned : ({ pruned with blocks := pruned.blocks ++ [row] } : Db).rows table =
      reorged.rows table := by
    rw [← accepted.rows_pruned]
    cases table <;> rfl
  rw [← samePruned]
  rw [← sameTxs] at fresh
  exact @rows_foldl_addEntry rows row.indexBlockHash
    { pruned with blocks := pruned.blocks ++ [row] } inBlock fresh table

/-- The tables of an extended store are those before the insertion, and the rows
of the entries. -/
theorem Extended.rows (extended : Extended db reorged pruned db' flag flag' data row)
    (accepted : Accepted db data reorged pruned row db') (canonical : data.block.canonical = true)
    (carries : data.Carries)
    (attached : ∀ tx ∈ db.txs, ∃ b ∈ db.links, b.hash = tx.indexBlockHash) :
    ∃ rows, (data.settled db).txs.mapM entryRows = .ok rows ∧
      ∀ table, db'.rows table = reorged.rows table ++ insertedRows rows table := by
  obtain ⟨rows, computed, rfl⟩ := extended.entries
  refine ⟨rows, computed, ?_⟩
  obtain ⟨counts, handled⟩ := accepted.reorg
  apply accepted.rows_inserted canonical carries computed
  intro tx mem
  obtain ⟨original, originalMem, sameHash⟩ :=
    exists_key_of_raised_eq ((handleReorg_remarked handled).rows .txs) mem
  obtain ⟨b, bMem, bHash⟩ := attached original originalMem
  have txHash : b.hash = tx.indexBlockHash := bHash.trans sameHash
  rw [← txHash]
  exact extended.fresh b bMem

theorem Extended.rowsInvariant (extended : Extended db reorged pruned db' flag flag' data row)
    (accepted : Accepted db data reorged pruned row db') (canonical : data.block.canonical = true)
    (carries : data.Carries) (invariant : RowsInvariant db flag) :
    RowsInvariant db'
      (Function.update flag' row.indexBlockHash (decide (Heightens db data))) := by
  obtain ⟨rows, computed, tables⟩ :=
    extended.rows accepted canonical carries (invariant.attached .txs)
  obtain ⟨counts, handled⟩ := accepted.reorg
  have inserted : ∀ table, InBlockRows row.indexBlockHash (decide (Heightens db data))
      (insertedRows rows table) := by
    intro table added mem
    obtain ⟨entry, entryMem, inEntry⟩ := mem_insertedRows mem
    exact accepted.inBlockRows canonical carries computed entry entryMem table added inEntry
  have stored : ∀ table, ∀ old ∈ reorged.rows table, ∃ b ∈ db.links, b.hash = Flagged.key old := by
    intro table old mem
    obtain ⟨original, originalMem, sameHash⟩ :=
      exists_key_of_raised_eq ((handleReorg_remarked handled).rows table) mem
    rw [← sameHash]
    exact invariant.attached table original originalMem
  constructor
  · intro table
    rw [tables]
    apply Follows.append
    · apply (extended.prepared.rows table (invariant.follows table)).congr
      intro old mem
      obtain ⟨b, bMem, bHash⟩ := stored table old mem
      rw [← bHash]
      exact Function.update_of_ne (extended.fresh b bMem) _ _
    · intro added mem
      obtain ⟨hash, value⟩ := inserted table added mem
      rw [hash, value, Function.update_self]
  · intro table old mem
    rw [tables] at mem
    rw [extended.links]
    rcases List.mem_append.mp mem with before | added
    · obtain ⟨b, bMem, bHash⟩ := stored table old before
      exact ⟨b, List.mem_append_left _ bMem, bHash⟩
    · exact ⟨row.link, List.mem_append_right _ (List.mem_singleton_self _),
        (inserted table old added).1.symm⟩

end Step

/-! ## Runs -/

/-- Both invariants hold after every run. -/
theorem runUpdates_rowsInvariant {updates : List DataStoreUpdateData}
    (consistent : Consistent updates) (carries : ∀ data ∈ updates, data.Carries) :
    ∃ flag, ChainInvariant (runUpdates updates) flag ∧
      RowsInvariant (runUpdates updates) flag := by
  obtain ⟨flag, invariant, -, rows⟩ := @runUpdates_induction
    (fun updates db flag => (∀ data ∈ updates, data.Carries) → RowsInvariant db flag)
    (fun _ => RowsInvariant.empty _)
    (fun past data db flag _ holds _ carries =>
      holds fun earlier mem => carries earlier (List.mem_append_left _ mem))
    (fun past data db reorged pruned row db' flag flag' consistent _ holds accepted extended
        carries => by
      have last : data ∈ past ++ [data] := List.mem_append_right _ (List.mem_singleton_self _)
      apply extended.rowsInvariant accepted (consistent.canonical data last) (carries data last)
      exact holds fun earlier mem => carries earlier (List.mem_append_left _ mem))
    updates consistent
  exact ⟨flag, invariant, rows carries⟩

/-- A block row has the given index hash, and every such row has the given flag. -/
def BlockFlag (db : Db) (indexBlockHash : Buffer) (value : Bool) : Prop :=
  (∃ block ∈ db.blocks, block.indexBlockHash = indexBlockHash) ∧
    ∀ block ∈ db.blocks, block.indexBlockHash = indexBlockHash → block.canonical = value

/-- The flag of every row is that of the block row with its index hash. -/
structure FlagsAgree (db : Db) : Prop where
  txs : ∀ row ∈ db.txs, BlockFlag db row.indexBlockHash row.canonical
  stxEvents : ∀ row ∈ db.stxEvents, BlockFlag db row.indexBlockHash row.entity.canonical
  ftEvents : ∀ row ∈ db.ftEvents, BlockFlag db row.indexBlockHash row.entity.canonical
  nftEvents : ∀ row ∈ db.nftEvents, BlockFlag db row.indexBlockHash row.entity.canonical
  contractLogs : ∀ row ∈ db.contractLogs, BlockFlag db row.indexBlockHash row.entity.canonical
  smartContracts : ∀ row ∈ db.smartContracts,
    BlockFlag db row.indexBlockHash row.entity.canonical

/-- After every run, the flags of the six tables are those of `blocks`. -/
theorem runUpdates_flagsAgree {updates : List DataStoreUpdateData}
    (consistent : Consistent updates) (carries : ∀ data ∈ updates, data.Carries) :
    FlagsAgree (runUpdates updates) := by
  obtain ⟨flag, chain, rows⟩ := runUpdates_rowsInvariant consistent carries
  have agree : ∀ table, ∀ row ∈ (runUpdates updates).rows table,
      BlockFlag (runUpdates updates) (Flagged.key row) (Flagged.flag row) := by
    intro table row mem
    obtain ⟨b, bMem, bHash⟩ := rows.attached table row mem
    obtain ⟨block, blockMem, rfl⟩ := List.mem_map.mp bMem
    refine ⟨⟨block, blockMem, bHash⟩, ?_⟩
    intro other otherMem sameHash
    rw [rows.follows table row mem, ← sameHash]
    exact chain.blocks other otherMem
  exact ⟨agree .txs, agree .stxEvents, agree .ftEvents, agree .nftEvents, agree .contractLogs,
    agree .smartContracts⟩

/-- A coinbase entry of a block with one event of each kind and a contract. -/
def coinbaseEntry (indexBlockHash : String) (blockHeight : Nat) : TxEntry where
  tx :=
    { txId := "0x0a", rawTx := [], typeId := .coinbase, status := .success
      postConditions := [0x01, 0, 0, 0, 0], feeRate := 0, senderAddress := "ST1"
      originHashMode := 0
      sponsored := false, sponsorAddress := none, coinbasePayload := some []
      indexBlockHash, blockHash := indexBlockHash, blockHeight, burnBlockTime := 1594647996
      txIndex := 0, rawResult := some "0x03", canonical := true }
  stxEvents :=
    [{ eventIndex := 0, txId := "0x0a", txIndex := 0, blockHeight, canonical := true
       assetEventTypeId := .mint, sender := none, recipient := some "ST1", amount := 1000 }]
  ftEvents :=
    [{ eventIndex := 1, txId := "0x0a", txIndex := 0, blockHeight, canonical := true
       assetEventTypeId := .mint, sender := none, recipient := some "ST1"
       assetIdentifier := "ST1.token::coin", amount := 5 }]
  nftEvents :=
    [{ eventIndex := 2, txId := "0x0a", txIndex := 0, blockHeight, canonical := true
       assetEventTypeId := .mint, sender := none, recipient := some "ST1"
       assetIdentifier := "ST1.art::piece", value := [0x03] }]
  contractLogEvents :=
    [{ eventIndex := 3, txId := "0x0a", txIndex := 0, blockHeight, canonical := true
       contractIdentifier := "ST1.token", topic := "print", value := [0x03] }]
  smartContracts :=
    [{ txId := "0x0a", canonical := true, contractId := "ST1.token", blockHeight
       sourceCode := "()", abi := "null" }]

theorem coinbaseEntry_carries (indexBlockHash : String) (blockHeight : Nat) :
    (coinbaseEntry indexBlockHash blockHeight).Carries indexBlockHash true where
  indexBlockHash := rfl
  tx := rfl
  stxEvents event mem := by rw [List.mem_singleton.mp mem]
  ftEvents event mem := by rw [List.mem_singleton.mp mem]
  nftEvents event mem := by rw [List.mem_singleton.mp mem]
  contractLogEvents event mem := by rw [List.mem_singleton.mp mem]
  smartContracts contract mem := by rw [List.mem_singleton.mp mem]

/-- A transfer for which the sender of the coinbase pays a fee. -/
def transferEntry (indexBlockHash : String) (blockHeight : Nat) : TxEntry where
  tx :=
    { (coinbaseEntry indexBlockHash blockHeight).tx with
      txId := "0x0b", typeId := .tokenTransfer, feeRate := 7, coinbasePayload := none
      tokenTransferRecipientAddress := some "ST2", tokenTransferAmount := some 100
      tokenTransferMemo := some [] }
  stxEvents :=
    [{ eventIndex := 0, txId := "0x0b", txIndex := 0, blockHeight, canonical := true
       assetEventTypeId := .transfer, sender := some "ST1", recipient := some "ST2"
       amount := 100 }]
  ftEvents := []
  nftEvents := []
  contractLogEvents := []
  smartContracts := []

theorem transferEntry_carries (indexBlockHash : String) (blockHeight : Nat) :
    (transferEntry indexBlockHash blockHeight).Carries indexBlockHash true where
  indexBlockHash := rfl
  tx := rfl
  stxEvents event mem := by rw [List.mem_singleton.mp mem]
  ftEvents _ mem := (List.not_mem_nil mem).elim
  nftEvents _ mem := (List.not_mem_nil mem).elim
  contractLogEvents _ mem := (List.not_mem_nil mem).elim
  smartContracts _ mem := (List.not_mem_nil mem).elim

/-- An update with one entry. -/
def coinbaseBlock (indexBlockHash parentIndexBlockHash : String) (blockHeight : Nat) :
    DataStoreUpdateData :=
  { emptyBlock indexBlockHash parentIndexBlockHash blockHeight with
    txs := [coinbaseEntry indexBlockHash blockHeight] }

/-- The forked blocks with one entry each. -/
def forkedCoinbases : List DataStoreUpdateData :=
  [coinbaseBlock "0x11" "0x00" 1, coinbaseBlock "0x21" "0x11" 2, coinbaseBlock "0x22" "0x11" 2,
    coinbaseBlock "0x32" "0x22" 3]

theorem forkedCoinbases_carries : ∀ data ∈ forkedCoinbases, data.Carries := by
  have each : ∀ indexBlockHash parentIndexBlockHash blockHeight,
      (coinbaseBlock indexBlockHash parentIndexBlockHash blockHeight).Carries := by
    intro indexBlockHash parentIndexBlockHash blockHeight entry mem
    rw [List.mem_singleton.mp mem]
    exact coinbaseEntry_carries indexBlockHash blockHeight
  intro data mem
  simp only [forkedCoinbases, List.mem_cons, List.not_mem_nil, or_false] at mem
  rcases mem with rfl | rfl | rfl | rfl <;> exact each _ _ _

theorem forkedCoinbases_consistent : Consistent forkedCoinbases :=
  consistent_of_checked (by decide) (by decide)

/-- Flags after the reorganisation of the forked blocks. -/
theorem runUpdates_forkedCoinbases :
    FlagsAgree (runUpdates forkedCoinbases) ∧
      (runUpdates forkedCoinbases).stxEvents.map
        (fun row => (row.indexBlockHash, row.entity.canonical)) =
          [([0x11], true), ([0x21], false), ([0x22], true), ([0x32], true)] :=
  ⟨runUpdates_flagsAgree forkedCoinbases_consistent forkedCoinbases_carries, by decide⟩

end StacksApi.Datastore
