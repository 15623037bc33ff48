import StacksApi.Datastore.Flags

/-!
# Updates that can be stored

An update is admissible when its byte strings can be decoded and the tables
admit its rows, which does not depend on what is stored.  An admissible update
is accepted as soon as its parent is stored one height below, and an update that
is not admissible never adds anything.
-/

namespace StacksApi.Datastore

open StacksApi.Binary
open StacksApi.Chain
open StacksApi.Relational
open StacksApi.Transition
open CanonicalEntity

/-- The rows of the update can be computed and are admitted. -/
def DataStoreUpdateData.Admissible (data : DataStoreUpdateData) : Prop :=
  ∃ row entries, blockRow data.block = .ok row ∧ data.txs.mapM entryRows = .ok entries

/-! ## Admitted rows -/

section Rows

variable {α : Type} {table txId : String} {admitted : α → Bool} {tx : DbTx String}

theorem succeeds_admitRow_iff {row : α} :
    Succeeds (admitRow table admitted row) ↔ admitted row = true := by
  rw [admitRow]
  split <;> simp_all

theorem succeeds_inBlockRow_iff {entity : Buffer → α} {value : Bool}
    (same : ∀ buffer, admitted (entity buffer) = value) :
    Succeeds (inBlockRow table admitted tx txId entity) ↔
      Succeeds (hexToBuffer txId) ∧ Succeeds (hexToBuffer tx.indexBlockHash) ∧ value = true := by
  refine succeeds_bind_of_iff fun buffer => ?_
  refine succeeds_bind_of_iff fun indexBlockHash => ?_
  rw [succeeds_bind_of_total fun _ => succeeds_pure _, succeeds_admitRow_iff, same]

theorem succeeds_txRow_iff :
    Succeeds (txRow tx) ↔ Succeeds (hexToBuffer tx.txId) ∧
      Succeeds (hexToBuffer tx.indexBlockHash) ∧ Succeeds (hexToBuffer tx.blockHash) ∧
      Succeeds (rawResultColumn tx.rawResult) ∧ tx.admitted = true := by
  refine succeeds_bind_of_iff fun txId => ?_
  refine succeeds_bind_of_iff fun indexBlockHash => ?_
  refine succeeds_bind_of_iff fun blockHash => ?_
  refine succeeds_bind_of_iff fun rawResult => ?_
  exact succeeds_admitRow_iff

theorem succeeds_blockRow_iff {block : DbBlock String} :
    Succeeds (blockRow block) ↔ Succeeds (hexToBuffer block.blockHash) ∧
      Succeeds (hexToBuffer block.indexBlockHash) ∧
      Succeeds (hexToBuffer block.parentIndexBlockHash) ∧
      Succeeds (hexToBuffer block.parentBlockHash) ∧
      Succeeds (hexToBuffer block.parentMicroblock) ∧ block.admitted = true := by
  refine succeeds_bind_of_iff fun blockHash => ?_
  refine succeeds_bind_of_iff fun indexBlockHash => ?_
  refine succeeds_bind_of_iff fun parentIndexBlockHash => ?_
  refine succeeds_bind_of_iff fun parentBlockHash => ?_
  refine succeeds_bind_of_iff fun parentMicroblock => ?_
  exact succeeds_admitRow_iff

theorem succeeds_entryRows_iff {entry : TxEntry} :
    Succeeds (entryRows entry) ↔ Succeeds (txRow entry.tx) ∧
      (∀ event ∈ entry.stxEvents, Succeeds (stxEventRow entry.tx event)) ∧
      (∀ event ∈ entry.ftEvents, Succeeds (ftEventRow entry.tx event)) ∧
      (∀ event ∈ entry.nftEvents, Succeeds (nftEventRow entry.tx event)) ∧
      (∀ event ∈ entry.contractLogEvents, Succeeds (contractLogRow entry.tx event)) ∧
      ∀ contract ∈ entry.smartContracts, Succeeds (smartContractRow entry.tx contract) := by
  simp only [← succeeds_mapM_iff]
  refine succeeds_bind_of_iff fun tx => ?_
  refine succeeds_bind_of_iff fun stxEvents => ?_
  refine succeeds_bind_of_iff fun ftEvents => ?_
  refine succeeds_bind_of_iff fun nftEvents => ?_
  refine succeeds_bind_of_iff fun contractLogs => ?_
  exact succeeds_bind_of_total fun _ => succeeds_pure _

/-- A mempool insertion is refused for its own row only. -/
theorem succeeds_updateMempoolTx {db : Db} {mempoolTx : DbMempoolTx String} :
    Succeeds (updateMempoolTx db mempoolTx) ↔ Succeeds (mempoolTxRow mempoolTx) := by
  apply succeeds_bind_of_total
  intro row
  split
  split
  · exact succeeds_pure _
  · exact succeeds_pure _

end Rows

/-- An event of a stored transaction is stored when its table admits it. -/
theorem succeeds_eventRow_iff {α : Type} {table txId : String} {admitted : α → Bool}
    {entity : Buffer → α} {value : Bool} {tx : DbTx String} (stored : Succeeds (txRow tx))
    (own : txId = tx.txId) (same : ∀ buffer, admitted (entity buffer) = value) :
    Succeeds (inBlockRow table admitted tx txId entity) ↔ value = true := by
  obtain ⟨txIdOk, hash, -⟩ := succeeds_txRow_iff.mp stored
  rw [succeeds_inBlockRow_iff same, own]
  exact (and_iff_right txIdOk).trans (and_iff_right hash)

theorem DataStoreUpdateData.admissible_iff {data : DataStoreUpdateData} :
    data.Admissible ↔ Succeeds (blockRow data.block) ∧
      ∀ entry ∈ data.txs, Succeeds (entryRows entry) := by
  rw [← succeeds_mapM_iff]
  constructor
  · rintro ⟨row, entries, decoded, computed⟩
    exact ⟨⟨row, decoded⟩, entries, computed⟩
  · rintro ⟨⟨row, decoded⟩, entries, computed⟩
    exact ⟨row, entries, decoded, computed⟩

/-! ## Rows of the settled data -/

theorem DbBlock.admitted_withCanonical {ι : Type} (value : Bool) (block : DbBlock ι) :
    (withCanonical value block).admitted = block.admitted :=
  rfl

theorem DbBlock.withBuffers_withCanonical (value : Bool) (block : DbBlock String)
    (blockHash indexBlockHash parentIndexBlockHash parentBlockHash parentMicroblock : Buffer) :
    DbBlock.withBuffers (withCanonical value block) blockHash indexBlockHash parentIndexBlockHash
        parentBlockHash parentMicroblock =
      withCanonical value (block.withBuffers blockHash indexBlockHash parentIndexBlockHash
        parentBlockHash parentMicroblock) :=
  rfl

theorem blockRow_withCanonical (value : Bool) (block : DbBlock String) :
    blockRow (withCanonical value block) = (blockRow block).map (withCanonical value) := by
  have unfolded : blockRow (withCanonical value block) = (do
      let blockHash ← hexToBuffer block.blockHash
      let indexBlockHash ← hexToBuffer block.indexBlockHash
      let parentIndexBlockHash ← hexToBuffer block.parentIndexBlockHash
      let parentBlockHash ← hexToBuffer block.parentBlockHash
      let parentMicroblock ← hexToBuffer block.parentMicroblock
      admitRow "blocks" DbBlock.admitted (DbBlock.withBuffers (withCanonical value block) blockHash
        indexBlockHash parentIndexBlockHash parentBlockHash parentMicroblock)) := rfl
  rw [unfolded, blockRow]
  simp only [Except.map_bind, DbBlock.withBuffers_withCanonical,
    admitRow_map (DbBlock.admitted_withCanonical value)]

theorem blockRow_settled (db : Db) (data : DataStoreUpdateData) :
    blockRow (data.settled db).block = (blockRow data.block).map fun row =>
      if Heightens db data then row else withCanonical false row := by
  rw [settled_block]
  by_cases high : Heightens db data
  · simp only [if_pos high, Except.map_self]
  · simp only [if_neg high]
    exact blockRow_withCanonical false data.block

theorem mapM_entryRows_settled (db : Db) (data : DataStoreUpdateData) :
    (data.settled db).txs.mapM entryRows = (data.txs.mapM entryRows).map fun rows =>
      if Heightens db data then rows else rows.map EntryRows.markNonCanonical := by
  rw [DataStoreUpdateData.settled]
  by_cases high : Heightens db data
  · simp only [if_pos high, Except.map_self]
  · simp only [if_neg high]
    exact mapM_map_of_commute entryRows_markNonCanonical data.txs

/-- Rows that agree up to flags stay so when entries are added that do. -/
theorem raised_addEntry {db db' : Db} {rows rows' : EntryRows}
    (same : ∀ table, raised (db.rows table) = raised (db'.rows table))
    (sameRows : ∀ table, raised (rows.rows table) = raised (rows'.rows table))
    (table : EntityTable) :
    raised ((db.addEntry rows).rows table) = raised ((db'.addEntry rows').rows table) := by
  have appended : ∀ {α : Type} [Flagged α Buffer] {old old' new new' : List α},
      raised old = raised old' → raised new = raised new' →
        raised (old ++ new) = raised (old' ++ new') := by
    intro α _ old old' new new' sameOld sameNew
    rw [raised_append, raised_append, sameOld, sameNew]
  cases table with
  | txs =>
      have conflicts : ∀ (row : DbTx Buffer) (stored : List (DbTx Buffer)),
          stored.any (sameInclusion row) =
            (raised stored).any (sameInclusion (withCanonical true row)) := by
        intro row stored
        rw [raised, List.any_map]
        rfl
      have txs : raised db.txs = raised db'.txs := same .txs
      have tx : raised [rows.tx] = raised [rows'.tx] := sameRows .txs
      have raisedTx : withCanonical true rows.tx = withCanonical true rows'.tx :=
        List.singleton_inj.mp tx
      change raised (insertRow sameInclusion rows.tx db.txs).1 =
        raised (insertRow sameInclusion rows'.tx db'.txs).1
      rw [insertRow, insertRow, conflicts rows.tx, conflicts rows'.tx, txs, raisedTx]
      split
      · exact txs
      · exact appended txs tx
  | stxEvents => exact appended (same .stxEvents) (sameRows .stxEvents)
  | ftEvents => exact appended (same .ftEvents) (sameRows .ftEvents)
  | nftEvents => exact appended (same .nftEvents) (sameRows .nftEvents)
  | contractLogs => exact appended (same .contractLogs) (sameRows .contractLogs)
  | smartContracts => exact appended (same .smartContracts) (sameRows .smartContracts)

theorem raised_rows_markNonCanonical (rows : EntryRows) (table : EntityTable) :
    raised (rows.markNonCanonical.rows table) = raised (rows.rows table) := by
  cases table with
  | txs => rfl
  | stxEvents => exact raised_map_withFlag false rows.stxEvents
  | ftEvents => exact raised_map_withFlag false rows.ftEvents
  | nftEvents => exact raised_map_withFlag false rows.nftEvents
  | contractLogs => exact raised_map_withFlag false rows.contractLogs
  | smartContracts => exact raised_map_withFlag false rows.smartContracts

/-- Lowering the flags of entries lowers those of the rows they add. -/
theorem raised_insertedRows_markNonCanonical (entries : List EntryRows) (table : EntityTable) :
    raised (insertedRows (entries.map EntryRows.markNonCanonical) table) =
      raised (insertedRows entries table) := by
  have general : ∀ db db' : Db, (∀ table, raised (db.rows table) = raised (db'.rows table)) →
      ∀ table, raised (((entries.map EntryRows.markNonCanonical).foldl Db.addEntry db).rows table) =
        raised ((entries.foldl Db.addEntry db').rows table) := by
    induction entries with
    | nil => exact fun _ _ same => same
    | cons rows entries ih =>
        intro db db' same
        exact ih _ _ (raised_addEntry same (raised_rows_markNonCanonical rows))
  exact general Db.empty Db.empty (fun _ => rfl) table

/-! ## Acceptance -/

/-- The ids of admissible entries can be decoded. -/
theorem candidateTxIds_ok {data : DataStoreUpdateData} {entries : List EntryRows}
    (computed : data.txs.mapM entryRows = .ok entries) :
    ∃ buffers, (candidateTxIds data).mapM hexToBuffer = .ok buffers := by
  apply exists_mapM_ok
  intro txId mem
  obtain ⟨entry, entryMem, rfl⟩ := List.mem_map.mp mem
  obtain ⟨rows, -, ok⟩ := exists_of_mapM_ok computed (List.mem_filter.mp entryMem).1
  exact ⟨rows.tx.txId, (txRow_ok (entryRows_ok ok).tx).txId⟩

theorem pruneNewlyMined_ok {db : Db} {data : DataStoreUpdateData} {buffers : List Buffer}
    (decoded : (candidateTxIds data).mapM hexToBuffer = .ok buffers) :
    pruneNewlyMined db data = .ok (db.withoutMempoolTxs buffers) := by
  have pruned : ∃ removed, pruneMempoolTxs db (candidateTxIds data) =
      .ok (db.withoutMempoolTxs buffers, removed) := by
    cases ids : candidateTxIds data with
    | nil =>
        rw [ids] at decoded
        cases decoded
        exact pruneMempoolTxs_hex db []
    | cons first rest =>
        rw [ids] at decoded
        rw [pruneMempoolTxs, decoded]
        · exact ⟨_, rfl⟩
        · simp
  obtain ⟨removed, ok⟩ := pruned
  rw [pruneNewlyMined, ok]
  rfl

theorem storeBlock_accepts {db : Db} {data : DataStoreUpdateData} {row : DbBlock Buffer}
    {entries : List EntryRows} (decoded : blockRow data.block = .ok row)
    (computed : data.txs.mapM entryRows = .ok entries) : ∃ db', storeBlock db data = .ok db' := by
  rw [storeBlock, updateBlock, decoded]
  simp only [bind, Except.bind, pure, Except.pure]
  split
  · rw [foldlM_updateEntry, computed]
    exact ⟨_, rfl⟩
  · exact ⟨_, rfl⟩

/-- An admissible update is accepted when it passes `handleReorg`. -/
theorem update_accepts {db reorged : Db} {data : DataStoreUpdateData} {counts : UpdatedEntities}
    (admissible : data.Admissible)
    (handled :
      handleReorg db data.block (getChainTipHeight db).blockHeight = .ok (reorged, counts)) :
    ∃ db' events, update db data = .ok (db', events) := by
  obtain ⟨row, entries, decoded, computed⟩ := admissible
  have settledBlock : ∃ row', blockRow (data.settled db).block = .ok row' :=
    ⟨_, by rw [blockRow_settled, decoded]; rfl⟩
  have settledEntries : ∃ entries', (data.settled db).txs.mapM entryRows = .ok entries' :=
    ⟨_, by rw [mapM_entryRows_settled, computed]; rfl⟩
  obtain ⟨row', decoded'⟩ := settledBlock
  obtain ⟨entries', computed'⟩ := settledEntries
  obtain ⟨buffers, ids⟩ := candidateTxIds_ok computed
  rw [update, handled]
  by_cases high : Heightens db data
  · have isCanonical :
        decide (data.block.blockHeight > (getChainTipHeight db).blockHeight) = true :=
      decide_eq_true high
    rw [DataStoreUpdateData.settled, if_pos high] at decoded' computed'
    obtain ⟨stored, store⟩ :=
      @storeBlock_accepts (reorged.withoutMempoolTxs buffers) data row' entries' decoded' computed'
    simp only [bind, Except.bind, isCanonical, if_true, pruneNewlyMined_ok ids, store]
    exact ⟨_, _, rfl⟩
  · have notCanonical :
        decide (data.block.blockHeight > (getChainTipHeight db).blockHeight) = false :=
      decide_eq_false high
    rw [DataStoreUpdateData.settled, if_neg high] at decoded' computed'
    obtain ⟨stored, store⟩ :=
      @storeBlock_accepts reorged data.markNonCanonical row' entries' decoded' computed'
    simp only [bind, Except.bind, notCanonical, Bool.false_eq_true, if_false, pure, Except.pure,
      store]
    exact ⟨_, _, rfl⟩

/-- The block of the update is new to the store. -/
def NewBlock (db : Db) (block : DbBlock String) : Prop :=
  ∀ stored ∈ db.blocks, hexToBuffer block.indexBlockHash ≠ .ok stored.indexBlockHash

theorem Accepted.entries_of_newBlock {db reorged pruned db' : Db} {data : DataStoreUpdateData}
    {row : DbBlock Buffer} (accepted : Accepted db data reorged pruned row db')
    (isNew : NewBlock db data.block) :
    ∃ rows, (data.settled db).txs.mapM entryRows = .ok rows := by
  rcases accepted.store with ⟨⟨stored, mem, same⟩, -⟩ | ⟨-, rows, computed, -⟩
  · obtain ⟨counts, handled⟩ := accepted.reorg
    rw [accepted.blocks_pruned] at mem
    obtain ⟨original, originalMem, sameKey⟩ :=
      exists_key_of_raised_eq (handleReorg_remarked handled).blocks mem
    have sameHash : original.indexBlockHash = row.indexBlockHash := sameKey.trans same
    have decoded := accepted.decoded
    rw [blockRow_settled] at decoded
    obtain ⟨unsettled, decoded, settled⟩ := Except.map_eq_ok.mp decoded
    have hash : unsettled.indexBlockHash = row.indexBlockHash := by
      rw [← settled]
      split <;> rfl
    exact absurd ((blockRow_ok decoded).indexBlockHash.trans
      (congrArg Except.ok (hash.trans sameHash.symm))) (isNew original originalMem)
  · exact ⟨rows, computed⟩

/-- An update with a new block is accepted when it passes `handleReorg` and is
admissible. -/
theorem succeeds_update_iff {db : Db} {data : DataStoreUpdateData}
    (isNew : NewBlock db data.block) :
    Succeeds (update db data) ↔
      Succeeds (handleReorg db data.block (getChainTipHeight db).blockHeight) ∧
        data.Admissible := by
  constructor
  · rintro ⟨⟨db', events⟩, ok⟩
    obtain ⟨-, reorged, pruned, row, accepted⟩ := update_ok ok
    obtain ⟨counts, handled⟩ := accepted.reorg
    obtain ⟨rows, computed⟩ := accepted.entries_of_newBlock isNew
    have decoded := accepted.decoded
    rw [blockRow_settled] at decoded
    rw [mapM_entryRows_settled] at computed
    obtain ⟨unsettled, decoded, -⟩ := Except.map_eq_ok.mp decoded
    obtain ⟨entries, computed, -⟩ := Except.map_eq_ok.mp computed
    exact ⟨⟨_, handled⟩, unsettled, entries, decoded, computed⟩
  · rintro ⟨⟨⟨reorged, counts⟩, handled⟩, admissible⟩
    obtain ⟨db', events, ok⟩ := update_accepts admissible handled
    exact ⟨_, ok⟩

/-- Under the invariant of the canonical chain, an admissible update is accepted
when its parent is stored. -/
theorem ChainInvariant.update_accepts {db : Db} {flag : Buffer → Bool}
    (invariant : ChainInvariant db flag) {data : DataStoreUpdateData}
    (admissible : data.Admissible)
    (parentStored : 1 < data.block.blockHeight → ∃ p ∈ db.links,
      hexToBuffer data.block.parentIndexBlockHash = .ok p.hash ∧
        p.height + 1 = data.block.blockHeight) :
    ∃ db' events, update db data = .ok (db', events) := by
  have tip := invariant.getChainTipHeight_blockHeight
  rcases handleReorg_cases invariant data.block with
    ⟨high, error, undecoded, -⟩ | ⟨⟨high, parentHash, decoded, missing⟩, -⟩ |
    ⟨reorged, counts, flag', handled, -⟩
  · obtain ⟨p, -, decoded, -⟩ := parentStored high
    rw [undecoded] at decoded
    cases decoded
  · obtain ⟨p, mem, decoded', below⟩ := parentStored high
    rw [decoded] at decoded'
    exact absurd below (missing p mem (Except.ok.inj decoded').symm)
  · exact Datastore.update_accepts admissible (tip ▸ handled)

section Step

variable {db reorged pruned db' : Db} {flag flag' : Buffer → Bool} {data : DataStoreUpdateData}
variable {row : DbBlock Buffer}

/-- What an update adds was admissible, and its rows are those of the delivered
data up to their flags. -/
theorem Extended.admissible (extended : Extended db reorged pruned db' flag flag' data row)
    (accepted : Accepted db data reorged pruned row db') :
    ∃ original entries, blockRow data.block = .ok original ∧
      data.txs.mapM entryRows = .ok entries ∧
      withCanonical true row = withCanonical true original ∧
      ∀ rows, (data.settled db).txs.mapM entryRows = .ok rows →
        ∀ table, raised (insertedRows rows table) = raised (insertedRows entries table) := by
  obtain ⟨rows, computed, -⟩ := extended.entries
  have decoded := accepted.decoded
  rw [blockRow_settled] at decoded
  rw [mapM_entryRows_settled] at computed
  cases block : blockRow data.block with
  | error error =>
      rw [block] at decoded
      cases decoded
  | ok original =>
      cases entriesOk : data.txs.mapM entryRows with
      | error error =>
          rw [entriesOk] at computed
          cases computed
      | ok entries =>
          refine ⟨original, entries, rfl, rfl, ?_, ?_⟩
          · rw [block] at decoded
            have row_eq : (if Heightens db data then original else withCanonical false original) =
                row := Except.ok.inj decoded
            rw [← row_eq]
            split <;> rfl
          · intro rows' computed' table
            rw [mapM_entryRows_settled, entriesOk] at computed'
            have rows_eq : (if Heightens db data then entries
                else entries.map EntryRows.markNonCanonical) = rows' := Except.ok.inj computed'
            rw [← rows_eq]
            split
            · rfl
            · exact raised_insertedRows_markNonCanonical entries table

end Step

end StacksApi.Datastore
