import StacksApi.Datastore.ChainRun

/-!
# The rows of an update

The rows that the entries of an update add to each table depend on the entries
only, as long as the block is new, and marking the entries as non-canonical
changes nothing but the flags of these rows.
-/

namespace StacksApi.Datastore

open StacksApi.Binary
open StacksApi.Relational
open StacksApi.Transition
open CanonicalEntity

/-- The rows of an entry for one of the tables. -/
def EntryRows.rows (rows : EntryRows) : (table : EntityTable) → List table.Row
  | .txs => [rows.tx]
  | .stxEvents => rows.stxEvents
  | .ftEvents => rows.ftEvents
  | .nftEvents => rows.nftEvents
  | .contractLogs => rows.contractLogs
  | .smartContracts => rows.smartContracts

/-! ## Computing the rows -/

/-- What `txRow` keeps of a record. -/
structure DecodedTx (tx : DbTx String) (row : DbTx Buffer) : Prop where
  txId : hexToBuffer tx.txId = .ok row.txId
  indexBlockHash : hexToBuffer tx.indexBlockHash = .ok row.indexBlockHash
  blockHash : hexToBuffer tx.blockHash = .ok row.blockHash
  rawResult : rawResultColumn tx.rawResult = .ok row.rawResult
  columns : row = tx.withBuffers row.txId row.indexBlockHash row.blockHash row.rawResult
  admitted : row.admitted = true

theorem txRow_ok {tx : DbTx String} {row : DbTx Buffer} (decoded : txRow tx = .ok row) :
    DecodedTx tx row := by
  rw [txRow] at decoded
  obtain ⟨txId, txIdOk, decoded⟩ := Except.bind_eq_ok.mp decoded
  obtain ⟨indexBlockHash, hashOk, decoded⟩ := Except.bind_eq_ok.mp decoded
  obtain ⟨blockHash, blockOk, decoded⟩ := Except.bind_eq_ok.mp decoded
  obtain ⟨rawResult, resultOk, decoded⟩ := Except.bind_eq_ok.mp decoded
  rw [admitRow] at decoded
  split at decoded
  · next admitted =>
      cases decoded
      exact ⟨txIdOk, hashOk, blockOk, resultOk, rfl, admitted⟩
  · cases decoded

theorem inBlockRow_ok {α : Type} {table txId : String} {admitted : α → Bool} {tx : DbTx String}
    {entity : Buffer → α} {row : InBlock α}
    (decoded : inBlockRow table admitted tx txId entity = .ok row) :
    hexToBuffer tx.indexBlockHash = .ok row.indexBlockHash ∧
      ∃ buffer, hexToBuffer txId = .ok buffer ∧ row.entity = entity buffer ∧
        admitted row.entity = true := by
  rw [inBlockRow] at decoded
  obtain ⟨buffer, txIdOk, decoded⟩ := Except.bind_eq_ok.mp decoded
  obtain ⟨indexBlockHash, hashOk, decoded⟩ := Except.bind_eq_ok.mp decoded
  obtain ⟨value, valueOk, decoded⟩ := Except.bind_eq_ok.mp decoded
  rw [admitRow] at valueOk
  split at valueOk
  · next holds =>
      cases valueOk
      cases decoded
      exact ⟨hashOk, buffer, txIdOk, rfl, holds⟩
  · cases valueOk

/-- What `entryRows` computes for each table. -/
structure DecodedEntry (entry : TxEntry) (rows : EntryRows) : Prop where
  tx : txRow entry.tx = .ok rows.tx
  stxEvents : entry.stxEvents.mapM (stxEventRow entry.tx) = .ok rows.stxEvents
  ftEvents : entry.ftEvents.mapM (ftEventRow entry.tx) = .ok rows.ftEvents
  nftEvents : entry.nftEvents.mapM (nftEventRow entry.tx) = .ok rows.nftEvents
  contractLogs : entry.contractLogEvents.mapM (contractLogRow entry.tx) = .ok rows.contractLogs
  smartContracts :
    entry.smartContracts.mapM (smartContractRow entry.tx) = .ok rows.smartContracts

theorem entryRows_ok {entry : TxEntry} {rows : EntryRows} (decoded : entryRows entry = .ok rows) :
    DecodedEntry entry rows := by
  rw [entryRows] at decoded
  obtain ⟨tx, txOk, decoded⟩ := Except.bind_eq_ok.mp decoded
  obtain ⟨stxEvents, stxOk, decoded⟩ := Except.bind_eq_ok.mp decoded
  obtain ⟨ftEvents, ftOk, decoded⟩ := Except.bind_eq_ok.mp decoded
  obtain ⟨nftEvents, nftOk, decoded⟩ := Except.bind_eq_ok.mp decoded
  obtain ⟨contractLogs, logsOk, decoded⟩ := Except.bind_eq_ok.mp decoded
  obtain ⟨smartContracts, contractsOk, decoded⟩ := Except.bind_eq_ok.mp decoded
  cases decoded
  exact ⟨txOk, stxOk, ftOk, nftOk, logsOk, contractsOk⟩

/-! ## Hash and flag of the rows -/

/-- The entry names its block by the given hash and has one flag throughout. -/
structure TxEntry.Carries (entry : TxEntry) (indexBlockHash : String) (value : Bool) :
    Prop where
  indexBlockHash : entry.tx.indexBlockHash = indexBlockHash
  tx : entry.tx.canonical = value
  stxEvents : ∀ event ∈ entry.stxEvents, event.canonical = value
  ftEvents : ∀ event ∈ entry.ftEvents, event.canonical = value
  nftEvents : ∀ event ∈ entry.nftEvents, event.canonical = value
  contractLogEvents : ∀ event ∈ entry.contractLogEvents, event.canonical = value
  smartContracts : ∀ contract ∈ entry.smartContracts, contract.canonical = value

/-- The rows belong to the block of a hash and have one flag. -/
def InBlockRows (hash : Buffer) (value : Bool) {α : Type} [Flagged α Buffer]
    (rows : List α) : Prop :=
  ∀ row ∈ rows, Flagged.key row = hash ∧ Flagged.flag row = value

theorem TxEntry.Carries.markNonCanonical {entry : TxEntry} {indexBlockHash : String}
    {value : Bool} (carries : entry.Carries indexBlockHash value) :
    entry.markNonCanonical.Carries indexBlockHash false := by
  have lowered : ∀ {α : Type} [CanonicalEntity α] (items : List α),
      ∀ item ∈ items.map (withCanonical false), canonical item = false := by
    intro α _ items item mem
    obtain ⟨original, -, rfl⟩ := List.mem_map.mp mem
    exact canonical_withCanonical false original
  exact
    { indexBlockHash := carries.indexBlockHash
      tx := rfl
      stxEvents := lowered entry.stxEvents
      ftEvents := lowered entry.ftEvents
      nftEvents := lowered entry.nftEvents
      contractLogEvents := lowered entry.contractLogEvents
      smartContracts := lowered entry.smartContracts }

theorem inBlockRows_of_mapM {α β : Type} [CanonicalEntity α] {f : β → Except ApiError (InBlock α)}
    {items : List β} {rows : List (InBlock α)} {hash : Buffer} {value : Bool}
    (computed : items.mapM f = .ok rows)
    (each : ∀ item ∈ items, ∀ row, f item = .ok row →
      row.indexBlockHash = hash ∧ canonical row.entity = value) :
    InBlockRows hash value rows := by
  intro row mem
  obtain ⟨item, itemMem, ok⟩ := mem_of_mapM_ok computed mem
  exact each item itemMem row ok

theorem DecodedEntry.inBlockRows {entry : TxEntry} {rows : EntryRows} {indexBlockHash : String}
    {hash : Buffer} {value : Bool} (decoded : DecodedEntry entry rows)
    (carries : entry.Carries indexBlockHash value)
    (hashOk : hexToBuffer indexBlockHash = .ok hash) (table : EntityTable) :
    InBlockRows hash value (rows.rows table) := by
  have sameHash : ∀ {decodedHash : Buffer},
      hexToBuffer entry.tx.indexBlockHash = .ok decodedHash → decodedHash = hash := by
    intro decodedHash ok
    rw [carries.indexBlockHash, hashOk] at ok
    exact (Except.ok.inj ok).symm
  cases table with
  | txs =>
      intro row mem
      rw [show row = rows.tx from List.mem_singleton.mp mem]
      have tx := txRow_ok decoded.tx
      refine ⟨sameHash tx.indexBlockHash, ?_⟩
      change rows.tx.canonical = value
      rw [tx.columns]
      exact carries.tx
  | stxEvents =>
      apply inBlockRows_of_mapM decoded.stxEvents
      intro event mem row ok
      obtain ⟨hashOk', buffer, -, entity, -⟩ := inBlockRow_ok ok
      rw [entity]
      exact ⟨sameHash hashOk', carries.stxEvents event mem⟩
  | ftEvents =>
      apply inBlockRows_of_mapM decoded.ftEvents
      intro event mem row ok
      obtain ⟨hashOk', buffer, -, entity, -⟩ := inBlockRow_ok ok
      rw [entity]
      exact ⟨sameHash hashOk', carries.ftEvents event mem⟩
  | nftEvents =>
      apply inBlockRows_of_mapM decoded.nftEvents
      intro event mem row ok
      obtain ⟨hashOk', buffer, -, entity, -⟩ := inBlockRow_ok ok
      rw [entity]
      exact ⟨sameHash hashOk', carries.nftEvents event mem⟩
  | contractLogs =>
      apply inBlockRows_of_mapM decoded.contractLogs
      intro event mem row ok
      obtain ⟨hashOk', buffer, -, entity, -⟩ := inBlockRow_ok ok
      rw [entity]
      exact ⟨sameHash hashOk', carries.contractLogEvents event mem⟩
  | smartContracts =>
      apply inBlockRows_of_mapM decoded.smartContracts
      intro contract mem row ok
      obtain ⟨hashOk', buffer, -, entity, -⟩ := inBlockRow_ok ok
      rw [entity]
      exact ⟨sameHash hashOk', carries.smartContracts contract mem⟩

/-! ## Marking entries as non-canonical -/

/-- The rows with their flags lowered. -/
def EntryRows.markNonCanonical (rows : EntryRows) : EntryRows where
  tx := withCanonical false rows.tx
  stxEvents := rows.stxEvents.map (Flagged.withFlag false)
  ftEvents := rows.ftEvents.map (Flagged.withFlag false)
  nftEvents := rows.nftEvents.map (Flagged.withFlag false)
  contractLogs := rows.contractLogs.map (Flagged.withFlag false)
  smartContracts := rows.smartContracts.map (Flagged.withFlag false)

theorem admitRow_map {α : Type} {table : String} {admitted : α → Bool} {change : α → α}
    (sameAdmitted : ∀ row, admitted (change row) = admitted row) (row : α) :
    admitRow table admitted (change row) = (admitRow table admitted row).map change := by
  rw [admitRow, admitRow, sameAdmitted]
  split <;> rfl

theorem DbTx.admitted_withCanonical {ι : Type} (value : Bool) (tx : DbTx ι) :
    (withCanonical value tx).admitted = tx.admitted :=
  rfl

theorem txRow_withCanonical (value : Bool) (tx : DbTx String) :
    txRow (withCanonical value tx) = (txRow tx).map (withCanonical value) := by
  have admitted : ∀ txId indexBlockHash blockHash rawResult,
      admitRow "txs" DbTx.admitted
          (DbTx.withBuffers (withCanonical value tx) txId indexBlockHash blockHash rawResult) =
        (admitRow "txs" DbTx.admitted
          (tx.withBuffers txId indexBlockHash blockHash rawResult)).map (withCanonical value) :=
    fun txId indexBlockHash blockHash rawResult =>
      admitRow_map (DbTx.admitted_withCanonical value)
        (tx.withBuffers txId indexBlockHash blockHash rawResult)
  simp only [txRow, admitted, Except.map_bind]
  rfl

theorem inBlockRow_withCanonical {α : Type} [CanonicalEntity α] {table txId : String}
    {admitted : α → Bool} {tx tx' : DbTx String} {entity entity' : Buffer → α} (value : Bool)
    (sameHash : tx'.indexBlockHash = tx.indexBlockHash)
    (sameEntity : ∀ buffer, entity' buffer = withCanonical value (entity buffer))
    (sameAdmitted : ∀ row, admitted (withCanonical value row) = admitted row) :
    inBlockRow table admitted tx' txId entity' =
      (inBlockRow table admitted tx txId entity).map (Flagged.withFlag value) := by
  simp only [inBlockRow, sameHash, sameEntity, admitRow_map sameAdmitted, Except.map_eq_bind,
    bind_assoc, pure_bind]
  rfl

section MarkEvents

variable (value : Bool) (tx : DbTx String)

theorem stxEventRow_withCanonical (event : DbStxEvent String) :
    stxEventRow (withCanonical value tx) (withCanonical value event) =
      (stxEventRow tx event).map (Flagged.withFlag value) :=
  inBlockRow_withCanonical value rfl (fun _ => rfl) fun _ => rfl

theorem ftEventRow_withCanonical (event : DbFtEvent String) :
    ftEventRow (withCanonical value tx) (withCanonical value event) =
      (ftEventRow tx event).map (Flagged.withFlag value) :=
  inBlockRow_withCanonical value rfl (fun _ => rfl) fun _ => rfl

theorem nftEventRow_withCanonical (event : DbNftEvent String) :
    nftEventRow (withCanonical value tx) (withCanonical value event) =
      (nftEventRow tx event).map (Flagged.withFlag value) :=
  inBlockRow_withCanonical value rfl (fun _ => rfl) fun _ => rfl

theorem contractLogRow_withCanonical (event : DbSmartContractEvent String) :
    contractLogRow (withCanonical value tx) (withCanonical value event) =
      (contractLogRow tx event).map (Flagged.withFlag value) :=
  inBlockRow_withCanonical value rfl (fun _ => rfl) fun _ => rfl

theorem smartContractRow_withCanonical (contract : DbSmartContract String) :
    smartContractRow (withCanonical value tx) (withCanonical value contract) =
      (smartContractRow tx contract).map (Flagged.withFlag value) :=
  inBlockRow_withCanonical value rfl (fun _ => rfl) fun _ => rfl

end MarkEvents

/-- Marking an entry lowers the flags of its rows and changes nothing else. -/
theorem entryRows_markNonCanonical (entry : TxEntry) :
    entryRows entry.markNonCanonical = (entryRows entry).map EntryRows.markNonCanonical := by
  simp only [entryRows, TxEntry.markNonCanonical]
  rw [txRow_withCanonical, mapM_map_of_commute (stxEventRow_withCanonical false entry.tx),
    mapM_map_of_commute (ftEventRow_withCanonical false entry.tx),
    mapM_map_of_commute (nftEventRow_withCanonical false entry.tx),
    mapM_map_of_commute (contractLogRow_withCanonical false entry.tx),
    mapM_map_of_commute (smartContractRow_withCanonical false entry.tx)]
  simp only [Except.map_eq_bind, bind_assoc, pure_bind]
  rfl

/-! ## Adding the rows -/

/-- The rows that entries add to a table without rows of their block. -/
def insertedRows (entries : List EntryRows) (table : EntityTable) : List table.Row :=
  (entries.foldl Db.addEntry Db.empty).rows table

theorem sameInclusion_key {first second : DbTx Buffer} (same : sameInclusion first second = true) :
    first.indexBlockHash = second.indexBlockHash :=
  (of_decide_eq_true same).2

theorem insertRow_append {row : DbTx Buffer} {base rows : List (DbTx Buffer)}
    (fresh : ∀ stored ∈ base, stored.indexBlockHash ≠ row.indexBlockHash) :
    (insertRow sameInclusion row (base ++ rows)).1 =
      base ++ (insertRow sameInclusion row rows).1 := by
  have none : base.any (sameInclusion row) = false := by
    apply List.any_eq_false.mpr
    intro stored mem same
    exact fresh stored mem (sameInclusion_key same).symm
  rw [insertRow, insertRow, List.any_append, none, Bool.false_or]
  split
  · rfl
  · exact List.append_assoc base rows [row]

theorem foldl_addEntry_append {entries : List EntryRows} {hash : Buffer} {base db shifted : Db}
    (inBlock : ∀ rows ∈ entries, rows.tx.indexBlockHash = hash)
    (fresh : ∀ row ∈ base.txs, row.indexBlockHash ≠ hash)
    (append : ∀ table, shifted.rows table = base.rows table ++ db.rows table)
    (table : EntityTable) :
    (entries.foldl Db.addEntry shifted).rows table =
      base.rows table ++ (entries.foldl Db.addEntry db).rows table := by
  induction entries generalizing db shifted with
  | nil => exact append table
  | cons rows entries ih =>
      rw [List.foldl_cons, List.foldl_cons]
      apply ih (fun later mem => inBlock later (List.mem_cons_of_mem _ mem))
      intro table
      cases table with
      | txs =>
          change (insertRow sameInclusion rows.tx shifted.txs).1 =
            base.txs ++ (insertRow sameInclusion rows.tx db.txs).1
          rw [show shifted.txs = base.txs ++ db.txs from append .txs]
          apply insertRow_append
          intro stored mem
          rw [inBlock rows List.mem_cons_self]
          exact fresh stored mem
      | stxEvents =>
          exact (congrArg (· ++ rows.stxEvents) (append .stxEvents)).trans
            (List.append_assoc _ _ _)
      | ftEvents =>
          exact (congrArg (· ++ rows.ftEvents) (append .ftEvents)).trans
            (List.append_assoc _ _ _)
      | nftEvents =>
          exact (congrArg (· ++ rows.nftEvents) (append .nftEvents)).trans
            (List.append_assoc _ _ _)
      | contractLogs =>
          exact (congrArg (· ++ rows.contractLogs) (append .contractLogs)).trans
            (List.append_assoc _ _ _)
      | smartContracts =>
          exact (congrArg (· ++ rows.smartContracts) (append .smartContracts)).trans
            (List.append_assoc _ _ _)

/-- The entries of a new block add their rows to every table. -/
theorem rows_foldl_addEntry {entries : List EntryRows} {hash : Buffer} {db : Db}
    (inBlock : ∀ rows ∈ entries, rows.tx.indexBlockHash = hash)
    (fresh : ∀ row ∈ db.txs, row.indexBlockHash ≠ hash) (table : EntityTable) :
    (entries.foldl Db.addEntry db).rows table = db.rows table ++ insertedRows entries table := by
  apply foldl_addEntry_append inBlock fresh
  intro table
  cases table <;> exact (List.append_nil _).symm

/-- A row of a table after an insertion stood there before or is a row of one of
the entries. -/
theorem mem_rows_foldl_addEntry {entries : List EntryRows} {db : Db} {table : EntityTable}
    {row : table.Row} (mem : row ∈ (entries.foldl Db.addEntry db).rows table) :
    row ∈ db.rows table ∨ ∃ rows ∈ entries, row ∈ rows.rows table := by
  induction entries generalizing db with
  | nil => exact Or.inl mem
  | cons rows entries ih =>
      rcases ih mem with added | ⟨later, laterMem, inLater⟩
      · have cases : row ∈ db.rows table ∨ row ∈ rows.rows table := by
          cases table with
          | txs =>
              change row ∈ (insertRow sameInclusion rows.tx db.txs).1 at added
              rw [insertRow] at added
              split at added
              · exact Or.inl added
              · exact List.mem_append.mp added
          | _ => exact List.mem_append.mp added
        rcases cases with old | new
        · exact Or.inl old
        · exact Or.inr ⟨rows, List.mem_cons_self, new⟩
      · exact Or.inr ⟨later, List.mem_cons_of_mem _ laterMem, inLater⟩

theorem mem_txs_foldl_addEntry {entries : List EntryRows} {db : Db} {row : DbTx Buffer}
    (mem : row ∈ db.txs) : row ∈ (entries.foldl Db.addEntry db).txs := by
  induction entries generalizing db with
  | nil => exact mem
  | cons rows entries ih =>
      apply ih
      change row ∈ (insertRow sameInclusion rows.tx db.txs).1
      rw [insertRow]
      split
      · exact mem
      · exact List.mem_append_left _ mem

/-- The transaction of every entry is included afterwards. -/
theorem exists_inclusion {entries : List EntryRows} (db : Db) {rows : EntryRows}
    (mem : rows ∈ entries) :
    ∃ row ∈ (entries.foldl Db.addEntry db).txs, row.txId = rows.tx.txId ∧
      row.indexBlockHash = rows.tx.indexBlockHash := by
  induction entries generalizing db with
  | nil => cases mem
  | cons first entries ih =>
      rcases List.mem_cons.mp mem with rfl | later
      · have inserted : ∃ row ∈ (db.addEntry rows).txs, row.txId = rows.tx.txId ∧
            row.indexBlockHash = rows.tx.indexBlockHash := by
          change ∃ row ∈ (insertRow sameInclusion rows.tx db.txs).1, _
          cases conflict : db.txs.any (sameInclusion rows.tx) with
          | true =>
              rw [insertRow_of_conflict conflict]
              obtain ⟨row, rowMem, same⟩ := List.any_eq_true.mp conflict
              obtain ⟨sameId, sameHash⟩ := of_decide_eq_true same
              exact ⟨row, rowMem, sameId.symm, sameHash.symm⟩
          | false =>
              rw [insertRow_of_fresh conflict]
              exact ⟨rows.tx, List.mem_append_right _ (List.mem_singleton_self _), rfl, rfl⟩
        obtain ⟨row, rowMem, same⟩ := inserted
        exact ⟨row, @mem_txs_foldl_addEntry entries (db.addEntry rows) row rowMem, same⟩
      · exact ih (db.addEntry first) later

/-- Every added row is a row of one of the entries. -/
theorem mem_insertedRows {entries : List EntryRows} {table : EntityTable} {row : table.Row}
    (mem : row ∈ insertedRows entries table) : ∃ rows ∈ entries, row ∈ rows.rows table := by
  rcases mem_rows_foldl_addEntry mem with old | new
  · cases table <;> cases old
  · exact new

/-- Inserting with a conflict clause keeps the first row of each key. -/
theorem find?_insertRow_sameInclusion (key row : DbTx Buffer) (rows : List (DbTx Buffer)) :
    (insertRow sameInclusion row rows).1.find? (sameInclusion key) =
      (rows ++ [row]).find? (sameInclusion key) := by
  cases conflict : rows.any (sameInclusion row) with
  | false => rw [insertRow_of_fresh conflict]
  | true =>
      rw [insertRow_of_conflict conflict, List.find?_append]
      cases found : rows.find? (sameInclusion key) with
      | some first => rfl
      | none =>
          obtain ⟨stored, mem, same⟩ := List.any_eq_true.mp conflict
          have other : ¬sameInclusion key row = true := by
            intro keyed
            apply List.find?_eq_none.mp found stored mem
            obtain ⟨keyId, keyHash⟩ := of_decide_eq_true keyed
            obtain ⟨sameId, sameHash⟩ := of_decide_eq_true same
            exact decide_eq_true ⟨keyId.trans sameId, keyHash.trans sameHash⟩
          rw [List.find?_cons_of_neg other]
          rfl

theorem find?_foldl_addEntry (key : DbTx Buffer) (entries : List EntryRows) (db : Db) :
    (entries.foldl Db.addEntry db).txs.find? (sameInclusion key) =
      (db.txs ++ entries.map EntryRows.tx).find? (sameInclusion key) := by
  induction entries generalizing db with
  | nil => rw [List.map_nil, List.append_nil, List.foldl_nil]
  | cons rows entries ih =>
      have inserted : (db.addEntry rows).txs.find? (sameInclusion key) =
          (db.txs ++ [rows.tx]).find? (sameInclusion key) :=
        find?_insertRow_sameInclusion key rows.tx db.txs
      rw [List.foldl_cons, ih, List.find?_append, inserted, ← List.find?_append,
        List.append_assoc]
      rfl

/-! ## Where rows come from -/

section Accepted

variable {db reorged pruned db' : Db} {data : DataStoreUpdateData} {row : DbBlock Buffer}

/-- A row after an accepted update stood there after the reorganisation or is a
row of one of the entries. -/
theorem Accepted.mem_reorged_or_entry (accepted : Accepted db data reorged pruned row db')
    (table : EntityTable) {entity : table.Row} (mem : entity ∈ db'.rows table) :
    entity ∈ reorged.rows table ∨ ∃ entry ∈ (data.settled db).txs, ∃ rows,
      DecodedEntry entry rows ∧ entity ∈ rows.rows table := by
  rw [← accepted.rows_pruned]
  rcases accepted.store with ⟨-, rfl⟩ | ⟨-, rows, computed, rfl⟩
  · exact Or.inl mem
  · rcases mem_rows_foldl_addEntry mem with old | ⟨entry, entryMem, new⟩
    · left
      cases table <;> exact old
    · obtain ⟨source, sourceMem, ok⟩ := mem_of_mapM_ok computed entryMem
      exact Or.inr ⟨source, sourceMem, entry, entryRows_ok ok, new⟩

/-- No transaction row is lost. -/
theorem Accepted.exists_tx (accepted : Accepted db data reorged pruned row db')
    {tx : DbTx Buffer} (mem : tx ∈ db.txs) :
    ∃ tx' ∈ db'.txs, withCanonical true tx' = withCanonical true tx := by
  obtain ⟨counts, handled⟩ := accepted.reorg
  obtain ⟨tx', reorgedMem, same⟩ :=
    exists_of_raised_eq ((handleReorg_remarked handled).rows .txs).symm mem
  refine ⟨tx', ?_, same⟩
  have prunedMem : tx' ∈ pruned.txs := by
    rw [show pruned.txs = reorged.txs from accepted.rows_pruned .txs]
    exact reorgedMem
  rcases accepted.store with ⟨-, rfl⟩ | ⟨-, rows, -, rfl⟩
  · exact prunedMem
  · exact mem_txs_foldl_addEntry prunedMem

/-- A block that is not stored is new to the tables that it is added to. -/
theorem Accepted.fresh_pruned (accepted : Accepted db data reorged pruned row db')
    (canonical : data.block.canonical = true)
    (notStored : ∀ stored ∈ db.blocks,
      hexToBuffer data.block.indexBlockHash ≠ .ok stored.indexBlockHash) :
    ∀ stored ∈ pruned.blocks, stored.indexBlockHash ≠ row.indexBlockHash := by
  intro stored mem same
  rw [accepted.blocks_pruned] at mem
  obtain ⟨counts, handled⟩ := accepted.reorg
  obtain ⟨original, originalMem, sameHash⟩ :=
    exists_key_of_raised_eq (handleReorg_remarked handled).blocks mem
  apply notStored original originalMem
  rw [(accepted.decodedBlock canonical).1, ← same]
  exact congrArg Except.ok sameHash.symm

/-- The records of the settled data are those of the data up to their flags. -/
theorem exists_of_mem_settled {entry : TxEntry} (mem : entry ∈ (data.settled db).txs) :
    ∃ original ∈ data.txs, withCanonical true entry.tx = withCanonical true original.tx := by
  rw [DataStoreUpdateData.settled] at mem
  split at mem
  · exact ⟨entry, mem, rfl⟩
  · obtain ⟨original, originalMem, rfl⟩ := List.mem_map.mp mem
    exact ⟨original, originalMem, rfl⟩

/-- The row has the columns of the record of an entry. -/
structure RecordedBy (tx : DbTx Buffer) (entry : TxEntry) : Prop where
  txId : hexToBuffer entry.tx.txId = .ok tx.txId
  columns : tx.toDbTxBase = entry.tx.toDbTxBase.withTxId tx.txId
  blockHeight : tx.blockHeight = entry.tx.blockHeight

theorem RecordedBy.status {tx : DbTx Buffer} {entry : TxEntry} (recorded : RecordedBy tx entry) :
    tx.status = entry.tx.status :=
  congrArg DbTxBase.status recorded.columns

/-- A transaction row after an accepted update is, up to its flag, a row from
before or the row of an entry. -/
theorem Accepted.tx_cases (accepted : Accepted db data reorged pruned row db')
    {tx : DbTx Buffer} (mem : tx ∈ db'.txs) :
    (∃ original ∈ db.txs, withCanonical true original = withCanonical true tx) ∨
      ∃ entry ∈ data.txs, RecordedBy tx entry := by
  obtain ⟨counts, handled⟩ := accepted.reorg
  rcases accepted.mem_reorged_or_entry .txs mem with old | ⟨entry, entryMem, rows, decoded, new⟩
  · exact Or.inl (exists_of_raised_eq ((handleReorg_remarked handled).rows .txs) old)
  · obtain rfl : tx = rows.tx := List.mem_singleton.mp new
    obtain ⟨original, originalMem, same⟩ := exists_of_mem_settled entryMem
    have decodedTx := txRow_ok decoded.tx
    have base : entry.tx.toDbTxBase = original.tx.toDbTxBase :=
      congrArg (fun tx => tx.toDbTxBase) same
    have height : entry.tx.blockHeight = original.tx.blockHeight :=
      congrArg (fun tx => tx.blockHeight) same
    refine Or.inr ⟨original, originalMem, ?_, ?_, ?_⟩
    · rw [← base]
      exact decodedTx.txId
    · rw [← base]
      exact congrArg DbTx.toDbTxBase decodedTx.columns
    · rw [← height]
      exact congrArg DbTx.blockHeight decodedTx.columns

/-- Rows that the constraints admit stay admitted, and new ones are. -/
theorem Accepted.admitted_txs (accepted : Accepted db data reorged pruned row db')
    (all : ∀ tx ∈ db.txs, tx.admitted = true) : ∀ tx ∈ db'.txs, tx.admitted = true := by
  obtain ⟨counts, handled⟩ := accepted.reorg
  intro tx mem
  rcases accepted.mem_reorged_or_entry .txs mem with old | ⟨entry, -, rows, decoded, new⟩
  · obtain ⟨original, originalMem, same⟩ :=
      exists_of_raised_eq ((handleReorg_remarked handled).rows .txs) old
    calc
      DbTx.admitted tx = (withCanonical true tx : DbTx Buffer).admitted :=
        (DbTx.admitted_withCanonical true tx).symm
      _ = (withCanonical true original : DbTx Buffer).admitted :=
        congrArg DbTx.admitted same.symm
      _ = DbTx.admitted original := DbTx.admitted_withCanonical true original
      _ = true := all original originalMem
  · obtain rfl : tx = rows.tx := List.mem_singleton.mp new
    exact (txRow_ok decoded.tx).admitted

end Accepted

end StacksApi.Datastore
