import StacksApi.Datastore.Answers
import StacksApi.Datastore.Flags

/-!
# The events of a transaction

The events of an entry are split over four tables, and `getTxEvents` merges them
again.  What it yields for an entry of a new block are the events of the entry,
sorted, and no others.
-/

namespace StacksApi.Datastore

open StacksApi.Binary
open StacksApi.Relational
open StacksApi.Transition
open CanonicalEntity

/-! ## Events of an entry -/

/-- An event with its shared columns changed. -/
def DbEvent.mapBase (change : DbEventBase String → DbEventBase String) : DbEvent → DbEvent
  | .stx event => .stx { event with toDbEventBase := change event.toDbEventBase }
  | .ft event => .ft { event with toDbEventBase := change event.toDbEventBase }
  | .nft event => .nft { event with toDbEventBase := change event.toDbEventBase }
  | .smartContractLog event =>
      .smartContractLog { event with toDbEventBase := change event.toDbEventBase }

/-- What all events have. -/
def DbEvent.base : DbEvent → DbEventBase String
  | .stx event => event.toDbEventBase
  | .ft event => event.toDbEventBase
  | .nft event => event.toDbEventBase
  | .smartContractLog event => event.toDbEventBase

theorem DbEvent.eventIndex_eq (event : DbEvent) : event.eventIndex = event.base.eventIndex := by
  cases event <;> rfl

@[simp]
theorem DbEvent.base_mapBase (change : DbEventBase String → DbEventBase String)
    (event : DbEvent) : (event.mapBase change).base = change event.base := by
  cases event <;> rfl

/-- The events of an entry, kind by kind. -/
def TxEntry.events (entry : TxEntry) : List DbEvent :=
  entry.stxEvents.map .stx ++ entry.ftEvents.map .ft ++ entry.nftEvents.map .nft ++
    entry.contractLogEvents.map .smartContractLog

theorem events_markNonCanonical (entry : TxEntry) :
    entry.markNonCanonical.events =
      entry.events.map (DbEvent.mapBase fun base => { base with canonical := false }) := by
  simp only [TxEntry.events, TxEntry.markNonCanonical, List.map_append, List.map_map]
  rfl

/-! ## Rows as events -/

/-- A row of `stx_events` as an event. -/
def readStxEvent (event : DbStxEvent Buffer) : DbEvent :=
  .stx { event with
    toDbAssetEvent := event.toDbAssetEvent.withTxId (bufferToHexPrefixString event.txId) }

/-- A row of `ft_events` as an event. -/
def readFtEvent (event : DbFtEvent Buffer) : DbEvent :=
  .ft { event with
    toDbContractAssetEvent :=
      event.toDbContractAssetEvent.withTxId (bufferToHexPrefixString event.txId) }

/-- A row of `nft_events` as an event. -/
def readNftEvent (event : DbNftEvent Buffer) : DbEvent :=
  .nft { event with
    toDbContractAssetEvent :=
      event.toDbContractAssetEvent.withTxId (bufferToHexPrefixString event.txId) }

/-- A row of `contract_logs` as an event. -/
def readContractLog (event : DbSmartContractEvent Buffer) : DbEvent :=
  .smartContractLog { event with
    toDbEventBase := event.toDbEventBase.withTxId (bufferToHexPrefixString event.txId) }

/-- What `getTxEvents` reads before it sorts. -/
def readTxEvents (db : Db) (txId indexBlockHash : Buffer) : List DbEvent :=
  (ofTx (fun event => event.txId) txId indexBlockHash db.stxEvents).map readStxEvent ++
    (ofTx (fun event => event.txId) txId indexBlockHash db.ftEvents).map readFtEvent ++
    (ofTx (fun event => event.txId) txId indexBlockHash db.nftEvents).map readNftEvent ++
    (ofTx (fun event => event.txId) txId indexBlockHash db.contractLogs).map readContractLog

theorem getTxEvents_eq {db : Db} {txId indexBlockHash : String} {txIdBuffer blockHash : Buffer}
    (txIdOk : hexToBuffer txId = .ok txIdBuffer)
    (blockHashOk : hexToBuffer indexBlockHash = .ok blockHash) :
    getTxEvents db txId indexBlockHash = .ok ((readTxEvents db txIdBuffer blockHash).insertionSort
      fun a b => a.eventIndex ≤ b.eventIndex) := by
  rw [getTxEvents, txIdOk, blockHashOk]
  rfl

/-- The rows of an entry as events. -/
def EntryRows.events (rows : EntryRows) : List DbEvent :=
  rows.stxEvents.map (fun row => readStxEvent row.entity) ++
    rows.ftEvents.map (fun row => readFtEvent row.entity) ++
    rows.nftEvents.map (fun row => readNftEvent row.entity) ++
    rows.contractLogs.map (fun row => readContractLog row.entity)

/-- The events of the entry name its transaction. -/
def TxEntry.Owns (entry : TxEntry) : Prop :=
  ∀ event ∈ entry.events, event.base.txId = entry.tx.txId

section Rows

variable {entry : TxEntry} {rows : EntryRows} {hash : Buffer}

/-- The row of an event that names the transaction of the entry names it too. -/
theorem DecodedEntry.own_row {α : Type} {table txId : String} {admitted : α → Bool}
    {entity : Buffer → α} {row : InBlock α} (decoded : DecodedEntry entry rows)
    (own : txId = entry.tx.txId)
    (ok : inBlockRow table admitted entry.tx txId entity = .ok row) :
    row.entity = entity rows.tx.txId ∧ row.indexBlockHash = rows.tx.indexBlockHash := by
  have tx := txRow_ok decoded.tx
  obtain ⟨hashOk, buffer, bufferOk, same, -⟩ := inBlockRow_ok ok
  rw [own, tx.txId] at bufferOk
  rw [tx.indexBlockHash] at hashOk
  rw [same, Except.ok.inj bufferOk, Except.ok.inj hashOk]
  exact ⟨rfl, rfl⟩

theorem TxEntry.owns_iff : entry.Owns ↔
    (∀ event ∈ entry.stxEvents, event.txId = entry.tx.txId) ∧
      (∀ event ∈ entry.ftEvents, event.txId = entry.tx.txId) ∧
      (∀ event ∈ entry.nftEvents, event.txId = entry.tx.txId) ∧
      ∀ event ∈ entry.contractLogEvents, event.txId = entry.tx.txId := by
  simp only [Owns, TxEntry.events, List.forall_mem_append, List.forall_mem_map, DbEvent.base,
    and_assoc]

/-- Rows are read as the events of the entry with the id of its transaction. -/
theorem DecodedEntry.events (decoded : DecodedEntry entry rows) (owns : entry.Owns) :
    rows.events = entry.events.map
      (DbEvent.mapBase fun base => base.withTxId (bufferToHexPrefixString rows.tx.txId)) := by
  obtain ⟨stx, ft, nft, logs⟩ := TxEntry.owns_iff.mp owns
  unfold EntryRows.events TxEntry.events
  simp only [List.map_append, List.map_map]
  congr 1
  · congr 1
    · congr 1
      · apply map_eq_map_of_mapM_ok decoded.stxEvents
        intro event mem row ok
        rw [(decoded.own_row (stx event mem) ok).1]
        rfl
      · apply map_eq_map_of_mapM_ok decoded.ftEvents
        intro event mem row ok
        rw [(decoded.own_row (ft event mem) ok).1]
        rfl
    · apply map_eq_map_of_mapM_ok decoded.nftEvents
      intro event mem row ok
      rw [(decoded.own_row (nft event mem) ok).1]
      rfl
  · apply map_eq_map_of_mapM_ok decoded.contractLogs
    intro event mem row ok
    rw [(decoded.own_row (logs event mem) ok).1]
    rfl

/-- The event rows of the entry name its transaction and the block. -/
structure EntryRows.Owned (rows : EntryRows) (hash : Buffer) : Prop where
  stxEvents : ∀ row ∈ rows.stxEvents, row.entity.txId = rows.tx.txId ∧ row.indexBlockHash = hash
  ftEvents : ∀ row ∈ rows.ftEvents, row.entity.txId = rows.tx.txId ∧ row.indexBlockHash = hash
  nftEvents : ∀ row ∈ rows.nftEvents, row.entity.txId = rows.tx.txId ∧ row.indexBlockHash = hash
  contractLogs :
    ∀ row ∈ rows.contractLogs, row.entity.txId = rows.tx.txId ∧ row.indexBlockHash = hash

theorem DecodedEntry.owned (decoded : DecodedEntry entry rows) (owns : entry.Owns)
    (hashOk : hexToBuffer entry.tx.indexBlockHash = .ok hash) : rows.Owned hash := by
  obtain ⟨stx, ft, nft, logs⟩ := TxEntry.owns_iff.mp owns
  rw [(txRow_ok decoded.tx).indexBlockHash] at hashOk
  rw [← Except.ok.inj hashOk]
  constructor
  · intro row mem
    obtain ⟨event, eventMem, ok⟩ := mem_of_mapM_ok decoded.stxEvents mem
    obtain ⟨entity, rowHash⟩ := decoded.own_row (stx event eventMem) ok
    exact ⟨by rw [entity]; rfl, rowHash⟩
  · intro row mem
    obtain ⟨event, eventMem, ok⟩ := mem_of_mapM_ok decoded.ftEvents mem
    obtain ⟨entity, rowHash⟩ := decoded.own_row (ft event eventMem) ok
    exact ⟨by rw [entity]; rfl, rowHash⟩
  · intro row mem
    obtain ⟨event, eventMem, ok⟩ := mem_of_mapM_ok decoded.nftEvents mem
    obtain ⟨entity, rowHash⟩ := decoded.own_row (nft event eventMem) ok
    exact ⟨by rw [entity]; rfl, rowHash⟩
  · intro row mem
    obtain ⟨event, eventMem, ok⟩ := mem_of_mapM_ok decoded.contractLogs mem
    obtain ⟨entity, rowHash⟩ := decoded.own_row (logs event eventMem) ok
    exact ⟨by rw [entity]; rfl, rowHash⟩

end Rows

/-! ## Reading the rows of one transaction -/

/-- A query for one transaction of a new block finds the rows of its entry. -/
theorem ofTx_append_flatMap {α : Type} {txId : α → Buffer} {old : List (InBlock α)}
    {entries : List EntryRows} {added : EntryRows → List (InBlock α)} {hash : Buffer}
    (fresh : ∀ row ∈ old, row.indexBlockHash ≠ hash)
    (owned : ∀ rows ∈ entries, ∀ row ∈ added rows,
      txId row.entity = rows.tx.txId ∧ row.indexBlockHash = hash)
    (nodup : (entries.map fun rows => rows.tx.txId).Nodup) {rows : EntryRows}
    (mem : rows ∈ entries) :
    ofTx txId rows.tx.txId hash (old ++ entries.flatMap added) =
      (added rows).map InBlock.entity := by
  have none : ∀ row ∈ old, ¬(txId row.entity = rows.tx.txId ∧ row.indexBlockHash = hash) :=
    fun row rowMem same => fresh row rowMem same.2
  rw [ofTx, List.filter_append, List.filter_eq_nil_iff.mpr (by simpa using none), List.nil_append]
  congr 1
  clear fresh none
  induction entries with
  | nil => cases mem
  | cons first entries ih =>
      rw [List.map_cons, List.nodup_cons] at nodup
      rw [List.flatMap_cons, List.filter_append]
      have others : ∀ later ∈ entries, ∀ row ∈ added later, txId row.entity = later.tx.txId ∧
          row.indexBlockHash = hash :=
        fun later laterMem => owned later (List.mem_cons_of_mem _ laterMem)
      rcases List.mem_cons.mp mem with rfl | later
      · have all : (added rows).filter (fun row =>
            txId row.entity = rows.tx.txId ∧ row.indexBlockHash = hash) = added rows := by
          rw [List.filter_eq_self]
          intro row rowMem
          exact decide_eq_true (owned rows List.mem_cons_self row rowMem)
        have nothing : (entries.flatMap added).filter (fun row =>
            txId row.entity = rows.tx.txId ∧ row.indexBlockHash = hash) = [] := by
          rw [List.filter_eq_nil_iff]
          intro row rowMem same
          obtain ⟨other, otherMem, inOther⟩ := List.mem_flatMap.mp rowMem
          apply nodup.1
          rw [← (of_decide_eq_true same).1, (others other otherMem row inOther).1]
          exact List.mem_map_of_mem (f := fun rows : EntryRows => rows.tx.txId) otherMem
        rw [all, nothing, List.append_nil]
      · have nothing : (added first).filter (fun row =>
            txId row.entity = rows.tx.txId ∧ row.indexBlockHash = hash) = [] := by
          rw [List.filter_eq_nil_iff]
          intro row rowMem same
          apply nodup.1
          rw [← (owned first List.mem_cons_self row rowMem).1, (of_decide_eq_true same).1]
          exact List.mem_map_of_mem (f := fun rows : EntryRows => rows.tx.txId) later
        rw [nothing, List.nil_append]
        exact ih others nodup.2 later

/-- The event tables after entries are added. -/
theorem events_foldl_addEntry (entries : List EntryRows) (db : Db) :
    (entries.foldl Db.addEntry db).stxEvents =
        db.stxEvents ++ entries.flatMap EntryRows.stxEvents ∧
      (entries.foldl Db.addEntry db).ftEvents =
        db.ftEvents ++ entries.flatMap EntryRows.ftEvents ∧
      (entries.foldl Db.addEntry db).nftEvents =
        db.nftEvents ++ entries.flatMap EntryRows.nftEvents ∧
      (entries.foldl Db.addEntry db).contractLogs =
        db.contractLogs ++ entries.flatMap EntryRows.contractLogs := by
  induction entries generalizing db with
  | nil => simp
  | cons rows entries ih =>
      obtain ⟨stx, ft, nft, logs⟩ := ih (db.addEntry rows)
      rw [List.foldl_cons, stx, ft, nft, logs]
      simp [Db.addEntry]

/-- No event row belongs to the block. -/
structure Db.NoEventsOf (db : Db) (hash : Buffer) : Prop where
  stxEvents : ∀ row ∈ db.stxEvents, row.indexBlockHash ≠ hash
  ftEvents : ∀ row ∈ db.ftEvents, row.indexBlockHash ≠ hash
  nftEvents : ∀ row ∈ db.nftEvents, row.indexBlockHash ≠ hash
  contractLogs : ∀ row ∈ db.contractLogs, row.indexBlockHash ≠ hash

/-- What is read of a transaction of a new block are the rows of its entry. -/
theorem readTxEvents_foldl_addEntry {entries : List EntryRows} {db : Db} {hash : Buffer}
    (fresh : db.NoEventsOf hash) (owned : ∀ rows ∈ entries, rows.Owned hash)
    (nodup : (entries.map fun rows => rows.tx.txId).Nodup) {rows : EntryRows}
    (mem : rows ∈ entries) :
    readTxEvents (entries.foldl Db.addEntry db) rows.tx.txId hash = rows.events := by
  obtain ⟨stx, ft, nft, logs⟩ := events_foldl_addEntry entries db
  rw [readTxEvents, stx, ft, nft, logs,
    ofTx_append_flatMap fresh.stxEvents (fun rows mem => (owned rows mem).stxEvents) nodup mem,
    ofTx_append_flatMap fresh.ftEvents (fun rows mem => (owned rows mem).ftEvents) nodup mem,
    ofTx_append_flatMap fresh.nftEvents (fun rows mem => (owned rows mem).nftEvents) nodup mem,
    ofTx_append_flatMap fresh.contractLogs (fun rows mem => (owned rows mem).contractLogs) nodup
      mem]
  simp only [List.map_map]
  rfl

/-- The order of reading shows in the order of the events only. -/
theorem Scan.readTxEvents_perm {db scanned : Db} (scan : Scan db scanned)
    (txId indexBlockHash : Buffer) :
    (readTxEvents scanned txId indexBlockHash).Perm (readTxEvents db txId indexBlockHash) := by
  have stx : db.stxEvents.Perm scanned.stxEvents := scan.rows .stxEvents
  have ft : db.ftEvents.Perm scanned.ftEvents := scan.rows .ftEvents
  have nft : db.nftEvents.Perm scanned.nftEvents := scan.rows .nftEvents
  have logs : db.contractLogs.Perm scanned.contractLogs := scan.rows .contractLogs
  unfold readTxEvents ofTx
  exact (((((stx.symm.filter _).map _).map _).append (((ft.symm.filter _).map _).map _)).append
    (((nft.symm.filter _).map _).map _)).append (((logs.symm.filter _).map _).map _)

/-! ## Rows and their blocks -/

/-- Every row belongs to a stored block. -/
def Attached (db : Db) : Prop :=
  ∀ table, ∀ row ∈ db.rows table, ∃ b ∈ db.links, b.hash = Flagged.key row

theorem Attached.empty : Attached Db.empty :=
  (RowsInvariant.empty fun _ => false).attached

section Step

variable {db reorged pruned db' : Db} {data : DataStoreUpdateData} {row : DbBlock Buffer}

theorem Accepted.links_pruned (accepted : Accepted db data reorged pruned row db') :
    pruned.links = db.links := by
  obtain ⟨counts, handled⟩ := accepted.reorg
  rw [Db.links, accepted.blocks_pruned, ← Db.links]
  exact Db.links_of_raised (handleReorg_remarked handled).blocks

/-- Blocks stay, and that of an accepted update is stored. -/
theorem Accepted.stored_links (accepted : Accepted db data reorged pruned row db') :
    db.links ⊆ db'.links ∧ ∃ b ∈ db'.links, b.hash = row.indexBlockHash := by
  have links := accepted.links_pruned
  rcases accepted.store with ⟨⟨stored, mem, same⟩, rfl⟩ | ⟨-, rows, -, rfl⟩
  · rw [links]
    refine ⟨List.Subset.refl _, stored.link, ?_, same⟩
    rw [← links]
    exact List.mem_map_of_mem mem
  · have added : (rows.foldl Db.addEntry { pruned with blocks := pruned.blocks ++ [row] }).links =
        db.links ++ [row.link] := by
      rw [Db.links, Db.blocks_foldl_addEntry, List.map_append, ← Db.links, links]
      rfl
    rw [added]
    exact ⟨List.subset_append_left _ _, row.link,
      List.mem_append_right _ (List.mem_singleton_self _), rfl⟩

theorem Accepted.attached_pruned (accepted : Accepted db data reorged pruned row db')
    (attached : Attached db) : Attached pruned := by
  obtain ⟨counts, handled⟩ := accepted.reorg
  intro table entity mem
  rw [accepted.rows_pruned] at mem
  obtain ⟨original, originalMem, sameKey⟩ :=
    exists_key_of_raised_eq ((handleReorg_remarked handled).rows table) mem
  obtain ⟨b, bMem, bHash⟩ := attached table original originalMem
  rw [accepted.links_pruned]
  exact ⟨b, bMem, bHash.trans sameKey⟩

theorem Attached.update (attached : Attached db)
    (accepted : Accepted db data reorged pruned row db') (canonical : data.block.canonical = true)
    (carries : data.Carries) : Attached db' := by
  obtain ⟨kept, b, stored, hash⟩ := accepted.stored_links
  intro table entity mem
  rcases accepted.mem_reorged_or_entry table mem with old | ⟨entry, entryMem, rows, decoded, new⟩
  · rw [← accepted.rows_pruned] at old
    obtain ⟨other, otherMem, otherHash⟩ := accepted.attached_pruned attached table entity old
    rw [accepted.links_pruned] at otherMem
    exact ⟨other, kept otherMem, otherHash⟩
  · have inBlock := decoded.inBlockRows (settled_carries carries entry entryMem)
      (accepted.decodedBlock canonical).1 table entity new
    exact ⟨b, stored, hash.trans inBlock.1.symm⟩

/-- The rows of a block that is not stored are not there either. -/
theorem Attached.noEventsOf (attached : Attached db) {hash : Buffer}
    (notStored : ∀ b ∈ db.links, b.hash ≠ hash) : db.NoEventsOf hash := by
  have fresh : ∀ table, ∀ entity ∈ db.rows table, Flagged.key entity ≠ hash := by
    intro table entity mem same
    obtain ⟨b, bMem, bHash⟩ := attached table entity mem
    exact notStored b bMem (bHash.trans same)
  exact ⟨fresh .stxEvents, fresh .ftEvents, fresh .nftEvents, fresh .contractLogs⟩

/-- After a new block is stored, `getTxEvents` sorts the events of the entry of the
transaction, with its id as text. -/
theorem Accepted.getTxEvents_entry (accepted : Accepted db data reorged pruned row db')
    (attached : Attached db) (canonical : data.block.canonical = true) (carries : data.Carries)
    (isNew : ∀ stored ∈ db.blocks,
      hexToBuffer data.block.indexBlockHash ≠ .ok stored.indexBlockHash)
    (distinct : ((data.settled db).txs.map fun entry => hexToBuffer entry.tx.txId).Nodup)
    (owns : ∀ entry ∈ (data.settled db).txs, entry.Owns) {entry : TxEntry}
    (mem : entry ∈ (data.settled db).txs) :
    ∃ txId, hexToBuffer entry.tx.txId = .ok txId ∧ ∀ scanned, Scan db' scanned →
      ∃ read : List DbEvent, read.Perm (entry.events.map
          (DbEvent.mapBase fun base => base.withTxId (bufferToHexPrefixString txId))) ∧
        getTxEvents scanned entry.tx.txId data.block.indexBlockHash =
          .ok (read.insertionSort fun a b => a.eventIndex ≤ b.eventIndex) := by
  have hash := (accepted.decodedBlock canonical).1
  have fresh := accepted.fresh_pruned canonical isNew
  rcases accepted.store with ⟨⟨stored, storedMem, same⟩, -⟩ | ⟨-, entries, computed, added⟩
  · exact absurd same (fresh stored storedMem)
  · obtain ⟨rows, rowsMem, ok⟩ := exists_of_mapM_ok computed mem
    have decoded := entryRows_ok ok
    have txId := (txRow_ok decoded.tx).txId
    refine ⟨rows.tx.txId, txId, fun scanned scan => ?_⟩
    have owned : ∀ rows ∈ entries, rows.Owned row.indexBlockHash := by
      intro rows rowsMem
      obtain ⟨source, sourceMem, sourceOk⟩ := mem_of_mapM_ok computed rowsMem
      apply (entryRows_ok sourceOk).owned (owns source sourceMem)
      rw [(settled_carries carries source sourceMem).indexBlockHash]
      exact hash
    have nodup : (entries.map fun rows => rows.tx.txId).Nodup := by
      have sameIds : (entries.map fun rows => (.ok rows.tx.txId : Except ApiError Buffer)) =
          (data.settled db).txs.map fun entry => hexToBuffer entry.tx.txId := by
        apply map_eq_map_of_mapM_ok computed
        intro source _ rows sourceOk
        exact (txRow_ok (entryRows_ok sourceOk).tx).txId.symm
      rw [← sameIds] at distinct
      apply List.Nodup.of_map (fun txId => (.ok txId : Except ApiError Buffer))
      rw [List.map_map]
      exact distinct
    have noEvents : ({ pruned with blocks := pruned.blocks ++ [row] } : Db).NoEventsOf
        row.indexBlockHash := by
      have attachedPruned := accepted.attached_pruned attached
      obtain ⟨stx, ft, nft, logs⟩ : pruned.NoEventsOf row.indexBlockHash := by
        apply attachedPruned.noEventsOf
        intro b bMem
        obtain ⟨stored, storedMem, rfl⟩ := List.mem_map.mp bMem
        exact fresh stored storedMem
      exact ⟨stx, ft, nft, logs⟩
    have read := readTxEvents_foldl_addEntry noEvents owned nodup rowsMem
    rw [← added, decoded.events (owns entry mem)] at read
    refine ⟨readTxEvents scanned rows.tx.txId row.indexBlockHash, ?_, getTxEvents_eq txId hash⟩
    rw [← read]
    exact scan.readTxEvents_perm _ _

end Step

end StacksApi.Datastore
