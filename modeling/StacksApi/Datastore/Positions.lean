import StacksApi.Datastore.AddressHistory
import StacksApi.Datastore.ChainListings
import StacksApi.Datastore.Standing

/-!
# Positions of the rows

The place of a row is its block with the height that it names and its position in the
block: the index of a transaction, and the index of an event with that of its transaction.
Where no two rows of a block have the same position, no two canonical rows have the same
height and position, as one canonical block stands at each height.
-/

namespace StacksApi.Datastore

open StacksApi.Binary
open StacksApi.Relational
open StacksApi.Transition
open CanonicalEntity

/-! ## Places in blocks -/

/-- Where a row stands: its block, the height of it, and the position in it. -/
structure Place (π : Type) where
  indexBlockHash : Buffer
  blockHeight : Nat
  position : π

/-- The places name stored blocks by hash and height, and no two of them have the same
position in a block. -/
structure PlacedIn {π : Type} (blocks : List (DbBlock Buffer)) (places : List (Place π)) :
    Prop where
  heights : ∀ place ∈ places, ∃ block ∈ blocks,
    block.indexBlockHash = place.indexBlockHash ∧ block.blockHeight = place.blockHeight
  distinct : (places.map fun place => (place.indexBlockHash, place.position)).Nodup

namespace PlacedIn

variable {π : Type} {blocks blocks' : List (DbBlock Buffer)} {places added : List (Place π)}

theorem nil (blocks : List (DbBlock Buffer)) : PlacedIn blocks ([] : List (Place π)) where
  heights := List.forall_mem_nil _
  distinct := List.nodup_nil

theorem perm (placed : PlacedIn blocks places) (perm : places.Perm added) :
    PlacedIn blocks added where
  heights place mem := placed.heights place (perm.mem_iff.mpr mem)
  distinct := (perm.map _).nodup_iff.mp placed.distinct

/-- Only the hashes and the heights of the blocks matter. -/
theorem congr (placed : PlacedIn blocks places)
    (same : raised blocks' = raised blocks) : PlacedIn blocks' places where
  heights place mem := by
    obtain ⟨block, blockMem, hash, height⟩ := placed.heights place mem
    obtain ⟨block', mem', sameBlock⟩ := exists_of_raised_eq same.symm blockMem
    refine ⟨block', mem', ?_, ?_⟩
    · exact (congrArg DbBlock.indexBlockHash sameBlock).trans hash
    · exact (congrArg DbBlock.blockHeight sameBlock).trans height
  distinct := placed.distinct

/-- A new block brings rows of its own. -/
theorem append {row : DbBlock Buffer} (placed : PlacedIn blocks places)
    (fresh : ∀ stored ∈ blocks, stored.indexBlockHash ≠ row.indexBlockHash)
    (inBlock : ∀ place ∈ added,
      place.indexBlockHash = row.indexBlockHash ∧ place.blockHeight = row.blockHeight)
    (distinct : (added.map fun place => place.position).Nodup) :
    PlacedIn (blocks ++ [row]) (places ++ added) where
  heights place mem := by
    rcases List.mem_append.mp mem with old | new
    · obtain ⟨block, blockMem, same⟩ := placed.heights place old
      exact ⟨block, List.mem_append_left _ blockMem, same⟩
    · obtain ⟨hash, height⟩ := inBlock place new
      exact ⟨row, List.mem_append_right _ (List.mem_singleton_self row), hash.symm, height.symm⟩
  distinct := by
    rw [List.map_append, List.nodup_append]
    refine ⟨placed.distinct, ?_, ?_⟩
    · apply List.Nodup.of_map Prod.snd
      rw [List.map_map]
      exact distinct
    · intro oldKey oldKeyMem newKey newKeyMem same
      obtain ⟨old, oldMem, rfl⟩ := List.mem_map.mp oldKeyMem
      obtain ⟨new, newMem, rfl⟩ := List.mem_map.mp newKeyMem
      obtain ⟨block, blockMem, hash, -⟩ := placed.heights old oldMem
      apply fresh block blockMem
      exact (hash.trans (Prod.mk.inj same).1).trans (inBlock new newMem).1

/-- No two rows of canonical blocks have the same height and position. -/
theorem nodup_canonical {α : Type} {db : Db} {rows : List α} {place : α → Place π}
    {canonical : α → Bool} (placed : PlacedIn db.blocks (rows.map place)) (forked : Forked db)
    (owned : ∀ row ∈ rows, ∃ block ∈ db.blocks,
      block.indexBlockHash = (place row).indexBlockHash ∧ block.canonical = canonical row) :
    ((rows.filter canonical).map fun row =>
      ((place row).blockHeight, (place row).position)).Nodup := by
  have distinct := placed.distinct
  rw [List.map_map] at distinct
  have blockOf : ∀ row ∈ rows, canonical row = true → ∃ block ∈ db.blocks,
      block.indexBlockHash = (place row).indexBlockHash ∧
        block.blockHeight = (place row).blockHeight ∧ block.canonical = true := by
    intro row mem isCanonical
    obtain ⟨block, blockMem, hash, flag⟩ := owned row mem
    obtain ⟨other, otherMem, otherHash, height⟩ := placed.heights _ (List.mem_map_of_mem mem)
    obtain rfl := forked.eq_of_hash otherMem blockMem (otherHash.trans hash.symm)
    exact ⟨other, otherMem, hash, height, flag.trans isCanonical⟩
  refine ((List.Nodup.of_map _ distinct).filter canonical).map_on ?_
  intro first firstMem second secondMem same
  obtain ⟨firstMem, firstCanonical⟩ := List.mem_filter.mp firstMem
  obtain ⟨secondMem, secondCanonical⟩ := List.mem_filter.mp secondMem
  obtain ⟨sameHeight, samePosition⟩ := Prod.mk.inj same
  obtain ⟨block, blockMem, hash, height, flag⟩ := blockOf first firstMem firstCanonical
  obtain ⟨other, otherMem, otherHash, otherHeight, otherFlag⟩ :=
    blockOf second secondMem secondCanonical
  have sameBlock : block = other := forked.single block blockMem other otherMem flag otherFlag
    (by rw [height, otherHeight, sameHeight])
  apply List.inj_on_of_nodup_map distinct firstMem secondMem
  exact Prod.ext (by rw [Function.comp, Function.comp, ← hash, ← otherHash, sameBlock]) samePosition

end PlacedIn

/-! ## Rows and their places -/

/-- A row read as an event. -/
def InBlock.read {α : Type} (read : α → DbEvent) (row : InBlock α) : InBlock DbEvent where
  indexBlockHash := row.indexBlockHash
  entity := read row.entity

/-- The rows of the event tables. -/
def Db.eventRows (db : Db) : List (InBlock DbEvent) :=
  db.stxEvents.map (InBlock.read readStxEvent) ++ db.ftEvents.map (InBlock.read readFtEvent) ++
    db.nftEvents.map (InBlock.read readNftEvent) ++
    db.contractLogs.map (InBlock.read readContractLog)

/-- Where a transaction stands. -/
def txPlace (tx : DbTx Buffer) : Place Int where
  indexBlockHash := tx.indexBlockHash
  blockHeight := tx.blockHeight
  position := tx.txIndex

/-- Where an event stands. -/
def eventPlace (row : InBlock DbEvent) : Place (Int × Nat) where
  indexBlockHash := row.indexBlockHash
  blockHeight := row.entity.base.blockHeight
  position := (row.entity.base.txIndex, row.entity.base.eventIndex)

/-- No two transactions of a block have the same index, and no two events of a block have
the same indices. -/
structure Positioned (db : Db) : Prop where
  txs : PlacedIn db.blocks (db.txs.map txPlace)
  events : PlacedIn db.blocks (db.eventRows.map eventPlace)

theorem Positioned.empty : Positioned Db.empty where
  txs := PlacedIn.nil _
  events := PlacedIn.nil _

theorem Positioned.withMempoolTxs {db : Db} (positioned : Positioned db)
    (pool : List (DbMempoolTx Buffer)) : Positioned { db with mempoolTxs := pool } where
  txs := positioned.txs
  events := positioned.events

/-- Flags are not part of the places. -/
theorem map_eq_of_raised {α β : Type} [Flagged α Buffer] {place : α → β} {first second : List α}
    (kept : ∀ row, place (Flagged.withFlag true row) = place row)
    (same : raised first = raised second) : first.map place = second.map place := by
  have unflagged : ∀ rows : List α, (raised rows).map place = rows.map place := by
    intro rows
    rw [raised, List.map_map]
    exact List.map_congr_left fun row _ => kept row
  rw [← unflagged first, same, unflagged]

theorem Positioned.remarked {db db' : Db} (positioned : Positioned db)
    (remarked : Remarked db db') : Positioned db' where
  txs := by
    have same : db'.txs.map txPlace = db.txs.map txPlace :=
      map_eq_of_raised (fun _ => rfl) (remarked.rows .txs)
    rw [same]
    exact positioned.txs.congr remarked.blocks
  events := by
    have stx : db'.stxEvents.map (fun row => eventPlace (row.read readStxEvent)) =
        db.stxEvents.map fun row => eventPlace (row.read readStxEvent) :=
      map_eq_of_raised (fun _ => rfl) (remarked.rows .stxEvents)
    have ft : db'.ftEvents.map (fun row => eventPlace (row.read readFtEvent)) =
        db.ftEvents.map fun row => eventPlace (row.read readFtEvent) :=
      map_eq_of_raised (fun _ => rfl) (remarked.rows .ftEvents)
    have nft : db'.nftEvents.map (fun row => eventPlace (row.read readNftEvent)) =
        db.nftEvents.map fun row => eventPlace (row.read readNftEvent) :=
      map_eq_of_raised (fun _ => rfl) (remarked.rows .nftEvents)
    have logs : db'.contractLogs.map (fun row => eventPlace (row.read readContractLog)) =
        db.contractLogs.map fun row => eventPlace (row.read readContractLog) :=
      map_eq_of_raised (fun _ => rfl) (remarked.rows .contractLogs)
    have same : db'.eventRows.map eventPlace = db.eventRows.map eventPlace := by
      simp only [Db.eventRows, List.map_append, List.map_map, Function.comp_def]
      rw [stx, ft, nft, logs]
    rw [same]
    exact positioned.events.congr remarked.blocks

/-! ## The rows of an update -/

/-- The rows of all events of an entry. -/
def EntryRows.eventRows (rows : EntryRows) : List (InBlock DbEvent) :=
  rows.stxEvents.map (InBlock.read readStxEvent) ++ rows.ftEvents.map (InBlock.read readFtEvent) ++
    rows.nftEvents.map (InBlock.read readNftEvent) ++
    rows.contractLogs.map (InBlock.read readContractLog)

/-- The place of an event in a block. -/
def DbEvent.place (indexBlockHash : Buffer) (event : DbEvent) : Place (Int × Nat) where
  indexBlockHash := indexBlockHash
  blockHeight := event.base.blockHeight
  position := (event.base.txIndex, event.base.eventIndex)

theorem eventPlace_of_inBlockRow {α : Type} {table txId : String} {admitted : α → Bool}
    {tx : DbTx String} {entity : Buffer → α} {row : InBlock α} {hash : Buffer}
    {read : α → DbEvent} {event : DbEvent} (hashOk : hexToBuffer tx.indexBlockHash = .ok hash)
    (ok : inBlockRow table admitted tx txId entity = .ok row)
    (same : ∀ buffer, (read (entity buffer)).place hash = event.place hash) :
    eventPlace (row.read read) = event.place hash := by
  obtain ⟨rowHash, buffer, -, rowEntity, -⟩ := inBlockRow_ok ok
  obtain rfl : hash = row.indexBlockHash := Except.ok.inj (hashOk.symm.trans rowHash)
  rw [← same buffer, ← rowEntity]
  rfl

/-- The rows of an entry have the places of its events. -/
theorem DecodedEntry.eventPlaces {entry : TxEntry} {rows : EntryRows}
    (decoded : DecodedEntry entry rows) {hash : Buffer}
    (hashOk : hexToBuffer entry.tx.indexBlockHash = .ok hash) :
    rows.eventRows.map eventPlace = entry.events.map (DbEvent.place hash) := by
  unfold EntryRows.eventRows TxEntry.events
  simp only [List.map_append, List.map_map]
  congr 1
  · congr 1
    · congr 1
      · exact map_eq_map_of_mapM_ok decoded.stxEvents fun event _ row ok =>
          eventPlace_of_inBlockRow hashOk ok fun _ => rfl
      · exact map_eq_map_of_mapM_ok decoded.ftEvents fun event _ row ok =>
          eventPlace_of_inBlockRow hashOk ok fun _ => rfl
    · exact map_eq_map_of_mapM_ok decoded.nftEvents fun event _ row ok =>
        eventPlace_of_inBlockRow hashOk ok fun _ => rfl
  · exact map_eq_map_of_mapM_ok decoded.contractLogs fun event _ row ok =>
      eventPlace_of_inBlockRow hashOk ok fun _ => rfl

/-- The entries add their rows to those of the event tables. -/
theorem eventRows_foldl_addEntry (entries : List EntryRows) (db : Db) :
    (entries.foldl Db.addEntry db).eventRows.Perm
      (db.eventRows ++ entries.flatMap EntryRows.eventRows) := by
  obtain ⟨stx, ft, nft, logs⟩ := events_foldl_addEntry entries db
  have split : (entries.flatMap EntryRows.eventRows).Perm
      (entries.flatMap (fun rows => rows.stxEvents.map (InBlock.read readStxEvent)) ++
        entries.flatMap (fun rows => rows.ftEvents.map (InBlock.read readFtEvent)) ++
        entries.flatMap (fun rows => rows.nftEvents.map (InBlock.read readNftEvent)) ++
        entries.flatMap fun rows => rows.contractLogs.map (InBlock.read readContractLog)) := by
    refine (List.flatMap_append_perm _ _ _).symm.trans (List.Perm.append_right _ ?_)
    refine (List.flatMap_append_perm _ _ _).symm.trans (List.Perm.append_right _ ?_)
    exact (List.flatMap_append_perm _ _ _).symm
  refine List.Perm.trans ?_ (split.symm.append_left _)
  rw [Db.eventRows, Db.eventRows, stx, ft, nft, logs]
  simp only [List.map_append, List.map_flatMap]
  classical
  rw [List.perm_iff_count]
  intro row
  simp only [List.count_append]
  omega

theorem eventRows_append {db first second : Db}
    (tables : ∀ table, db.rows table = first.rows table ++ second.rows table) :
    db.eventRows.Perm (first.eventRows ++ second.eventRows) := by
  have stx : db.stxEvents = first.stxEvents ++ second.stxEvents := tables .stxEvents
  have ft : db.ftEvents = first.ftEvents ++ second.ftEvents := tables .ftEvents
  have nft : db.nftEvents = first.nftEvents ++ second.nftEvents := tables .nftEvents
  have logs : db.contractLogs = first.contractLogs ++ second.contractLogs := tables .contractLogs
  rw [Db.eventRows, stx, ft, nft, logs]
  simp only [List.map_append]
  classical
  rw [List.perm_iff_count]
  intro row
  simp only [Db.eventRows, List.count_append]
  omega

/-! ## Updates -/

/-- The entries and their events name the height of the block; equal indices of
transactions are those of one transaction, and no two events have the same indices. -/
structure DataStoreUpdateData.Positioned (data : DataStoreUpdateData) : Prop where
  txHeights : ∀ entry ∈ data.txs, entry.tx.blockHeight = data.block.blockHeight
  txs : ∀ first ∈ data.txs, ∀ second ∈ data.txs, first.tx.txIndex = second.tx.txIndex →
    hexToBuffer first.tx.txId = hexToBuffer second.tx.txId
  eventHeights : ∀ entry ∈ data.txs, ∀ event ∈ entry.events,
    event.base.blockHeight = data.block.blockHeight
  events : (data.txs.flatMap fun entry => entry.events.map fun event =>
    (event.base.txIndex, event.base.eventIndex)).Nodup

/-- Storing a fork block lowers flags only. -/
theorem DataStoreUpdateData.Positioned.settled {data : DataStoreUpdateData}
    (positioned : data.Positioned) (db : Db) : (data.settled db).Positioned := by
  rw [DataStoreUpdateData.settled]
  split
  · exact positioned
  · refine ⟨?_, ?_, ?_, ?_⟩
    · exact List.forall_mem_map.mpr positioned.txHeights
    · refine List.forall_mem_map.mpr fun first firstMem => ?_
      exact List.forall_mem_map.mpr (positioned.txs first firstMem)
    · refine List.forall_mem_map.mpr fun entry mem => ?_
      rw [events_markNonCanonical]
      refine List.forall_mem_map.mpr fun event eventMem => ?_
      rw [DbEvent.base_mapBase]
      exact positioned.eventHeights entry mem event eventMem
    · have same : ∀ entry : TxEntry, (entry.markNonCanonical.events.map fun event =>
          (event.base.txIndex, event.base.eventIndex)) =
            entry.events.map fun event => (event.base.txIndex, event.base.eventIndex) := by
        intro entry
        rw [events_markNonCanonical, List.map_map]
        exact List.map_congr_left fun event _ => by rw [Function.comp_apply, DbEvent.base_mapBase]
      rw [DataStoreUpdateData.markNonCanonical, List.flatMap_map]
      simp only [same]
      exact positioned.events

theorem blockHeight_settled (data : DataStoreUpdateData) (db : Db) :
    (data.settled db).block.blockHeight = data.block.blockHeight := by
  rw [DataStoreUpdateData.settled]
  split <;> rfl

section Added

variable {data : DataStoreUpdateData} {entries : List EntryRows} {hash : Buffer}

/-- The transactions of the entries have the hash and the height of the block. -/
theorem addedTxs_inBlock (computed : data.txs.mapM entryRows = .ok entries)
    (inBlock : ∀ entry ∈ data.txs, hexToBuffer entry.tx.indexBlockHash = .ok hash)
    (positioned : data.Positioned) :
    ∀ tx ∈ (entries.foldl Db.addEntry Db.empty).txs,
      tx.indexBlockHash = hash ∧ tx.blockHeight = data.block.blockHeight := by
  intro tx mem
  obtain ⟨rows, rowsMem, inRows⟩ := @mem_insertedRows entries .txs tx mem
  obtain rfl : tx = rows.tx := List.mem_singleton.mp inRows
  obtain ⟨entry, entryMem, ok⟩ := mem_of_mapM_ok computed rowsMem
  have decoded := txRow_ok (entryRows_ok ok).tx
  have sameHeight : rows.tx.blockHeight = entry.tx.blockHeight :=
    congrArg DbTx.blockHeight decoded.columns
  constructor
  · exact Except.ok.inj (decoded.indexBlockHash.symm.trans (inBlock entry entryMem))
  · exact sameHeight.trans (positioned.txHeights entry entryMem)

/-- Of entries with the same index only one is inserted. -/
theorem nodup_addedTxs (computed : data.txs.mapM entryRows = .ok entries)
    (inBlock : ∀ entry ∈ data.txs, hexToBuffer entry.tx.indexBlockHash = .ok hash)
    (positioned : data.Positioned) :
    ((entries.foldl Db.addEntry Db.empty).txs.map fun tx => (txPlace tx).position).Nodup := by
  have empty : InclusionsUnique Db.empty := List.nodup_nil
  have unique := empty.addEntries entries
  have hashes := addedTxs_inBlock computed inBlock positioned
  refine (List.Nodup.of_map _ unique).map_on ?_
  intro first firstMem second secondMem sameIndex
  have source : ∀ tx ∈ (entries.foldl Db.addEntry Db.empty).txs, ∃ entry ∈ data.txs,
      hexToBuffer entry.tx.txId = .ok tx.txId ∧ tx.txIndex = entry.tx.txIndex := by
    intro tx mem
    obtain ⟨rows, rowsMem, inRows⟩ := @mem_insertedRows entries .txs tx mem
    obtain rfl : tx = rows.tx := List.mem_singleton.mp inRows
    obtain ⟨entry, entryMem, ok⟩ := mem_of_mapM_ok computed rowsMem
    have decoded := txRow_ok (entryRows_ok ok).tx
    exact ⟨entry, entryMem, decoded.txId, congrArg DbTx.txIndex decoded.columns⟩
  obtain ⟨firstEntry, firstEntryMem, firstId, firstIndex⟩ := source first firstMem
  obtain ⟨secondEntry, secondEntryMem, secondId, secondIndex⟩ := source second secondMem
  have sameText := positioned.txs firstEntry firstEntryMem secondEntry secondEntryMem
    ((firstIndex.symm.trans sameIndex).trans secondIndex)
  rw [firstId, secondId] at sameText
  apply List.inj_on_of_nodup_map unique firstMem secondMem
  rw [Except.ok.inj sameText, (hashes first firstMem).1, (hashes second secondMem).1]

/-- The events of the entries have their places in the block. -/
theorem addedEvents_places (computed : data.txs.mapM entryRows = .ok entries)
    (inBlock : ∀ entry ∈ data.txs, hexToBuffer entry.tx.indexBlockHash = .ok hash) :
    ((entries.foldl Db.addEntry Db.empty).eventRows.map eventPlace).Perm
      (data.txs.flatMap fun entry => entry.events.map (DbEvent.place hash)) := by
  have same : (entries.flatMap EntryRows.eventRows).map eventPlace =
      data.txs.flatMap fun entry => entry.events.map (DbEvent.place hash) := by
    rw [List.map_flatMap, List.flatMap, List.flatMap]
    congr 1
    apply map_eq_map_of_mapM_ok computed
    intro entry mem rows ok
    exact (entryRows_ok ok).eventPlaces (inBlock entry mem)
  rw [← same]
  exact (eventRows_foldl_addEntry entries Db.empty).map eventPlace

end Added

section Step

variable {db reorged pruned db' : Db} {data : DataStoreUpdateData} {row : DbBlock Buffer}

/-- An accepted update keeps the positions unique when those of a block that it stores
are. -/
theorem Positioned.update (positioned : Positioned db) (standing : Standing db)
    (accepted : Accepted db data reorged pruned row db') (wired : data.Wired)
    (entries : (∀ stored ∈ db.blocks, stored.indexBlockHash ≠ row.indexBlockHash) →
      data.Positioned) : Positioned db' := by
  obtain ⟨counts, handled⟩ := accepted.reorg
  have reorgedStanding := (standing.handleReorg handled).1
  have remarked := handleReorg_remarked handled
  have reorgedPositioned := positioned.remarked remarked
  rcases accepted.outcome wired reorgedStanding with
    ⟨-, rfl⟩ | ⟨fresh, blocks, rows, computed, tables⟩
  · by_cases high : Heightens db data
    · obtain ⟨buffers, -, rfl⟩ := accepted.prune high
      exact reorgedPositioned.withMempoolTxs _
    · rw [accepted.keep high]
      exact reorgedPositioned
  · have isNew : ∀ stored ∈ db.blocks, stored.indexBlockHash ≠ row.indexBlockHash := by
      intro stored mem same
      obtain ⟨after, afterMem, sameBlock⟩ := exists_of_raised_eq remarked.blocks.symm mem
      exact fresh after afterMem ((congrArg DbBlock.indexBlockHash sameBlock).trans same)
    have settled := (entries isNew).settled db
    obtain ⟨hashOk, -, rowHeight, -⟩ := accepted.decodedBlock wired.canonical
    have height : (data.settled db).block.blockHeight = row.blockHeight :=
      (blockHeight_settled data db).trans rowHeight.symm
    have inBlock : ∀ entry ∈ (data.settled db).txs,
        hexToBuffer entry.tx.indexBlockHash = .ok row.indexBlockHash := by
      intro entry mem
      rw [(settled_carries wired.carries entry mem).indexBlockHash]
      exact hashOk
    constructor
    · have txs : db'.txs = reorged.txs ++ (rows.foldl Db.addEntry Db.empty).txs := tables .txs
      rw [blocks, txs, List.map_append]
      apply reorgedPositioned.txs.append fresh
      · refine List.forall_mem_map.mpr fun tx mem => ?_
        obtain ⟨hash, sameHeight⟩ := addedTxs_inBlock computed inBlock settled tx mem
        exact ⟨hash, sameHeight.trans height⟩
      · rw [List.map_map]
        exact nodup_addedTxs computed inBlock settled
    · rw [blocks]
      have places : (db'.eventRows.map eventPlace).Perm (reorged.eventRows.map eventPlace ++
          (data.settled db).txs.flatMap fun entry =>
            entry.events.map (DbEvent.place row.indexBlockHash)) := by
        refine ((eventRows_append tables).map eventPlace).trans ?_
        rw [List.map_append]
        exact (addedEvents_places computed inBlock).append_left _
      refine PlacedIn.perm ?_ places.symm
      apply reorgedPositioned.events.append fresh
      · intro place mem
        obtain ⟨entry, entryMem, inEntry⟩ := List.mem_flatMap.mp mem
        obtain ⟨event, eventMem, rfl⟩ := List.mem_map.mp inEntry
        exact ⟨rfl, (settled.eventHeights entry entryMem event eventMem).trans height⟩
      · rw [List.map_flatMap]
        simp only [List.map_map]
        exact settled.events

end Step

end StacksApi.Datastore
