import StacksApi.Datastore.Answers
import StacksApi.Datastore.MemoryRun

/-!
# Listings of a block and of a transaction

`getBlockTxs` of both stores and `getTxEvents` of the store in memory.  The callbacks by
which they sort look at one element only, so that the listings are in the order of the
chain exactly when the records were found in that order.
-/

namespace StacksApi.Datastore

open StacksApi.Binary
open StacksApi.Collections
open StacksApi.Relational
open StacksApi.Transition
open CanonicalEntity

/-- `result.rows.sort(tx => tx.tx_index)` -/
def getBlockTxs (db : Db) (indexBlockHash : String) : Except ApiError (List String) := do
  let buffer ← hexToBuffer indexBlockHash
  let rows := db.txs.filter fun row => row.indexBlockHash = buffer
  return (arraySort (fun tx _ => tx.txIndex) rows).map fun tx => bufferToHexPrefixString tx.txId

/-- The events of a transaction in memory, a list for each kind, in the order in which
the maps are read. -/
def MemoryDataStore.eventsByKind (store : MemoryDataStore) (txId indexBlockHash : String) :
    List (List DbEvent) :=
  [(eventsOf (fun event => event.txId) txId indexBlockHash store.stxTokenEvents).map DbEvent.stx,
    (eventsOf (fun event => event.txId) txId indexBlockHash
      store.fungibleTokenEvents).map DbEvent.ft,
    (eventsOf (fun event => event.txId) txId indexBlockHash store.nonFungibleTokenEvents).map
      DbEvent.nft,
    (eventsOf (fun event => event.txId) txId indexBlockHash store.smartContractEvents).map
      DbEvent.smartContractLog]

/-! ## Listings in order -/

/-- The listing has every one of the rows exactly once, by ascending position. -/
structure ListsInOrder {α β : Type} (position : α → Int) (listed : α → β) (rows : List α)
    (listing : List β) : Prop where
  once : listing.Nodup
  ascending : ∃ ordered : List α, ordered.Perm rows ∧ listing = ordered.map listed ∧
    ordered.Pairwise fun first second => position first ≤ position second

/-- The rows stand by ascending position, but for those with a negative position, which
stand by descending position among themselves. -/
structure FoundInOrder {α : Type} (position : α → Int) (rows : List α) : Prop where
  negative : (rows.filter fun row => position row < 0).Pairwise fun first second =>
    position second ≤ position first
  ascending : (rows.filter fun row => 0 ≤ position row).Pairwise fun first second =>
    position first ≤ position second

/-- The events of each kind stand in order, and none of a later kind belongs before one
of an earlier kind. -/
structure KindsInOrder (kinds : List (List DbEvent)) : Prop where
  within : ∀ kind ∈ kinds, kind.Pairwise fun first second => first.eventIndex ≤ second.eventIndex
  across : kinds.Pairwise fun earlier later =>
    ∀ first ∈ earlier, ∀ second ∈ later, first.eventIndex ≤ second.eventIndex

section Order

variable {α β : Type} {position : α → Int} {listed : α → β} {rows : List α}

/-- Rows that the listing tells apart have one order in it. -/
theorem eq_of_map_eq (distinct : (rows.map listed).Nodup) {first second : List α}
    (firstRows : ∀ row ∈ first, row ∈ rows) (secondRows : ∀ row ∈ second, row ∈ rows)
    (same : first.map listed = second.map listed) : first = second := by
  induction first generalizing second with
  | nil => exact (List.map_eq_nil_iff.mp same.symm).symm
  | cons row first ih =>
      cases second with
      | nil => cases same
      | cons other second =>
          obtain ⟨head, tail⟩ := List.cons_eq_cons.mp same
          obtain ⟨rowMem, firstRows⟩ := List.forall_mem_cons.mp firstRows
          obtain ⟨otherMem, secondRows⟩ := List.forall_mem_cons.mp secondRows
          rw [List.inj_on_of_nodup_map distinct rowMem otherMem head, ih firstRows secondRows tail]

theorem listsInOrder_arraySort_iff (distinct : (rows.map listed).Nodup) :
    ListsInOrder position listed rows ((arraySort (fun row _ => position row) rows).map listed) ↔
      FoundInOrder position rows := by
  have perm := arraySort_perm (fun row _ => position row) rows
  have sorted := pairwise_arraySort_of_first position rows
  constructor
  · rintro ⟨-, ordered, orderedPerm, same, ascending⟩
    rw [← eq_of_map_eq distinct (fun _ => perm.mem_iff.mp) (fun _ => orderedPerm.mem_iff.mp)
      same] at ascending
    obtain ⟨negative, others⟩ := sorted.mp ascending
    exact ⟨negative, others⟩
  · rintro ⟨negative, others⟩
    exact ⟨(perm.map listed).nodup_iff.mpr distinct, _, perm, rfl, sorted.mpr ⟨negative, others⟩⟩

end Order

/-! ## The tables -/

/-- No transaction is included twice in a block. -/
def InclusionsUnique (db : Db) : Prop :=
  (db.txs.map fun tx => (tx.txId, tx.indexBlockHash)).Nodup

theorem map_inclusion_of_raised {first second : List (DbTx Buffer)}
    (same : raised first = raised second) :
    first.map (fun tx => (tx.txId, tx.indexBlockHash)) =
      second.map fun tx => (tx.txId, tx.indexBlockHash) := by
  have kept : ∀ rows : List (DbTx Buffer),
      (raised rows).map (fun tx => (tx.txId, tx.indexBlockHash)) =
      rows.map fun tx => (tx.txId, tx.indexBlockHash) := by
    intro rows
    rw [raised, List.map_map]
    rfl
  rw [← kept first, same, kept]

theorem nodup_insertRow_sameInclusion {row : DbTx Buffer} {rows : List (DbTx Buffer)}
    (distinct : (rows.map fun tx => (tx.txId, tx.indexBlockHash)).Nodup) :
    ((insertRow sameInclusion row rows).1.map fun tx => (tx.txId, tx.indexBlockHash)).Nodup := by
  rw [insertRow]
  split
  · exact distinct
  · next fresh =>
      rw [List.map_append, List.map_singleton, ← List.concat_eq_append]
      refine List.Nodup.concat ?_ distinct
      intro mem
      obtain ⟨stored, storedMem, same⟩ := List.mem_map.mp mem
      obtain ⟨sameId, sameHash⟩ := Prod.mk.inj same
      exact fresh (List.any_eq_true.mpr
        ⟨stored, storedMem, decide_eq_true ⟨sameId.symm, sameHash.symm⟩⟩)

theorem InclusionsUnique.addEntries {db : Db} (unique : InclusionsUnique db)
    (entries : List EntryRows) : InclusionsUnique (entries.foldl Db.addEntry db) :=
  List.foldlRecOn entries Db.addEntry unique fun _ unique _ _ =>
    nodup_insertRow_sameInclusion unique

theorem InclusionsUnique.update {db db' : Db} {data : DataStoreUpdateData}
    {events : List DataStoreEvent} (unique : InclusionsUnique db)
    (ok : update db data = .ok (db', events)) : InclusionsUnique db' := by
  obtain ⟨-, reorged, pruned, row, accepted⟩ := update_ok ok
  obtain ⟨counts, handled⟩ := accepted.reorg
  have prunedUnique : InclusionsUnique pruned := by
    have kept : pruned.txs = reorged.txs := accepted.rows_pruned .txs
    have raisedSame : raised reorged.txs = raised db.txs := (handleReorg_remarked handled).rows .txs
    rw [InclusionsUnique, kept, map_inclusion_of_raised raisedSame]
    exact unique
  rcases accepted.store with ⟨-, rfl⟩ | ⟨-, rows, -, rfl⟩
  · exact prunedUnique
  · have stored : InclusionsUnique { pruned with blocks := pruned.blocks ++ [row] } := prunedUnique
    exact stored.addEntries rows

theorem runStore_inclusionsUnique (calls : List StoreCall) : InclusionsUnique (runStore calls) := by
  have empty : InclusionsUnique Db.empty := List.nodup_nil
  refine run_induction (motive := fun _ db => InclusionsUnique db) empty ?_ calls
  intro past call unique
  cases result : performCall (run performCall Db.empty past) call with
  | error error =>
      rw [commit_of_error result]
      exact unique
  | ok outcome =>
      obtain ⟨db', events⟩ := outcome
      rw [commit_of_ok result]
      cases call with
      | update data => exact unique.update result
      | updateMempoolTx mempoolTx =>
          obtain ⟨row, -, ⟨-, rfl, -⟩ | ⟨-, rfl, -⟩⟩ := updateMempoolTx_ok result
          · exact unique
          · exact unique

/-! ## Listings of the stores -/

theorem getBlockTxs_inOrder_iff {db scanned : Db} (unique : InclusionsUnique db)
    (scan : Scan db scanned) {indexBlockHash : String} {buffer : Buffer}
    (decoded : hexToBuffer indexBlockHash = .ok buffer) :
    (∃ listing, getBlockTxs scanned indexBlockHash = .ok listing ∧
      ListsInOrder (fun tx => tx.txIndex) (fun tx => bufferToHexPrefixString tx.txId)
        (scanned.txs.filter fun row => row.indexBlockHash = buffer) listing) ↔
      FoundInOrder (fun tx => tx.txIndex)
        (scanned.txs.filter fun row => row.indexBlockHash = buffer) := by
  have distinct : ((scanned.txs.filter fun row => row.indexBlockHash = buffer).map
      fun tx => bufferToHexPrefixString tx.txId).Nodup := by
    have perm : (scanned.txs.map fun tx => (tx.txId, tx.indexBlockHash)).Perm
        (db.txs.map fun tx => (tx.txId, tx.indexBlockHash)) := ((scan.rows .txs).map _).symm
    have rows := (List.Nodup.of_map _ (perm.nodup_iff.mpr unique)).filter
      fun row => decide (row.indexBlockHash = buffer)
    refine rows.map_on ?_
    intro first firstMem second secondMem same
    obtain ⟨firstMem, firstBlock⟩ := List.mem_filter.mp firstMem
    obtain ⟨secondMem, secondBlock⟩ := List.mem_filter.mp secondMem
    apply List.inj_on_of_nodup_map (perm.nodup_iff.mpr unique) firstMem secondMem
    rw [of_decide_eq_true firstBlock, of_decide_eq_true secondBlock,
      bufferToHexPrefixString_injective same]
  rw [← listsInOrder_arraySort_iff distinct, getBlockTxs, decoded]
  constructor
  · rintro ⟨listing, same, inOrder⟩
    cases same
    exact inOrder
  · exact fun inOrder => ⟨_, rfl, inOrder⟩

namespace MemoryDataStore

variable {store : MemoryDataStore}

theorem getBlockTxs_inOrder_iff (keys : MemoryKeys store) (indexBlockHash : String) :
    ListsInOrder (fun tx => tx.txIndex) (fun tx => tx.txId)
        ((mapValues store.txs).filter fun tx => tx.indexBlockHash = indexBlockHash)
        (store.getBlockTxs indexBlockHash) ↔
      ((mapValues store.txs).filter fun tx => tx.indexBlockHash = indexBlockHash).Pairwise
        fun first second => first.txIndex ≤ second.txIndex := by
  have distinct : (((mapValues store.txs).filter fun tx => tx.indexBlockHash = indexBlockHash).map
      fun tx => tx.txId).Nodup :=
    keys.txs.nodup_map_keyOf.sublist (List.filter_sublist.map _)
  constructor
  · rintro ⟨-, ordered, perm, same, ascending⟩
    rwa [← eq_of_map_eq distinct (fun _ mem => mem) (fun _ => perm.mem_iff.mp) same] at ascending
  · intro ascending
    exact ⟨distinct, _, List.Perm.refl _, rfl, ascending⟩

/-- The events of one kind of a transaction are distinct. -/
theorem nodup_eventsOf {α : Type} {base : α → DbEventBase String}
    {items : List (String × MemoryEntry α)} (keyed : Keyed (itemKey base) items)
    (txId indexBlockHash : String) :
    (eventsOf (fun event => (base event).txId) txId indexBlockHash items).Nodup := by
  have distinct := (List.Nodup.of_map _ keyed.nodup_map_keyOf).filter fun item =>
    decide (item.indexBlockHash = indexBlockHash ∧ (base item.entry).txId = txId)
  refine distinct.map_on ?_
  intro first firstMem second secondMem same
  obtain ⟨firstBlock, -⟩ := of_decide_eq_true (List.mem_filter.mp firstMem).2
  obtain ⟨secondBlock, -⟩ := of_decide_eq_true (List.mem_filter.mp secondMem).2
  cases first
  cases second
  simp_all

/-- The callback is never negative, so the events stay in the order of their kinds. -/
theorem getTxEvents_eq_flatten (store : MemoryDataStore) (txId indexBlockHash : String) :
    store.getTxEvents txId indexBlockHash = (store.eventsByKind txId indexBlockHash).flatten := by
  rw [getTxEvents, arraySort_of_first_nonneg fun event _ => Int.natCast_nonneg event.eventIndex]
  simp [eventsByKind]

theorem nodup_eventsByKind (keys : MemoryKeys store) (txId indexBlockHash : String) :
    (store.eventsByKind txId indexBlockHash).flatten.Nodup := by
  rw [List.nodup_flatten]
  constructor
  · simp only [eventsByKind, List.forall_mem_cons, List.not_mem_nil, false_implies, implies_true,
      and_true]
    refine ⟨?_, ?_, ?_, ?_⟩
    · exact (nodup_eventsOf keys.stxTokenEvents txId indexBlockHash).map fun _ _ => DbEvent.stx.inj
    · exact (nodup_eventsOf keys.fungibleTokenEvents txId indexBlockHash).map
        fun _ _ => DbEvent.ft.inj
    · exact (nodup_eventsOf keys.nonFungibleTokenEvents txId indexBlockHash).map
        fun _ _ => DbEvent.nft.inj
    · exact (nodup_eventsOf keys.smartContractEvents txId indexBlockHash).map
        fun _ _ => DbEvent.smartContractLog.inj
  · -- events of different kinds differ by their constructor
    simp [eventsByKind, List.disjoint_left]

theorem getTxEvents_inOrder_iff (keys : MemoryKeys store) (txId indexBlockHash : String) :
    ListsInOrder (fun event => (event.eventIndex : Int)) id
        (store.eventsByKind txId indexBlockHash).flatten (store.getTxEvents txId indexBlockHash) ↔
      KindsInOrder (store.eventsByKind txId indexBlockHash) := by
  have distinct := nodup_eventsByKind keys txId indexBlockHash
  rw [getTxEvents_eq_flatten]
  generalize store.eventsByKind txId indexBlockHash = kinds at distinct ⊢
  constructor
  · rintro ⟨-, ordered, -, same, ascending⟩
    rw [List.map_id] at same
    rw [← same] at ascending
    simp only [Int.ofNat_le] at ascending
    obtain ⟨within, across⟩ := List.pairwise_flatten.mp ascending
    exact ⟨within, across⟩
  · rintro ⟨within, across⟩
    refine ⟨distinct, _, List.Perm.refl _, (List.map_id _).symm, ?_⟩
    simp only [Int.ofNat_le]
    exact List.pairwise_flatten.mpr ⟨within, across⟩

end MemoryDataStore

/-- After every run, the listing of a block is in the order of the chain if and only if
the rows, or the entries of the map, are found in that order, and the listing of events
in memory if and only if they are found in order and grouped by kind. -/
theorem listings_inOrder_iff (calls : List StoreCall) :
    (∀ scanned indexBlockHash buffer, Scan (runStore calls) scanned →
      hexToBuffer indexBlockHash = .ok buffer →
      ((∃ listing, getBlockTxs scanned indexBlockHash = .ok listing ∧
        ListsInOrder (fun tx => tx.txIndex) (fun tx => bufferToHexPrefixString tx.txId)
          (scanned.txs.filter fun row => row.indexBlockHash = buffer) listing) ↔
        FoundInOrder (fun tx => tx.txIndex)
          (scanned.txs.filter fun row => row.indexBlockHash = buffer))) ∧
    (∀ indexBlockHash,
      ListsInOrder (fun tx => tx.txIndex) (fun tx => tx.txId)
          ((mapValues (runMemory calls).txs).filter fun tx => tx.indexBlockHash = indexBlockHash)
          ((runMemory calls).getBlockTxs indexBlockHash) ↔
        ((mapValues (runMemory calls).txs).filter fun tx =>
          tx.indexBlockHash = indexBlockHash).Pairwise
            fun first second => first.txIndex ≤ second.txIndex) ∧
    ∀ txId indexBlockHash,
      ListsInOrder (fun event => (event.eventIndex : Int)) id
          ((runMemory calls).eventsByKind txId indexBlockHash).flatten
          ((runMemory calls).getTxEvents txId indexBlockHash) ↔
        KindsInOrder ((runMemory calls).eventsByKind txId indexBlockHash) := by
  refine ⟨?_, ?_, ?_⟩
  · intro scanned indexBlockHash buffer scan decoded
    exact getBlockTxs_inOrder_iff (runStore_inclusionsUnique calls) scan decoded
  · exact MemoryDataStore.getBlockTxs_inOrder_iff (runMemory_keys calls)
  · exact MemoryDataStore.getTxEvents_inOrder_iff (runMemory_keys calls)

/-- A second transaction, with an FT event before its STX event. -/
def secondEntry (indexBlockHash : String) (txIndex : Int) : TxEntry where
  tx := { (coinbaseEntry indexBlockHash 1).tx with txId := "0x0b", txIndex }
  stxEvents :=
    [{ eventIndex := 1, txId := "0x0b", txIndex, blockHeight := 1, canonical := true
       assetEventTypeId := .mint, sender := none, recipient := some "ST1", amount := 1000 }]
  ftEvents :=
    [{ eventIndex := 0, txId := "0x0b", txIndex, blockHeight := 1, canonical := true
       assetEventTypeId := .mint, sender := none, recipient := some "ST1"
       assetIdentifier := "ST1.token::coin", amount := 5 }]
  nftEvents := []
  contractLogEvents := []
  smartContracts := []

/-- A block with both transactions. -/
def pairedBlock : DataStoreUpdateData :=
  { emptyBlock "0x12" "0x00" 1 with txs := [coinbaseEntry "0x12" 1, secondEntry "0x12" 1] }

/-- One block with two transactions in the order of their positions, of which the events of the
first are numbered kind by kind. -/
theorem listings_inOrder_pairedBlock :
    (∃ listing, getBlockTxs (runStore [.update pairedBlock]) "0x12" = .ok listing ∧
      ListsInOrder (fun tx => tx.txIndex) (fun tx => bufferToHexPrefixString tx.txId)
        ((runStore [.update pairedBlock]).txs.filter fun row => row.indexBlockHash = [0x12])
        listing) ∧
    getBlockTxs (runStore [.update pairedBlock]) "0x12" = .ok ["0x0a", "0x0b"] ∧
    ListsInOrder (fun event => (event.eventIndex : Int)) id
      ((runMemory [.update pairedBlock]).eventsByKind "0x0a" "0x12").flatten
      ((runMemory [.update pairedBlock]).getTxEvents "0x0a" "0x12") := by
  obtain ⟨tables, -, events⟩ := listings_inOrder_iff [.update pairedBlock]
  refine ⟨?_, by decide, ?_⟩
  · exact (tables _ "0x12" [0x12] (Scan.refl _) (by decide)).mpr ⟨by decide, by decide⟩
  · exact (events "0x0a" "0x12").mpr ⟨by decide, by decide⟩

/-! ## Listings out of order -/

/-- The second transaction alone in a block, and then in another block after a first
one. -/
def relistedCalls : List StoreCall :=
  [.update { emptyBlock "0x11" "0x00" 1 with txs := [secondEntry "0x11" 0] },
    .update pairedBlock]

/-- The tables of the run, read in the opposite order. -/
def relistedScan : Db :=
  { runStore relistedCalls with
    txs := (runStore relistedCalls).txs.reverse }

theorem scan_reverse_txs (db : Db) : Scan db { db with txs := db.txs.reverse } where
  blocks := List.Perm.refl _
  rows table := by
    cases table with
    | txs => exact (List.reverse_perm _).symm
    | _ => exact List.Perm.refl _
  mempoolTxs := List.Perm.refl _

theorem scan_relistedScan : Scan (runStore relistedCalls) relistedScan :=
  scan_reverse_txs _

/-- The transactions of the second block are listed in the wrong order, by the tables
when they are read backwards and in memory always, and so are the events of its second
transaction in memory. -/
theorem relistedCalls_notInOrder :
    Scan (runStore relistedCalls) relistedScan ∧ hexToBuffer "0x12" = .ok [0x12] ∧
    getBlockTxs relistedScan "0x12" = .ok ["0x0b", "0x0a"] ∧
    (¬∃ listing, getBlockTxs relistedScan "0x12" = .ok listing ∧
      ListsInOrder (fun tx => tx.txIndex) (fun tx => bufferToHexPrefixString tx.txId)
        (relistedScan.txs.filter fun row => row.indexBlockHash = [0x12]) listing) ∧
    (runMemory relistedCalls).getBlockTxs "0x12" = ["0x0b", "0x0a"] ∧
    ¬ListsInOrder (fun tx => tx.txIndex) (fun tx => tx.txId)
      ((mapValues (runMemory relistedCalls).txs).filter fun tx => tx.indexBlockHash = "0x12")
      ((runMemory relistedCalls).getBlockTxs "0x12") ∧
    ((runMemory relistedCalls).getTxEvents "0x0b" "0x12").map DbEvent.eventIndex = [1, 0] ∧
    ¬ListsInOrder (fun event => (event.eventIndex : Int)) id
      ((runMemory relistedCalls).eventsByKind "0x0b" "0x12").flatten
      ((runMemory relistedCalls).getTxEvents "0x0b" "0x12") := by
  have decoded : hexToBuffer "0x12" = .ok [0x12] := by decide
  have keys := runMemory_keys relistedCalls
  refine ⟨scan_relistedScan, decoded, by decide +kernel, ?_, by decide +kernel, ?_,
    by decide +kernel, ?_⟩
  · rw [getBlockTxs_inOrder_iff (runStore_inclusionsUnique relistedCalls) scan_relistedScan decoded]
    rintro ⟨-, ascending⟩
    revert ascending
    decide +kernel
  · rw [MemoryDataStore.getBlockTxs_inOrder_iff keys]
    decide +kernel
  · rw [MemoryDataStore.getTxEvents_inOrder_iff keys]
    rintro ⟨-, across⟩
    revert across
    decide +kernel

end StacksApi.Datastore
