import StacksApi.Datastore.Positions
import StacksApi.Relational.Paging

/-!
# Listings page by page

Canonical rows with distinct positions have distinct sort keys in every listing, so that
the pages of a listing, each by a query of its own, are those of one list.
-/

namespace StacksApi.Datastore

open StacksApi.Binary
open StacksApi.Relational
open StacksApi.Transition

/-- `ORDER BY block_height DESC, tx_index DESC` -/
def txOrder (row : DbTx Buffer) : Nat ×ₗ Int :=
  toLex (row.blockHeight, row.txIndex)

/-- Page by page, with a query for each page that reads the tables in an order of its own,
every listing yields the record of each of its canonical rows exactly once, by strictly
descending height, index of the transaction and index of the event. -/
structure ListedByPages (db : Db) (read : Nat → Db) (limit : Nat) : Prop where
  getBlocks : PagesList DbBlock.blockHeight (fun row => .ok (parseBlockQueryResult row))
    (db.blocks.filter DbBlock.canonical)
    (fun number offset => (getBlocks (read number) limit offset).map Listing.results) limit
  getTxList : ∀ txTypeFilter txTypeIds, txTypeFilter.mapM getTxTypeId = .ok txTypeIds →
    PagesList txOrder parseTxQueryResult
      (db.txs.filter fun row =>
        row.canonical && (txTypeIds.isEmpty || decide (row.typeId ∈ txTypeIds)))
      (fun number offset =>
        (getTxList (read number) limit offset txTypeFilter).map Listing.results) limit
  getAddressTxs : ∀ stxAddress, PagesList txOrder parseTxQueryResult
    (db.txs.filter fun row => row.canonical && isAddressTx stxAddress row)
    (fun number offset => (getAddressTxs (read number) stxAddress limit offset).map Listing.results)
    limit
  getAddressAssetEvents : ∀ stxAddress,
    PagesList (fun event : DbEvent => eventOrder event.base) .ok (addressAssetEvents db stxAddress)
      (fun number offset =>
        (getAddressAssetEvents (read number) stxAddress limit offset).map Listing.results) limit
  getSmartContractEvents : ∀ contractId,
    PagesList
      (fun row : InBlock (DbSmartContractEvent Buffer) => eventOrder row.entity.toDbEventBase)
      (fun row => .ok (readCanonicalLog row.entity))
      (db.contractLogs.filter fun row =>
        row.entity.canonical && row.entity.contractIdentifier = contractId)
      (fun number offset => getSmartContractEvents (read number) contractId limit offset) limit

theorem paged_natCast {α : Type} (limit offset : Nat) (rows : List α) :
    paged limit offset rows = .ok (page limit offset rows) := by
  rw [paged, if_neg (Int.not_lt.mpr (Int.natCast_nonneg offset)),
    if_neg (Int.not_lt.mpr (Int.natCast_nonneg limit))]
  rfl

/-! ## Sort keys -/

section Keys

variable {db : Db}

/-- Keys that tell the rows apart are distinct also for fewer rows. -/
theorem nodup_keys {α β κ : Type} {rows : List α} {canonical keep : α → Bool} {at' : α → β}
    {key : α → κ} (distinct : ((rows.filter canonical).map at').Nodup)
    (kept : ∀ row, keep row = true → canonical row = true)
    (determines : ∀ first second, key first = key second → at' first = at' second) :
    ((rows.filter keep).map key).Nodup := by
  have fewer : (rows.filter keep).Sublist (rows.filter canonical) :=
    List.monotone_filter_right rows kept
  refine (List.Nodup.of_map _ (distinct.sublist (fewer.map at'))).map_on ?_
  intro first firstMem second secondMem same
  exact List.inj_on_of_nodup_map distinct (fewer.subset firstMem) (fewer.subset secondMem)
    (determines first second same)

theorem Forked.nodup_heights (forked : Forked db) :
    ((db.blocks.filter DbBlock.canonical).map DbBlock.blockHeight).Nodup := by
  refine ((List.Nodup.of_map _ forked.keys).filter _).map_on ?_
  intro first firstMem second secondMem same
  obtain ⟨firstMem, firstCanonical⟩ := List.mem_filter.mp firstMem
  obtain ⟨secondMem, secondCanonical⟩ := List.mem_filter.mp secondMem
  exact forked.single first firstMem second secondMem firstCanonical secondCanonical same

theorem Positioned.nodup_txOrder (positioned : Positioned db) (standing : Standing db)
    (keep : DbTx Buffer → Bool) :
    ((db.txs.filter fun row => row.canonical && keep row).map txOrder).Nodup := by
  have distinct := positioned.txs.nodup_canonical standing.forked (standing.owned .txs)
  apply nodup_keys distinct
  · intro row kept
    exact (Bool.and_eq_true_iff.mp kept).1
  · intro first second same
    exact toLex.injective same

theorem Standing.owned_eventRows (standing : Standing db) :
    ∀ row ∈ db.eventRows, ∃ block ∈ db.blocks,
      block.indexBlockHash = (eventPlace row).indexBlockHash ∧
        block.canonical = row.entity.base.canonical := by
  simp only [Db.eventRows, List.forall_mem_append, List.forall_mem_map]
  exact ⟨⟨⟨standing.owned .stxEvents, standing.owned .ftEvents⟩, standing.owned .nftEvents⟩,
    standing.owned .contractLogs⟩

theorem Positioned.nodup_eventOrder (positioned : Positioned db) (standing : Standing db) :
    ((db.eventRows.filter fun row => row.entity.base.canonical).map fun row =>
      eventOrder row.entity.base).Nodup := by
  have distinct := positioned.events.nodup_canonical standing.forked standing.owned_eventRows
  apply nodup_keys distinct fun _ kept => kept
  intro first second same
  obtain ⟨height, position⟩ := Prod.mk.inj (toLex.injective same)
  exact Prod.ext height (toLex.injective position)

/-- The asset events of an address are among the canonical events. -/
theorem Positioned.nodup_assetEvents (positioned : Positioned db) (standing : Standing db)
    (stxAddress : String) :
    ((addressAssetEvents db stxAddress).map fun event => eventOrder event.base).Nodup := by
  refine (positioned.nodup_eventOrder standing).sublist ?_
  have canonical : ∀ event : DbAssetEvent Buffer, isAddressEvent stxAddress event = true →
      event.canonical = true :=
    fun event selected => (Bool.and_eq_true_iff.mp selected).1
  simp only [addressAssetEvents, Db.eventRows, List.map_append, List.filter_append,
    List.filter_map, List.map_map]
  refine List.Sublist.trans ?_ (List.sublist_append_left _ _)
  refine List.Sublist.append (List.Sublist.append ?_ ?_) ?_
  · refine (List.monotone_filter_right _ ?_).map _
    exact fun row => canonical row.entity.toDbAssetEvent
  · refine (List.monotone_filter_right _ ?_).map _
    exact fun row => canonical row.entity.toDbAssetEvent
  · refine (List.monotone_filter_right _ ?_).map _
    exact fun row => canonical row.entity.toDbAssetEvent

theorem Positioned.nodup_logs (positioned : Positioned db) (standing : Standing db)
    (contractId : String) :
    ((db.contractLogs.filter fun row =>
      row.entity.canonical && row.entity.contractIdentifier = contractId).map fun row =>
        eventOrder row.entity.toDbEventBase).Nodup := by
  refine (positioned.nodup_eventOrder standing).sublist ?_
  simp only [Db.eventRows, List.map_append, List.filter_append, List.filter_map, List.map_map]
  refine List.Sublist.trans ?_ (List.sublist_append_right _ _)
  refine (List.monotone_filter_right _ ?_).map _
  exact fun row kept => (Bool.and_eq_true_iff.mp kept).1

end Keys

/-! ## Parsed transactions -/

/-- What a parsed row keeps. -/
structure ParsedTx (row : DbTx Buffer) (tx : DbTx String) : Prop where
  txId : tx.txId = bufferToHexPrefixString row.txId
  indexBlockHash : tx.indexBlockHash = bufferToHexPrefixString row.indexBlockHash
  typeId : tx.typeId = row.typeId
  place : toLex (tx.blockHeight, tx.txIndex) = txOrder row
  canonical : tx.canonical = row.canonical

theorem parsedTx_of_ok {row : DbTx Buffer} {tx : DbTx String}
    (parsed : parseTxQueryResult row = .ok tx) : ParsedTx row tx := by
  obtain ⟨columns, columnsOk, same⟩ := Except.bind_eq_ok.mp parsed
  cases same
  have kept := parsedColumns_of_ok columnsOk
  exact ⟨kept.txId, rfl, kept.typeId, rfl, rfl⟩

/-! ## Pages -/

theorem Scan.addressAssetEvents_perm {db scanned : Db} (scan : Scan db scanned)
    (stxAddress : String) :
    (addressAssetEvents db stxAddress).Perm (addressAssetEvents scanned stxAddress) := by
  have stx : db.stxEvents.Perm scanned.stxEvents := scan.rows .stxEvents
  have ft : db.ftEvents.Perm scanned.ftEvents := scan.rows .ftEvents
  have nft : db.nftEvents.Perm scanned.nftEvents := scan.rows .nftEvents
  exact (((stx.filter _).map _).append ((ft.filter _).map _)).append ((nft.filter _).map _)

section Results

variable {α β : Type} {limit offset : Nat} {rows : List α}

theorem mapM_ok (f : α → β) (rows : List α) :
    rows.mapM (fun row => (.ok (f row) : Except ApiError β)) = .ok (rows.map f) := by
  induction rows with
  | nil => rfl
  | cons row rows ih =>
      rw [List.mapM_cons, ih]
      rfl

/-- The results of a listing whose page is parsed. -/
theorem map_results_parsed {parse : α → Except ApiError β} {total : List α → Nat} :
    (paged limit offset rows >>= fun rows => do
      let results ← rows.mapM parse
      return ({ results, total := total rows } : Listing β)).map Listing.results =
      (page limit offset rows).mapM parse := by
  rw [paged_natCast]
  change (((page limit offset rows).mapM parse >>= _).map Listing.results : Except ApiError _) = _
  cases (page limit offset rows).mapM parse <;> rfl

end Results

/-- Where positions are unique and the transactions can be parsed, the listings are
complete page by page. -/
theorem Positioned.listedByPages {db : Db} (positioned : Positioned db) (standing : Standing db)
    (parses : ∀ tx ∈ db.txs, Succeeds (parseTxQueryResult tx)) {read : Nat → Db}
    (scans : ∀ number, Scan db (read number)) (limit : Nat) : ListedByPages db read limit where
  getBlocks := by
    apply pagesList_of_nodup standing.forked.nodup_heights
      (fun number => (scans number).blocks.filter _) fun _ _ => succeeds_ok _
    intro number offset
    rw [Datastore.getBlocks, paged_natCast]
    exact (mapM_ok _ _).symm
  getTxList := by
    intro txTypeFilter txTypeIds typed
    apply pagesList_of_nodup (positioned.nodup_txOrder standing _)
      (fun number => ((scans number).rows .txs).filter _)
      fun row mem => parses row (List.mem_of_mem_filter mem)
    intro number offset
    let matching := (read number).txs.filter fun row =>
      row.canonical && (txTypeIds.isEmpty || decide (row.typeId ∈ txTypeIds))
    rw [Datastore.getTxList, typed]
    exact @map_results_parsed _ _ limit offset (orderByDesc txOrder matching) parseTxQueryResult
      fun _ => matching.length
  getAddressTxs := by
    intro stxAddress
    apply pagesList_of_nodup (positioned.nodup_txOrder standing _)
      (fun number => ((scans number).rows .txs).filter _)
      fun row mem => parses row (List.mem_of_mem_filter mem)
    intro number offset
    exact map_results_parsed
  getAddressAssetEvents := by
    intro stxAddress
    apply pagesList_of_nodup (positioned.nodup_assetEvents standing stxAddress)
      (fun number => (scans number).addressAssetEvents_perm stxAddress) fun _ _ => succeeds_ok _
    intro number offset
    rw [Datastore.getAddressAssetEvents, paged_natCast]
    exact ((mapM_ok id _).trans (congrArg Except.ok (List.map_id _))).symm
  getSmartContractEvents := by
    intro contractId
    apply pagesList_of_nodup (positioned.nodup_logs standing contractId)
      (fun number => ((scans number).rows .contractLogs).filter _) fun _ _ => succeeds_ok _
    intro number offset
    rw [Datastore.getSmartContractEvents, paged_natCast]
    exact (mapM_ok _ _).symm

end StacksApi.Datastore
