import StacksApi.Datastore.MempoolList
import StacksApi.Relational.Totals

/-!
# Totals of listings

Each page of a listing comes with the number of rows of the whole.  `getAddressTxs` takes it
from the rows of the page, so that it is zero on a page without rows, where the other
listings count on their own.  Clients that read up to the total do not reach such a page, but
each of their queries may read tied rows in an order of its own.
-/

namespace StacksApi.Datastore

open StacksApi.Binary
open StacksApi.Relational
open StacksApi.Transition

/-! ## Stored tables -/

/-- The keys that the tables declare unique: `index_block_hash` of a block, `tx_id` and
`index_block_hash` of a transaction in a block, and `tx_id` of a pending one. -/
structure UniqueKeys (db : Db) : Prop where
  blocks : (db.blocks.map DbBlock.indexBlockHash).Nodup
  txs : InclusionsUnique db
  mempoolTxs : (db.mempoolTxs.map fun row => row.txId).Nodup

theorem nodup_indexBlockHash_of_links {db db' : Db} (same : db'.links = db.links)
    (nodup : (db.blocks.map DbBlock.indexBlockHash).Nodup) :
    (db'.blocks.map DbBlock.indexBlockHash).Nodup := by
  have hashes : ∀ db : Db, db.blocks.map DbBlock.indexBlockHash =
      db.links.map fun link => link.hash := by
    intro db
    rw [Db.links, List.map_map]
    rfl
  rw [hashes, same, ← hashes]
  exact nodup

theorem UniqueKeys.update {db db' : Db} {data : DataStoreUpdateData}
    {events : List DataStoreEvent} (keys : UniqueKeys db)
    (ok : Datastore.update db data = .ok (db', events)) : UniqueKeys db' := by
  obtain ⟨-, reorged, pruned, row, accepted⟩ := update_ok ok
  obtain ⟨counts, handled⟩ := accepted.reorg
  have prunedBlocks : (pruned.blocks.map DbBlock.indexBlockHash).Nodup := by
    rw [accepted.blocks_pruned]
    exact nodup_indexBlockHash_of_links
      (Db.links_of_raised (handleReorg_remarked handled).blocks) keys.blocks
  refine ⟨?_, keys.txs.update ok, keys.mempoolTxs.sublist (accepted.sublist_mempoolTxs.map _)⟩
  rcases accepted.store with ⟨-, rfl⟩ | ⟨fresh, rows, -, rfl⟩
  · exact prunedBlocks
  · rw [Db.blocks_foldl_addEntry, List.map_append, List.map_singleton, ← List.concat_eq_append]
    refine List.Nodup.concat (fun mem => ?_) prunedBlocks
    obtain ⟨stored, storedMem, same⟩ := List.mem_map.mp mem
    exact fresh stored storedMem same

theorem UniqueKeys.updateMempoolTx {db db' : Db} {mempoolTx : DbMempoolTx String}
    {events : List DataStoreEvent} (keys : UniqueKeys db)
    (ok : Datastore.updateMempoolTx db mempoolTx = .ok (db', events)) : UniqueKeys db' := by
  obtain ⟨row, -, ⟨-, rfl, -⟩ | ⟨fresh, rfl, -⟩⟩ := updateMempoolTx_ok ok
  · exact keys
  · refine ⟨keys.blocks, keys.txs, ?_⟩
    rw [List.map_append, List.map_singleton, ← List.concat_eq_append]
    refine List.Nodup.concat (fun mem => ?_) keys.mempoolTxs
    obtain ⟨stored, storedMem, same⟩ := List.mem_map.mp mem
    exact fresh stored storedMem same

/-- Every run of the store keeps the keys unique. -/
theorem runStore_uniqueKeys (calls : List StoreCall) : UniqueKeys (runStore calls) := by
  have empty : UniqueKeys Db.empty := ⟨List.nodup_nil, List.nodup_nil, List.nodup_nil⟩
  refine run_induction (motive := fun _ db => UniqueKeys db) empty ?_ calls
  intro past call keys
  cases result : performCall (run performCall Db.empty past) call with
  | error error =>
      rw [commit_of_error result]
      exact keys
  | ok outcome =>
      obtain ⟨db', events⟩ := outcome
      rw [commit_of_ok result]
      cases call with
      | update data => exact keys.update result
      | updateMempoolTx mempoolTx => exact keys.updateMempoolTx result

/-! ## Listings and their clients -/

/-- The rows that `getTxList` lists. -/
def listedTxs (db : Db) (txTypeIds : List DbTxTypeId) : List (DbTx Buffer) :=
  db.txs.filter fun row =>
    row.canonical && (txTypeIds.isEmpty || decide (row.typeId ∈ txTypeIds))

/-- The rows that `getAddressTxs` lists. -/
def addressTxs (db : Db) (stxAddress : String) : List (DbTx Buffer) :=
  db.txs.filter fun row => row.canonical && isAddressTx stxAddress row

/-- The answer of a listing, in whatever order it reads the tables, reports the number of its
rows. -/
def Reports {α : Type} (db : Db) (query : Db → Except ApiError (Listing α)) (count : Nat) :
    Prop :=
  ∀ seen, Scan db seen → ∀ listing, query seen = .ok listing → listing.total = count

/-- The page of each listing reports the number of the rows that match its filter. -/
structure TotalsMatch (db : Db) (request : PageRequest) (txTypeFilter : List String)
    (stxAddress : String) : Prop where
  getBlocks : Reports db (fun seen => getBlocks seen request.limit request.offset)
    (db.blocks.filter DbBlock.canonical).length
  getTxList : ∀ txTypeIds, txTypeFilter.mapM getTxTypeId = .ok txTypeIds →
    Reports db (fun seen => getTxList seen request.limit request.offset txTypeFilter)
      (listedTxs db txTypeIds).length
  getMempoolTxList : Reports db
    (fun seen => getMempoolTxList seen request.limit request.offset) db.mempoolTxs.length
  getAddressTxs : Reports db
    (fun seen => getAddressTxs seen stxAddress request.limit request.offset)
    (addressTxs db stxAddress).length

/-- What a client reads of a page. -/
def Listing.reported {α : Type} (listing : Listing α) : List α × Nat :=
  (listing.results, listing.total)

/-- A client that raises the offset by the limit until it reaches the total stops, having
seen the record of each row once, in whatever order each of its queries reads the tables. -/
def SeesAll {α β : Type} (db : Db) (query : Db → Nat → Except ApiError (Listing β))
    (limit : Nat) (record : α → Except ApiError β) (rows : List α) : Prop :=
  ReadsAll (Scan db) (fun seen offset => (query seen offset).map Listing.reported) limit record
    rows

/-- The clients of all listings stop, having seen them entirely. -/
structure ClientsSeeAll (db : Db) (limit : Nat) (txTypeFilter : List String)
    (stxAddress : String) : Prop where
  getBlocks : SeesAll db (fun seen offset => getBlocks seen limit offset) limit
    (fun row => .ok (parseBlockQueryResult row)) (db.blocks.filter DbBlock.canonical)
  getTxList : ∀ txTypeIds, txTypeFilter.mapM getTxTypeId = .ok txTypeIds →
    SeesAll db (fun seen offset => getTxList seen limit offset txTypeFilter) limit
      parseTxQueryResult (listedTxs db txTypeIds)
  getMempoolTxList : SeesAll db (fun seen offset => getMempoolTxList seen limit offset) limit
    parseMempoolTxQueryResult db.mempoolTxs
  getAddressTxs : SeesAll db (fun seen offset => getAddressTxs seen stxAddress limit offset)
    limit parseTxQueryResult (addressTxs db stxAddress)

/-- A token transfer has its amount. -/
def DbTxBase.HasAmount (row : DbTxBase Buffer) : Prop :=
  row.typeId = .tokenTransfer → row.tokenTransferAmount ≠ none

/-- The transfers of each listing have their amounts, and the rows of each sort key are on
one page where there are rows. -/
structure Pageable (db : Db) (limit : Nat) (txTypeFilter : List String) (stxAddress : String) :
    Prop where
  getBlocks : WithinPages DbBlock.blockHeight limit (db.blocks.filter DbBlock.canonical)
  getTxList : ∀ txTypeIds, txTypeFilter.mapM getTxTypeId = .ok txTypeIds →
    (∀ row ∈ listedTxs db txTypeIds, row.HasAmount) ∧
      WithinPages txOrder limit (listedTxs db txTypeIds)
  getMempoolTxList : (∀ row ∈ db.mempoolTxs, row.HasAmount) ∧
    WithinPages DbMempoolTx.receiptTime limit db.mempoolTxs
  getAddressTxs : (∀ row ∈ addressTxs db stxAddress, row.HasAmount) ∧
    WithinPages txOrder limit (addressTxs db stxAddress)

theorem succeeds_parseTxColumns_iff {row : DbTxBase Buffer} :
    Succeeds (parseTxColumns row) ↔ row.HasAmount := by
  rw [parseTxColumns, DbTxBase.HasAmount]
  cases type : row.typeId with
  | tokenTransfer =>
      cases amount : row.tokenTransferAmount with
      | none => exact iff_of_false (not_succeeds_error _) fun has => has rfl rfl
      | some value => exact iff_of_true (succeeds_ok _) fun _ => Option.some_ne_none value
  | smartContract | contractCall | poisonMicroblock | coinbase =>
      apply iff_of_true (succeeds_ok _)
      rintro ⟨⟩

theorem succeeds_parseTx_iff {row : DbTx Buffer} :
    Succeeds (parseTxQueryResult row) ↔ row.HasAmount :=
  (succeeds_bind_of_total fun _ => succeeds_pure _).trans succeeds_parseTxColumns_iff

theorem succeeds_parseMempoolTx_iff {row : DbMempoolTx Buffer} :
    Succeeds (parseMempoolTxQueryResult row) ↔ row.HasAmount :=
  (succeeds_bind_of_total fun _ => succeeds_pure _).trans succeeds_parseTxColumns_iff

/-! ## Pages with their totals -/

section Pages

variable {α β : Type} {limit offset : Nat} {rows : List α} {record : α → Except ApiError β}
  {total : List α → Nat}

/-- The page and the total of a listing whose page is parsed. -/
theorem map_reported_parsed :
    (paged limit offset rows >>= fun rows => do
      let results ← rows.mapM record
      return ({ results, total := total rows } : Listing β)).map Listing.reported =
      ((page limit offset rows).mapM record).map fun results =>
        (results, total (page limit offset rows)) := by
  rw [paged_natCast]
  change (((page limit offset rows).mapM record >>= _).map Listing.reported : Except ApiError _) = _
  cases (page limit offset rows).mapM record <;> rfl

theorem total_of_map_reported {listing : Listing β} {answer : Except ApiError (Listing β)}
    {results : Except ApiError (List β)} {count : Nat}
    (reported : answer.map Listing.reported = results.map fun results => (results, count))
    (answered : answer = .ok listing) : listing.total = count := by
  rw [answered] at reported
  obtain ⟨seen, -, same⟩ := Except.map_eq_ok.mp reported.symm
  exact (congrArg Prod.snd same).symm

end Pages

section Listings

variable (db : Db) (limit offset : Nat)

theorem getBlocks_reported : (getBlocks db limit offset).map Listing.reported =
    ((page limit offset (orderByDesc DbBlock.blockHeight (db.blocks.filter DbBlock.canonical))).mapM
      fun row => (.ok (parseBlockQueryResult row) : Except ApiError _)).map
        fun results => (results, (db.blocks.filter DbBlock.canonical).length) := by
  rw [getBlocks, paged_natCast, mapM_ok]
  rfl

theorem getTxList_reported {txTypeFilter : List String} {txTypeIds : List DbTxTypeId}
    (typed : txTypeFilter.mapM getTxTypeId = .ok txTypeIds) :
    (getTxList db limit offset txTypeFilter).map Listing.reported =
      ((page limit offset (orderByDesc txOrder (listedTxs db txTypeIds))).mapM
        parseTxQueryResult).map fun results => (results, (listedTxs db txTypeIds).length) := by
  rw [getTxList, typed]
  exact @map_reported_parsed _ _ limit offset (orderByDesc txOrder (listedTxs db txTypeIds))
    parseTxQueryResult fun _ => (listedTxs db txTypeIds).length

theorem getMempoolTxList_reported : (getMempoolTxList db limit offset).map Listing.reported =
    ((page limit offset (orderByDesc DbMempoolTx.receiptTime db.mempoolTxs)).mapM
      parseMempoolTxQueryResult).map fun results => (results, db.mempoolTxs.length) :=
  @map_reported_parsed _ _ limit offset (orderByDesc DbMempoolTx.receiptTime db.mempoolTxs)
    parseMempoolTxQueryResult fun _ => db.mempoolTxs.length

/-- The total of the transactions of an address, which is that of the first row of the
page. -/
def addressTotal (stxAddress : String) : Nat :=
  if (page limit offset (orderByDesc txOrder (addressTxs db stxAddress))).isEmpty then 0
  else (addressTxs db stxAddress).length

theorem getAddressTxs_reported (stxAddress : String) :
    (getAddressTxs db stxAddress limit offset).map Listing.reported =
      ((page limit offset (orderByDesc txOrder (addressTxs db stxAddress))).mapM
        parseTxQueryResult).map fun results =>
          (results, addressTotal db limit offset stxAddress) :=
  @map_reported_parsed _ _ limit offset (orderByDesc txOrder (addressTxs db stxAddress))
    parseTxQueryResult fun rows =>
      if rows.isEmpty then 0 else (addressTxs db stxAddress).length

theorem addressTotal_eq (stxAddress : String) : addressTotal db limit offset stxAddress =
    if 0 < limit ∧ offset < (addressTxs db stxAddress).length
    then (addressTxs db stxAddress).length else 0 := by
  have pageEmpty : page limit offset (orderByDesc txOrder (addressTxs db stxAddress)) = [] ↔
      ¬(0 < limit ∧ offset < (addressTxs db stxAddress).length) := by
    rw [page_eq_nil_iff, (orderByDesc_perm _ _).length_eq]
    omega
  rw [addressTotal]
  by_cases empty : page limit offset (orderByDesc txOrder (addressTxs db stxAddress)) = []
  · rw [if_pos (List.isEmpty_iff.mpr empty), if_neg (pageEmpty.mp empty)]
  · rw [if_neg (by rwa [List.isEmpty_iff]), if_pos (not_not.mp (mt pageEmpty.mpr empty))]

end Listings

/-! ## The totals -/

section Totals

variable {db seen : Db}

theorem Scan.listedTxs (scan : Scan db seen) (txTypeIds : List DbTxTypeId) :
    (listedTxs db txTypeIds).Perm (listedTxs seen txTypeIds) :=
  (scan.rows .txs).filter _

theorem Scan.addressTxs (scan : Scan db seen) (stxAddress : String) :
    (addressTxs db stxAddress).Perm (addressTxs seen stxAddress) :=
  (scan.rows .txs).filter _

/-- The totals match exactly when the page of the address has a row or none matches. -/
theorem totalsMatch_iff (db : Db) (request : PageRequest) (txTypeFilter : List String)
    (stxAddress : String) : TotalsMatch db request txTypeFilter stxAddress ↔
      addressTxs db stxAddress = [] ∨
        0 < request.limit ∧ request.offset < (addressTxs db stxAddress).length := by
  constructor
  · intro totals
    rw [or_iff_not_imp_right]
    intro past
    have reported := getAddressTxs_reported db request.limit request.offset stxAddress
    have empty : page request.limit request.offset
        (orderByDesc txOrder (addressTxs db stxAddress)) = [] := by
      rw [page_eq_nil_iff, (orderByDesc_perm _ _).length_eq]
      omega
    rw [addressTotal_eq, if_neg past, empty] at reported
    obtain ⟨listing, answered, same⟩ := Except.map_eq_ok.mp reported
    have zero : listing.total = 0 := congrArg Prod.snd same
    have matching := totals.getAddressTxs db (Scan.refl db) listing answered
    exact List.length_eq_zero_iff.mp (matching.symm.trans zero)
  · intro condition
    constructor
    · intro seen scan listing answered
      rw [(scan.blocks.filter _).length_eq]
      exact total_of_map_reported (getBlocks_reported seen _ _) answered
    · intro txTypeIds typed seen scan listing answered
      rw [(scan.listedTxs txTypeIds).length_eq]
      exact total_of_map_reported (getTxList_reported seen _ _ typed) answered
    · intro seen scan listing answered
      rw [scan.mempoolTxs.length_eq]
      exact total_of_map_reported (getMempoolTxList_reported seen _ _) answered
    · intro seen scan listing answered
      have reported := getAddressTxs_reported seen request.limit request.offset stxAddress
      rw [addressTotal_eq, ← (scan.addressTxs stxAddress).length_eq] at reported
      rw [total_of_map_reported reported answered]
      rcases condition with none | inside
      · rw [none, List.length_nil, ite_self]
      · rw [if_pos inside]

end Totals

/-! ## The clients -/

section Clients

variable {db : Db}

/-- The rows of a part of a table are read in any order that the table is read in. -/
theorem exists_perm_filter_eq {α : Type} {keep : α → Bool} {rows order : List α}
    (perm : (rows.filter keep).Perm order) :
    ∃ read : List α, rows.Perm read ∧ read.filter keep = order := by
  refine ⟨order ++ rows.filter fun row => !keep row, ?_, ?_⟩
  · exact (List.filter_append_perm keep rows).symm.trans (perm.append_right _)
  · have kept : order.filter keep = order :=
      List.filter_eq_self.mpr fun row mem => (List.mem_filter.mp (perm.mem_iff.mpr mem)).2
    rw [List.filter_append, kept, List.filter_filter]
    simp

theorem exists_scan_filter_blocks {order : List (DbBlock Buffer)}
    (perm : (db.blocks.filter DbBlock.canonical).Perm order) :
    ∃ seen, Scan db seen ∧ seen.blocks.filter DbBlock.canonical = order := by
  obtain ⟨read, readPerm, same⟩ := exists_perm_filter_eq perm
  exact ⟨{ db with blocks := read }, { Scan.refl db with blocks := readPerm }, same⟩

theorem exists_scan_filter_txs {keep : DbTx Buffer → Bool} {order : List (DbTx Buffer)}
    (perm : (db.txs.filter keep).Perm order) :
    ∃ seen, Scan db seen ∧ seen.txs.filter keep = order := by
  obtain ⟨read, readPerm, same⟩ := exists_perm_filter_eq perm
  have rows : ∀ table, (db.rows table).Perm ({ db with txs := read }.rows table) := by
    intro table
    cases table with
    | txs => exact readPerm
    | stxEvents | ftEvents | nftEvents | contractLogs | smartContracts => exact List.Perm.refl _
  exact ⟨{ db with txs := read }, { Scan.refl db with rows := rows }, same⟩

theorem UniqueKeys.nodup_txs (keys : UniqueKeys db) (keep : DbTx Buffer → Bool) :
    ((db.txs.filter keep).map fun row =>
      (bufferToHexPrefixString row.txId, bufferToHexPrefixString row.indexBlockHash)).Nodup := by
  have named := keys.txs.map
    (bufferToHexPrefixString_injective.prodMap bufferToHexPrefixString_injective)
  rw [List.map_map] at named
  exact named.sublist (List.filter_sublist.map _)

variable {limit : Nat}

theorem seesAll_blocks_iff (keys : UniqueKeys db) :
    SeesAll db (fun seen offset => getBlocks seen limit offset) limit
        (fun row => .ok (parseBlockQueryResult row)) (db.blocks.filter DbBlock.canonical) ↔
      WithinPages DbBlock.blockHeight limit (db.blocks.filter DbBlock.canonical) := by
  have hashes : ((db.blocks.filter DbBlock.canonical).map fun row =>
      bufferToHexPrefixString row.indexBlockHash).Nodup := by
    have named := keys.blocks.map bufferToHexPrefixString_injective
    rw [List.map_map] at named
    exact named.sublist (List.filter_sublist.map _)
  have hashOf : ∀ (row : DbBlock Buffer) (block : DbBlock String),
      (.ok (parseBlockQueryResult row) : Except ApiError _) = .ok block →
        block.indexBlockHash = bufferToHexPrefixString row.indexBlockHash := by
    rintro row block ⟨⟩
    rfl
  refine (readsAll_iff (fun seen offset => getBlocks_reported seen limit offset)
    (fun seen scan => scan.blocks.filter _) (fun order => exists_scan_filter_blocks) ?_ ?_ hashOf
    hashes).trans ?_
  · intro _ seen scan _ _
    exact (scan.blocks.filter _).length_eq.symm
  · intro empty seen scan
    rw [← (scan.blocks.filter _).length_eq, empty, List.length_nil]
  · exact and_iff_right fun row _ => succeeds_ok _

/-- What the listings of transactions in blocks share: each page with rows comes with their
number. -/
theorem seesAll_txs_iff (keys : UniqueKeys db) {keep : DbTx Buffer → Bool}
    {query : Db → Nat → Except ApiError (Listing (DbTx String))} {total : Db → Nat → Nat}
    (reported : ∀ seen offset, (query seen offset).map Listing.reported =
      ((page limit offset (orderByDesc txOrder (seen.txs.filter keep))).mapM
        parseTxQueryResult).map fun results => (results, total seen offset))
    (counted : 0 < limit → ∀ seen offset, offset < (seen.txs.filter keep).length →
      total seen offset = (seen.txs.filter keep).length)
    (uncounted : ∀ seen, seen.txs.filter keep = [] → total seen 0 = 0) :
    SeesAll db query limit parseTxQueryResult (db.txs.filter keep) ↔
      (∀ row ∈ db.txs.filter keep, row.HasAmount) ∧
        WithinPages txOrder limit (db.txs.filter keep) := by
  have inclusion : ∀ row tx, parseTxQueryResult row = .ok tx →
      (tx.txId, tx.indexBlockHash) =
        (bufferToHexPrefixString row.txId, bufferToHexPrefixString row.indexBlockHash) :=
    fun row tx parsed =>
      Prod.ext (parsedTx_of_ok parsed).txId (parsedTx_of_ok parsed).indexBlockHash
  have scanned : ∀ seen, Scan db seen → (db.txs.filter keep).Perm (seen.txs.filter keep) :=
    fun seen scan => (scan.rows .txs).filter keep
  refine (readsAll_iff reported scanned (fun order => exists_scan_filter_txs) ?_ ?_ inclusion
    (keys.nodup_txs keep)).trans ?_
  · intro positive seen scan offset inside
    rw [(scanned seen scan).length_eq] at inside ⊢
    exact counted positive seen offset inside
  · intro empty seen scan
    exact uncounted seen (List.nil_perm.mp (empty ▸ scanned seen scan))
  · simp only [succeeds_parseTx_iff]

theorem seesAll_mempoolTxs_iff (keys : UniqueKeys db) :
    SeesAll db (fun seen offset => getMempoolTxList seen limit offset) limit
        parseMempoolTxQueryResult db.mempoolTxs ↔
      (∀ row ∈ db.mempoolTxs, row.HasAmount) ∧
        WithinPages DbMempoolTx.receiptTime limit db.mempoolTxs := by
  have ids : (db.mempoolTxs.map fun row => bufferToHexPrefixString row.txId).Nodup := by
    have named := keys.mempoolTxs.map bufferToHexPrefixString_injective
    rwa [List.map_map] at named
  have idOf : ∀ row tx, parseMempoolTxQueryResult row = .ok tx →
      tx.txId = bufferToHexPrefixString row.txId := fun _ _ => txId_of_parsedMempool
  refine (readsAll_iff (fun seen offset => getMempoolTxList_reported seen limit offset)
    (fun seen scan => scan.mempoolTxs) ?_ ?_ ?_ idOf ids).trans ?_
  · intro order perm
    exact ⟨{ db with mempoolTxs := order }, { Scan.refl db with mempoolTxs := perm }, rfl⟩
  · intro _ seen scan _ _
    exact scan.mempoolTxs.length_eq.symm
  · intro empty seen scan
    rw [← scan.mempoolTxs.length_eq, empty, List.length_nil]
  · simp only [succeeds_parseMempoolTx_iff]

theorem seesAll_listedTxs_iff (keys : UniqueKeys db) {txTypeFilter : List String}
    {txTypeIds : List DbTxTypeId} (typed : txTypeFilter.mapM getTxTypeId = .ok txTypeIds) :
    SeesAll db (fun seen offset => getTxList seen limit offset txTypeFilter) limit
        parseTxQueryResult (listedTxs db txTypeIds) ↔
      (∀ row ∈ listedTxs db txTypeIds, row.HasAmount) ∧
        WithinPages txOrder limit (listedTxs db txTypeIds) :=
  seesAll_txs_iff keys (fun seen offset => getTxList_reported seen limit offset typed)
    (fun _ _ _ _ => rfl) fun _ empty => congrArg List.length empty

theorem seesAll_addressTxs_iff (keys : UniqueKeys db) (stxAddress : String) :
    SeesAll db (fun seen offset => getAddressTxs seen stxAddress limit offset) limit
        parseTxQueryResult (addressTxs db stxAddress) ↔
      (∀ row ∈ addressTxs db stxAddress, row.HasAmount) ∧
        WithinPages txOrder limit (addressTxs db stxAddress) := by
  apply seesAll_txs_iff keys fun seen offset => getAddressTxs_reported seen limit offset stxAddress
  · intro positive seen offset inside
    exact (addressTotal_eq seen limit offset stxAddress).trans (if_pos ⟨positive, inside⟩)
  · intro seen empty
    have none : (addressTxs seen stxAddress).length = 0 := congrArg List.length empty
    rw [addressTotal_eq, none, ite_self]

/-- The clients see the entire listings exactly when these are pageable. -/
theorem clientsSeeAll_iff (keys : UniqueKeys db) (limit : Nat) (txTypeFilter : List String)
    (stxAddress : String) : ClientsSeeAll db limit txTypeFilter stxAddress ↔
      Pageable db limit txTypeFilter stxAddress := by
  constructor
  · intro clients
    exact ⟨(seesAll_blocks_iff keys).mp clients.getBlocks,
      fun txTypeIds typed =>
        (seesAll_listedTxs_iff keys typed).mp (clients.getTxList txTypeIds typed),
      (seesAll_mempoolTxs_iff keys).mp clients.getMempoolTxList,
      (seesAll_addressTxs_iff keys stxAddress).mp clients.getAddressTxs⟩
  · intro pageable
    exact ⟨(seesAll_blocks_iff keys).mpr pageable.getBlocks,
      fun txTypeIds typed =>
        (seesAll_listedTxs_iff keys typed).mpr (pageable.getTxList txTypeIds typed),
      (seesAll_mempoolTxs_iff keys).mpr pageable.getMempoolTxList,
      (seesAll_addressTxs_iff keys stxAddress).mpr pageable.getAddressTxs⟩

/-- Where the transactions of each block have positions of their own, only pending ones are
tied. -/
theorem pageable_iff_of_positioned (standing : Standing db) (positioned : Positioned db)
    (amounts : (∀ row ∈ db.txs, row.HasAmount) ∧ ∀ row ∈ db.mempoolTxs, row.HasAmount)
    (positive : 0 < limit) (txTypeFilter : List String) (stxAddress : String) :
    Pageable db limit txTypeFilter stxAddress ↔
      TiesOnOnePage DbMempoolTx.receiptTime limit db.mempoolTxs := by
  constructor
  · intro pageable
    rcases pageable.getMempoolTxList.2 with empty | ⟨-, ties⟩
    · exact tiesOnOnePage_of_length_le (by rw [empty]; exact Nat.zero_le limit)
    · exact ties
  · intro ties
    have within : ∀ keep : DbTx Buffer → Bool,
        WithinPages txOrder limit (db.txs.filter fun row => row.canonical && keep row) :=
      fun keep => withinPages_of_nodup positive (positioned.nodup_txOrder standing keep)
    exact ⟨withinPages_of_nodup positive standing.forked.nodup_heights,
      fun _ _ => ⟨fun row mem => amounts.1 row (List.mem_of_mem_filter mem), within _⟩,
      ⟨amounts.2, .inr ⟨positive, ties⟩⟩,
      ⟨fun row mem => amounts.1 row (List.mem_of_mem_filter mem), within _⟩⟩

end Clients

/-- For every state of the tables and every page, the totals of the page match exactly when
it has a transaction of the address or there is none, and the clients that read up to the
total see the entire listings exactly when these are pageable. -/
theorem listingTotals_iff {db : Db} (keys : UniqueKeys db) (request : PageRequest)
    (txTypeFilter : List String) (stxAddress : String) :
    (TotalsMatch db request txTypeFilter stxAddress ↔
      addressTxs db stxAddress = [] ∨
        0 < request.limit ∧ request.offset < (addressTxs db stxAddress).length) ∧
    (ClientsSeeAll db request.limit txTypeFilter stxAddress ↔
      Pageable db request.limit txTypeFilter stxAddress) :=
  ⟨totalsMatch_iff db request txTypeFilter stxAddress,
    clientsSeeAll_iff keys request.limit txTypeFilter stxAddress⟩

/-- Two blocks with a transaction of one address each. -/
def pairedCoinbases : List DataStoreUpdateData :=
  [coinbaseBlock "0x11" "0x00" 1, coinbaseBlock "0x22" "0x11" 2]

/-- Two transactions of an address, each on a page of its own: the client sees both. -/
theorem listingTotals_pages :
    TotalsMatch (runUpdates pairedCoinbases) ⟨1, 1, by decide, by decide⟩ [] "ST1" ∧
      ClientsSeeAll (runUpdates pairedCoinbases) 1 [] "ST1" := by
  have keys : UniqueKeys (runUpdates pairedCoinbases) := by
    refine ⟨by decide +kernel, ?_, by decide +kernel⟩
    change List.Nodup _
    decide +kernel
  obtain ⟨totals, clients⟩ := listingTotals_iff keys ⟨1, 1, by decide, by decide⟩ [] "ST1"
  refine ⟨totals.mpr (.inr (by decide +kernel)), clients.mpr ?_⟩
  have none : (runUpdates pairedCoinbases).mempoolTxs = [] := by decide +kernel
  have coinbases : ∀ row ∈ (runUpdates pairedCoinbases).txs, row.typeId = .coinbase := by
    decide +kernel
  have amounts : ∀ row ∈ (runUpdates pairedCoinbases).txs, row.HasAmount := by
    intro row mem transfer
    rw [coinbases row mem] at transfer
    cases transfer
  have heights : ((runUpdates pairedCoinbases).txs.map txOrder).Nodup := by decide +kernel
  have apart : ∀ keep : DbTx Buffer → Bool,
      WithinPages txOrder 1 ((runUpdates pairedCoinbases).txs.filter keep) :=
    fun keep => withinPages_of_nodup Nat.one_pos (heights.sublist (List.filter_sublist.map _))
  refine ⟨withinPages_of_nodup Nat.one_pos (by decide +kernel), ?_, ?_, ?_⟩
  · exact fun _ _ => ⟨fun row mem => amounts row (List.mem_of_mem_filter mem), apart _⟩
  · rw [none]
    exact ⟨List.forall_mem_nil _, .inl rfl⟩
  · exact ⟨fun row mem => amounts row (List.mem_of_mem_filter mem), apart _⟩

/-- One transaction of an address, and the page behind it. -/
theorem listingTotals_pastEnd :
    getAddressTxs (runUpdates [coinbaseBlock "0x11" "0x00" 1]) "ST1" 20 1 =
      .ok { results := [], total := 0 } ∧
    ¬TotalsMatch (runUpdates [coinbaseBlock "0x11" "0x00" 1]) ⟨20, 1, by decide, by decide⟩ []
      "ST1" := by
  have answered : getAddressTxs (runUpdates [coinbaseBlock "0x11" "0x00" 1]) "ST1" 20 1 =
      .ok { results := [], total := 0 } := by
    decide +kernel
  refine ⟨answered, fun totals => ?_⟩
  have matching := totals.getAddressTxs _ (Scan.refl _) _ answered
  revert matching
  decide +kernel

end StacksApi.Datastore
