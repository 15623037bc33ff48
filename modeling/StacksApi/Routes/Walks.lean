import StacksApi.Relational.Walk
import StacksApi.Routes.Listings
import Mathlib.Tactic.IntervalCases

/-!
# Walking through the listings

A client walks through `GET /block` or `GET /tx` page by page, while blocks arrive and chains
are reorganised.  A canonical block stands behind one block of each height above it, so that a
reorganisation moves no block to the front.  Transactions can move there when a fork with
fewer transactions wins.
-/

namespace StacksApi.Routes

open StacksApi.Binary
open StacksApi.Relational
open StacksApi.Datastore
open StacksApi.Controllers
open StacksApi.Transition
open Reading

variable {calls : List StoreCall} {start last : Moment calls}

/-! ## Blocks -/

/-- `GET /block` at an offset; the queries of each request run in one of the two orders. -/
def blockResults (totalFirst : Nat → Bool) (limit offset : Nat) : QueryM (List Block) := do
  let response ← listBlockPage (totalFirst offset) limit offset
  return response.results

/-- The request with the two numbers is answered with this page, as far as doubles are exact. -/
theorem listBlocks_page {totalFirst : Bool} {limit offset : Nat} (bounded : limit ≤ 30)
    (small : offset ≤ 2 ^ 53) :
    listBlocks totalFirst (some (.text (toString limit))) (some (.text (toString offset))) =
      listBlockPage totalFirst limit offset :=
  listBlocks_of_accepted
    (parseLimitQuery_ok_iff.mpr ⟨parsePagingQueryInput_toString (by omega), bounded⟩)
    (parsePagingQueryInput_toString small)

theorem forked_moment (consistent : Consistent (updatesOf calls)) (moment : Moment calls) :
    Forked moment.db := by
  obtain ⟨flag, invariant, -⟩ := runStore_chainInvariant (moment.consistent consistent)
  constructor
  · exact nodup_indexBlockHash invariant.grounded
  · intro first firstMem second secondMem firstCanonical secondCanonical same
    have positive : 1 ≤ first.blockHeight :=
      invariant.grounded.heightPos first.link (List.mem_map_of_mem firstMem)
    obtain ⟨row, -, unique⟩ := invariant.canonicalChain.atHeight first.blockHeight positive
      (blockHeight_le_maxBlockHeight firstMem)
    rw [unique first ⟨firstMem, firstCanonical, rfl⟩,
      unique second ⟨secondMem, secondCanonical, same.symm⟩]

/-- The canonical blocks of one moment have heights that those of a later one have, too. -/
theorem exists_canonical_atHeight (consistent : Consistent (updatesOf calls))
    {earlier later : Moment calls} (order : earlier ≤ later) {block : DbBlock Buffer}
    (mem : block ∈ earlier.db.blocks) :
    ∃ other ∈ later.db.blocks.filter DbBlock.canonical,
      other.blockHeight = block.blockHeight := by
  obtain ⟨flag, invariant, -⟩ := runStore_chainInvariant (later.consistent consistent)
  obtain ⟨block', mem', same⟩ := (Moment.outlasts consistent order).exists_block mem
  have sameHeight : block'.blockHeight = block.blockHeight :=
    congrArg (fun block => block.blockHeight) same
  have positive : 1 ≤ block'.blockHeight :=
    invariant.grounded.heightPos block'.link (List.mem_map_of_mem mem')
  obtain ⟨row, ⟨rowMem, canonical, height⟩, -⟩ := invariant.canonicalChain.atHeight
    block'.blockHeight positive (blockHeight_le_maxBlockHeight mem')
  exact ⟨row, List.mem_filter.mpr ⟨rowMem, canonical⟩, height.trans sameHeight⟩

/-- A page of blocks that is answered has the blocks of the page that the listing has read. -/
theorem page_of_blockResults {totalFirst : Nat → Bool} {limit offset : Nat} {results : List Block}
    (ends : Ends Moment.Sees start (blockResults totalFirst limit offset) last (.ok results)) :
    ∃ (listed : Moment calls) (seen : Db), start ≤ listed ∧ listed ≤ last ∧ listed.Sees seen ∧
      (blockPage limit offset seen).Forall₂
        (fun row shown => shown.hash = bufferToHexPrefixString row.blockHash) results := by
  obtain ⟨response, middle, answered, ends⟩ := ends_bind_ok_iff.mp ends
  obtain ⟨rfl, ⟨⟩⟩ := ends_pure_iff.mp ends
  obtain ⟨listing, middle, ended, answered⟩ := ends_bind_ok_iff.mp answered
  obtain ⟨listed, seen, total, later, later', sight, ⟨⟩⟩ := getBlocks_page ended
  obtain ⟨results, middle', series, answered⟩ := ends_bind_ok_iff.mp answered
  obtain ⟨rfl, ⟨⟩⟩ := ends_pure_iff.mp answered
  refine ⟨listed, seen, later, le_trans later' series.le, sight, ?_⟩
  have each := ends_findSeries_ok series
  rw [List.forall₂_map_left_iff] at each
  apply each.imp
  rintro row shown ⟨before, after, -, -, found⟩
  obtain ⟨hash, decoded, shows⟩ := shows_of_getBlockFromDataStore found
  have decoded' : hexToBuffer (parseBlockQueryResult row).blockHash = .ok row.blockHash :=
    hexToBuffer_bufferToHexPrefixString _
  cases decoded'.symm.trans decoded
  exact shows.hash

/-- A client that walks through `GET /block` misses no block that is canonical all the while,
whatever blocks, reorganisations and pending transactions commit. -/
theorem walkBlocks_shows (consistent : Consistent (updatesOf calls)) {totalFirst : Nat → Bool}
    {limit : Nat} {shown : List Block}
    (walks : WalksPages Moment.Sees (blockResults totalFirst limit) limit start 0 last shown)
    {row : DbBlock Buffer} (canonical : row.canonical = true)
    (stays : ∀ moment : Moment calls, start ≤ moment → moment ≤ last → row ∈ moment.db.blocks) :
    ∃ block ∈ shown, block.hash = bufferToHexPrefixString row.blockHash := by
  have among : ∀ moment : Moment calls, start ≤ moment → moment ≤ last →
      row ∈ moment.db.blocks.filter DbBlock.canonical :=
    fun moment after before => List.mem_filter.mpr ⟨stays moment after before, canonical⟩
  have grows : ∀ earlier later : Moment calls, start ≤ earlier → earlier ≤ later → later ≤ last →
      rank DbBlock.blockHeight row (earlier.db.blocks.filter DbBlock.canonical) ≤
        rank DbBlock.blockHeight row (later.db.blocks.filter DbBlock.canonical) := by
    intro earlier later after order before
    apply rank_le_rank (forked_moment consistent earlier).nodup_heights
    intro other mem above
    exact exists_canonical_atHeight consistent order (List.mem_filter.mp mem).1
  refine walks.exists_shown grows ?_ (Nat.zero_le _)
  · intro first final offset page after before ends
    obtain ⟨listed, seen, later, earlier, sight, each⟩ := page_of_blockResults ends
    have mem := among listed (le_trans after later) (le_trans earlier before)
    have distinct := (forked_moment consistent listed).nodup_heights
    have sameOrder : orderByDesc DbBlock.blockHeight (seen.blocks.filter DbBlock.canonical) =
        orderByDesc DbBlock.blockHeight (listed.db.blocks.filter DbBlock.canonical) :=
      (orderByDesc_eq_of_nodup (sight.blocks.filter _) distinct).symm
    rw [blockPage, sameOrder] at each
    refine ⟨listed, later, earlier, ?_, ?_⟩
    · intro short
      rw [← each.length_eq] at short
      exact rank_lt_of_short mem short
    · intro ahead within
      obtain ⟨block, blockMem, hash⟩ :=
        exists_left_of_forall₂ each.flip (mem_page_of_rank distinct mem ahead within)
      exact ⟨block, blockMem, hash⟩

/-- A chain of two blocks, and a fork of the second one that overtakes it. -/
def walkedCalls : List StoreCall :=
  forkedUpdates.map StoreCall.update

/-- The moment after so many of the calls. -/
def walkedMoment (count : Nat) : Moment walkedCalls where
  past := walkedCalls.take count
  isPrefix := List.take_prefix count _

theorem walkedMoment_le {first second : Nat} (le : first ≤ second) :
    walkedMoment first ≤ walkedMoment second :=
  List.take_prefix_take_left le

theorem eq_walkedMoment (moment : Moment walkedCalls) :
    moment = walkedMoment moment.past.length := by
  obtain ⟨past, isPrefix⟩ := moment
  have same := List.prefix_iff_eq_take.mp isPrefix
  simp only [walkedMoment, ← same]

/-- The first block, of which the other two are forks. -/
def walkedRow : DbBlock Buffer where
  blockHash := [0x11]
  burnBlockTime := 1594647996
  indexBlockHash := [0x11]
  parentIndexBlockHash := [0x00]
  parentBlockHash := [0x00]
  parentMicroblock := []
  blockHeight := 1
  canonical := true

/-- The chain is reorganised after the first page: the client sees both forks, and the block
before them. -/
theorem walkBlocks_shows_reorganised :
    ∃ shown, WalksPages Moment.Sees (blockResults (fun _ => true) 1) 1 (walkedMoment 2) 0
        (walkedMoment 4) shown ∧
      shown.map (fun block => block.hash) = ["0x21", "0x22", "0x11"] ∧
      ∃ block ∈ shown, block.hash = "0x11" := by
  have answered : ∀ count offset hashes,
      ((blockResults (fun _ => true) 1 offset).alone (walkedMoment count).db).map
          (List.map fun block => block.hash) = .ok hashes →
        ∃ page, page.map (fun block => block.hash) = hashes ∧
          Ends Moment.Sees (walkedMoment count) (blockResults (fun _ => true) 1 offset)
            (walkedMoment count) (.ok page) := by
    intro count offset hashes same
    obtain ⟨page, answer, same⟩ := Except.map_eq_ok.mp same
    exact ⟨page, same, answer ▸ ends_alone (Moment.sees_self _) _⟩
  obtain ⟨first, firstHashes, firstEnds⟩ := answered 2 0 ["0x21"] (by decide +kernel)
  obtain ⟨second, secondHashes, secondEnds⟩ := answered 4 1 ["0x22"] (by decide +kernel)
  obtain ⟨third, thirdHashes, thirdEnds⟩ := answered 4 2 ["0x11"] (by decide +kernel)
  obtain ⟨fourth, fourthHashes, fourthEnds⟩ := answered 4 3 [] (by decide +kernel)
  have full : ∀ {page : List Block} {hash : String},
      page.map (fun block => block.hash) = [hash] → 1 ≤ page.length := by
    intro page hash same
    rw [← List.length_map, same]
    exact le_rfl
  have walks : WalksPages Moment.Sees (blockResults (fun _ => true) 1) 1 (walkedMoment 2) 0
      (walkedMoment 4) (first ++ (second ++ (third ++ fourth))) := by
    refine .full firstEnds (full firstHashes) (@walkedMoment_le 2 4 (by decide)) ?_
    refine .full secondEnds (full secondHashes) le_rfl ?_
    refine .full thirdEnds (full thirdHashes) le_rfl (.short fourthEnds ?_)
    rw [← List.length_map, fourthHashes]
    exact Nat.zero_lt_one
  refine ⟨_, walks, ?_, ?_⟩
  · simp [firstHashes, secondHashes, thirdHashes, fourthHashes]
  · refine @walkBlocks_shows _ _ _ ?_ _ 1 _ walks walkedRow rfl ?_
    · exact forkedUpdates_consistent
    · intro moment after before
      have low : 2 ≤ moment.past.length := after.length_le
      have high : moment.past.length ≤ 4 := before.length_le
      rw [eq_walkedMoment moment]
      generalize moment.past.length = count at low high
      interval_cases count <;> decide +kernel

/-! ## Transactions -/

/-- `GET /tx` or `GET /address/:stx_address/transactions` at an offset. -/
def txResults {CV Ty : Type} (clarity : ClarityLibrary CV) (addresses : AddressLibrary)
    (abis : AbiLibrary Ty) (enumeration : TxEnumeration) (limit offset : Nat) :
    QueryM (List Transaction) := do
  let response ← listTransactions clarity addresses abis enumeration limit offset
  return response.results

/-- The requests of the two routes with the two numbers are answered with this page. -/
theorem listTransactions_page {CV Ty : Type} {clarity : ClarityLibrary CV}
    {addresses : AddressLibrary} {abis : AbiLibrary Ty} {limit offset : Nat}
    (small : offset ≤ 2 ^ 53) :
    (∀ type txTypeFilter, limit ≤ 200 → parseTxTypeFilter type = .ok txTypeFilter →
      getTransactions clarity addresses abis (some (.text (toString limit)))
          (some (.text (toString offset))) type =
        listTransactions clarity addresses abis (.ofTypes txTypeFilter) limit offset) ∧
    ∀ stxAddress, limit ≤ 50 → (isValidPrincipal addresses stxAddress).isSome →
      getAddressTransactions clarity addresses abis stxAddress (some (.text (toString limit)))
          (some (.text (toString offset))) =
        listTransactions clarity addresses abis (.ofAddress stxAddress) limit offset >>=
          fun results => pure (.ok results) := by
  constructor
  · intro type txTypeFilter bounded typeOk
    exact getTransactions_of_accepted
      (parseLimitQuery_ok_iff.mpr ⟨parsePagingQueryInput_toString (by omega), bounded⟩)
      (parsePagingQueryInput_toString small) typeOk
  · intro stxAddress bounded valid
    exact getAddressTransactions_of_accepted valid
      (parseLimitQuery_ok_iff.mpr ⟨parsePagingQueryInput_toString (by omega), bounded⟩)
      (parsePagingQueryInput_toString small)

/-- The rows that the enumeration lists. -/
def TxEnumeration.lists (row : DbTx Buffer) : TxEnumeration → Bool
  | ofTypes txTypeFilter =>
      match txTypeFilter.mapM getTxTypeId with
      | .ok txTypeIds => row.canonical && (txTypeIds.isEmpty || decide (row.typeId ∈ txTypeIds))
      | .error _ => false
  | ofAddress stxAddress => row.canonical && isAddressTx stxAddress row

theorem TxEnumeration.canonical_of_lists {enumeration : TxEnumeration} {row : DbTx Buffer}
    (lists : enumeration.lists row = true) : row.canonical = true := by
  cases enumeration with
  | ofTypes txTypeFilter =>
      rw [TxEnumeration.lists] at lists
      split at lists
      · exact (Bool.and_eq_true_iff.mp lists).1
      · cases lists
  | ofAddress stxAddress => exact (Bool.and_eq_true_iff.mp lists).1

/-- No block that is canonical in one moment of the time is orphaned in a later one. -/
def NothingOrphaned (start last : Moment calls) : Prop :=
  ∀ earlier later : Moment calls, start ≤ earlier → earlier ≤ later → later ≤ last →
    ∀ block ∈ earlier.db.blocks, block.canonical = true → block ∈ later.db.blocks

theorem positioned_moment (wired : WiredCalls calls)
    (positioned : ∀ data ∈ updatesOf calls, data.Positioned) (moment : Moment calls) :
    Standing moment.db ∧ Positioned moment.db := by
  have start : (⟨[], List.nil_prefix⟩ : Moment calls) ≤ moment := List.nil_prefix
  apply @Moment.le_induction _ (fun db => Standing db ∧ Positioned db) _ _ start
  case holds => exact ⟨Standing.empty, Positioned.empty⟩
  intro past call isPrefix ⟨standing, placed⟩
  have mem : call ∈ calls :=
    isPrefix.subset (List.mem_append_right _ (List.mem_singleton_self call))
  cases result : performCall (runStore past) call with
  | error error =>
      rw [commit_of_error result]
      exact ⟨standing, placed⟩
  | ok outcome =>
      obtain ⟨db', events⟩ := outcome
      rw [commit_of_ok result]
      cases call with
      | update data =>
          have dataMem : data ∈ updatesOf calls := List.mem_filterMap.mpr ⟨_, mem, rfl⟩
          obtain ⟨-, reorged, pruned, row, accepted⟩ := update_ok result
          exact ⟨standing.update accepted (wired data dataMem),
            placed.update standing accepted (wired data dataMem) fun _ => positioned data dataMem⟩
      | updateMempoolTx mempoolTx =>
          obtain ⟨row, -, ⟨-, rfl, -⟩ | ⟨-, rfl, -⟩⟩ := updateMempoolTx_ok result
          · exact ⟨standing, placed⟩
          · exact ⟨standing.withMempoolTxs _, placed.withMempoolTxs _⟩

/-- The transactions of the canonical chain stay on it with their blocks. -/
theorem NothingOrphaned.tx_mem (undisturbed : NothingOrphaned start last)
    (consistent : Consistent (updatesOf calls)) {earlier later : Moment calls}
    (after : start ≤ earlier) (order : earlier ≤ later) (before : later ≤ last)
    (standing : Standing earlier.db) (standing' : Standing later.db) {tx : DbTx Buffer}
    (mem : tx ∈ earlier.db.txs) (canonical : tx.canonical = true) : tx ∈ later.db.txs := by
  obtain ⟨block, blockMem, hash, flag⟩ := standing.owned .txs tx mem
  have stays := undisturbed earlier later after order before block blockMem (flag.trans canonical)
  obtain ⟨tx', mem', same⟩ := (Moment.outlasts consistent order).exists_tx mem
  obtain ⟨block', blockMem', hash', flag'⟩ := standing'.owned .txs tx' mem'
  have sameKey : tx'.indexBlockHash = tx.indexBlockHash :=
    congrArg (fun tx => tx.indexBlockHash) same
  have sameBlock : block' = block :=
    standing'.forked.eq_of_hash blockMem' stays (hash'.trans (sameKey.trans hash.symm))
  have canonical' : tx'.canonical = true := by
    rw [← canonical, ← (show block.canonical = tx.canonical from flag), ← sameBlock]
    exact flag'.symm
  have sameTx : tx' = tx := by
    obtain ⟨base, _, _, _, _, _, _, _⟩ := tx'
    obtain ⟨base', _, _, _, _, _, _, _⟩ := tx
    cases canonical
    cases canonical'
    exact same
  exact sameTx ▸ mem'

/-- The page that the query for transactions selects. -/
def TxEnumeration.page (limit offset : Nat) (db : Db) (enumeration : TxEnumeration) :
    List (DbTx Buffer) :=
  Relational.page limit offset
    (orderByDesc txOrder (db.txs.filter fun row => enumeration.lists row))

theorem TxEnumeration.page_of_list {enumeration : TxEnumeration} {limit offset : Nat}
    {listing : Listing (DbTx String)}
    (ends : Ends Moment.Sees start (enumeration.list limit offset) last (.ok listing)) :
    ∃ seen, last.Sees seen ∧ (enumeration.page limit offset seen).Forall₂
      (fun row tx => parseTxQueryResult row = .ok tx) listing.results := by
  cases enumeration with
  | ofTypes txTypeFilter =>
      obtain ⟨txTypeIds, idsOk, ends⟩ := ends_lift_bind_iff.mp ends
      obtain ⟨total, atTotal, seenTotal, -, -, -, ends⟩ := ends_ask_bind_iff.mp ends
      obtain ⟨results, atRows, seen, -, sight, selected, ends⟩ := ends_ask_bind_iff.mp ends
      obtain ⟨rfl, ⟨⟩⟩ := ends_pure_iff.mp ends
      refine ⟨seen, sight, ?_⟩
      rw [Stepwise.selectTxs, paged_natCast] at selected
      simp only [TxEnumeration.page, TxEnumeration.lists, idsOk]
      exact mapM_eq_ok_iff.mp selected
  | ofAddress stxAddress =>
      obtain ⟨-, seen, sight, same⟩ := ends_ask_iff.mp ends
      have same := same.symm
      rw [getAddressTxs, paged_natCast] at same
      obtain ⟨rows, ⟨⟩, same⟩ := Except.bind_eq_ok.mp same
      obtain ⟨results, parsed, same⟩ := Except.bind_eq_ok.mp same
      cases same
      exact ⟨seen, sight, mapM_eq_ok_iff.mp parsed⟩

/-- A page of transactions that is answered has what is found of those of the page that the
listing has read. -/
theorem found_of_txResults {CV Ty : Type} {clarity : ClarityLibrary CV}
    {addresses : AddressLibrary} {abis : AbiLibrary Ty} {enumeration : TxEnumeration}
    {limit offset : Nat} {results : List Transaction}
    (ends : Ends Moment.Sees start (txResults clarity addresses abis enumeration limit offset) last
      (.ok results)) :
    ∃ (listed : Moment calls) (seen : Db), start ≤ listed ∧ listed ≤ last ∧ listed.Sees seen ∧
      (enumeration.page limit offset seen).Forall₂ (fun row shown =>
        ∃ before after : Moment calls, listed ≤ before ∧ after ≤ last ∧
          Ends Moment.Sees before (Stepwise.getTxFromDataStore clarity addresses abis
            (bufferToHexPrefixString row.txId)) after (.ok (some shown))) results := by
  obtain ⟨response, middle, answered, ends⟩ := ends_bind_ok_iff.mp ends
  obtain ⟨rfl, ⟨⟩⟩ := ends_pure_iff.mp ends
  obtain ⟨listing, listed, ended, answered⟩ := ends_bind_ok_iff.mp answered
  obtain ⟨results, middle', series, answered⟩ := ends_bind_ok_iff.mp answered
  obtain ⟨rfl, ⟨⟩⟩ := ends_pure_iff.mp answered
  obtain ⟨seen, sight, parsed⟩ := TxEnumeration.page_of_list ended
  refine ⟨listed, seen, ended.le, series.le, sight, ?_⟩
  apply forall₂_trans parsed (ends_findSeries_ok series)
  intro row tx shown parsedRow found
  rw [txId_of_parsedTx parsedRow] at found
  exact found

theorem txId_of_found {CV Ty : Type} {clarity : ClarityLibrary CV} {addresses : AddressLibrary}
    {abis : AbiLibrary Ty} {buffer : Buffer} {shown : Transaction}
    (found : Ends Moment.Sees start (Stepwise.getTxFromDataStore clarity addresses abis
      (bufferToHexPrefixString buffer)) last (.ok (some shown))) :
    shown.txId = bufferToHexPrefixString buffer := by
  obtain ⟨buffer', decoded, same⟩ := txId_of_getTxFromDataStore found
  cases (hexToBuffer_bufferToHexPrefixString buffer).symm.trans decoded
  exact same

/-- While nothing is orphaned, a client that walks through `GET /tx` or through the
transactions of an address misses none that was listed when it began. -/
theorem walkTxs_shows {CV Ty : Type} {clarity : ClarityLibrary CV} {addresses : AddressLibrary}
    {abis : AbiLibrary Ty} (consistent : Consistent (updatesOf calls)) (wired : WiredCalls calls)
    (positioned : ∀ data ∈ updatesOf calls, data.Positioned)
    (undisturbed : NothingOrphaned start last) {enumeration : TxEnumeration} {limit : Nat}
    {shown : List Transaction}
    (walks : WalksPages Moment.Sees (txResults clarity addresses abis enumeration limit) limit start
      0 last shown)
    {row : DbTx Buffer} (mem : row ∈ start.db.txs) (lists : enumeration.lists row = true) :
    ∃ tx ∈ shown, tx.txId = bufferToHexPrefixString row.txId := by
  have stays : ∀ {earlier later : Moment calls}, start ≤ earlier → earlier ≤ later →
      later ≤ last → ∀ {tx : DbTx Buffer}, tx ∈ earlier.db.txs → enumeration.lists tx = true →
        tx ∈ later.db.txs.filter fun row => enumeration.lists row := by
    intro earlier later after order before tx txMem txLists
    refine List.mem_filter.mpr ⟨?_, txLists⟩
    exact undisturbed.tx_mem consistent after order before (positioned_moment wired positioned _).1
      (positioned_moment wired positioned _).1 txMem (TxEnumeration.canonical_of_lists txLists)
  have distinct : ∀ moment : Moment calls,
      ((moment.db.txs.filter fun row => enumeration.lists row).map txOrder).Nodup := by
    intro moment
    obtain ⟨standing, placed⟩ := positioned_moment wired positioned moment
    refine (placed.nodup_txOrder standing fun _ => true).sublist (List.Sublist.map _ ?_)
    apply List.monotone_filter_right
    intro row lists
    rw [TxEnumeration.canonical_of_lists lists]
    rfl
  have grows : ∀ earlier later : Moment calls, start ≤ earlier → earlier ≤ later → later ≤ last →
      rank txOrder row (earlier.db.txs.filter fun row => enumeration.lists row) ≤
        rank txOrder row (later.db.txs.filter fun row => enumeration.lists row) := by
    intro earlier later after order before
    apply rank_le_rank (distinct earlier)
    intro other otherMem above
    obtain ⟨otherMem, otherLists⟩ := List.mem_filter.mp otherMem
    exact ⟨other, stays after order before otherMem otherLists, rfl⟩
  refine walks.exists_shown grows ?_ (Nat.zero_le _)
  intro first final offset page after before ends
  obtain ⟨listed, seen, later, earlier, sight, each⟩ := found_of_txResults ends
  have inList := stays le_rfl (le_trans after later) (le_trans earlier before) mem lists
  have sameOrder :
      orderByDesc txOrder (seen.txs.filter fun row => enumeration.lists row) =
        orderByDesc txOrder (listed.db.txs.filter fun row => enumeration.lists row) :=
    (orderByDesc_eq_of_nodup ((sight.rows .txs).filter _) (distinct listed)).symm
  rw [TxEnumeration.page, sameOrder] at each
  refine ⟨listed, later, earlier, ?_, ?_⟩
  · intro short
    rw [← each.length_eq] at short
    exact rank_lt_of_short inList short
  · intro ahead within
    obtain ⟨tx, txMem, before, after, -, -, found⟩ :=
      exists_left_of_forall₂ each.flip (mem_page_of_rank (distinct listed) inList ahead within)
    exact ⟨tx, txMem, txId_of_found found⟩

/-- A block with a second transfer of the same sender. -/
def appendedBlock : DataStoreUpdateData :=
  { emptyBlock "0x22" "0x11" 2 with txs := [transferEntry "0x22" 2] }

/-- A block with a transfer, and another one after it. -/
def appendedCalls : List StoreCall :=
  [.update (transferBlock "0x11" "0x00" 1), .update appendedBlock]

/-- The moment after so many of the calls. -/
def appendedMoment (count : Nat) : Moment appendedCalls where
  past := appendedCalls.take count
  isPrefix := List.take_prefix count _

theorem eq_appendedMoment (moment : Moment appendedCalls) :
    moment = appendedMoment moment.past.length := by
  obtain ⟨past, isPrefix⟩ := moment
  have same := List.prefix_iff_eq_take.mp isPrefix
  simp only [appendedMoment, ← same]

theorem mem_updatesOf_appendedCalls {data : DataStoreUpdateData}
    (mem : data ∈ updatesOf appendedCalls) :
    data = transferBlock "0x11" "0x00" 1 ∨ data = appendedBlock := by
  simpa [appendedCalls, updatesOf] using mem

theorem appendedBlock_carries : appendedBlock.Carries := by
  intro entry mem
  rw [List.mem_singleton.mp mem]
  exact transferEntry_carries "0x22" 2

/-- Nothing is orphaned after the first block. -/
theorem appendedCalls_undisturbed : NothingOrphaned (appendedMoment 1) (appendedMoment 2) := by
  intro earlier later after order before
  have low : 1 ≤ earlier.past.length := after.length_le
  have middle : earlier.past.length ≤ later.past.length := order.length_le
  have high : later.past.length ≤ 2 := before.length_le
  have low' := low.trans middle
  rw [eq_appendedMoment earlier, eq_appendedMoment later]
  generalize earlier.past.length = count at low middle
  generalize later.past.length = count' at low' middle high
  interval_cases count' <;> interval_cases count <;> decide +kernel

/-- The second block commits after the first page, and the first transfer is shown again. -/
theorem walkTxs_shows_appended :
    (∃ shown, WalksPages Moment.Sees (txResults ClarityLibrary.booleans AddressLibrary.zeroHash
        AbiLibrary.null (.ofTypes []) 1) 1 (appendedMoment 1) 0 (appendedMoment 2) shown ∧
      shown.map (fun tx => tx.txId) = ["0x0a", "0x0a"] ∧ ∃ tx ∈ shown, tx.txId = "0x0a") ∧
    ∃ shown, WalksPages Moment.Sees (txResults ClarityLibrary.booleans AddressLibrary.zeroHash
        AbiLibrary.null (.ofAddress "ST1") 1) 1 (appendedMoment 1) 0 (appendedMoment 2) shown ∧
      shown.map (fun tx => tx.txId) = ["0x0a", "0x0a"] ∧ ∃ tx ∈ shown, tx.txId = "0x0a" := by
  have each : ∀ enumeration ∈ [TxEnumeration.ofTypes [], .ofAddress "ST1"],
      ∃ shown, WalksPages Moment.Sees (txResults ClarityLibrary.booleans AddressLibrary.zeroHash
          AbiLibrary.null enumeration 1) 1 (appendedMoment 1) 0 (appendedMoment 2) shown ∧
        shown.map (fun tx => tx.txId) = ["0x0a", "0x0a"] ∧ ∃ tx ∈ shown, tx.txId = "0x0a" := by
    intro enumeration enumerates
    have answered : ∀ count offset txIds,
        (∀ enumeration ∈ [TxEnumeration.ofTypes [], .ofAddress "ST1"],
          ((txResults ClarityLibrary.booleans AddressLibrary.zeroHash AbiLibrary.null enumeration 1
            offset).alone (appendedMoment count).db).map (List.map fun tx => tx.txId) =
              .ok txIds) →
        ∃ page, page.map (fun tx => tx.txId) = txIds ∧
          Ends Moment.Sees (appendedMoment count) (txResults ClarityLibrary.booleans
            AddressLibrary.zeroHash AbiLibrary.null enumeration 1 offset) (appendedMoment count)
            (.ok page) := by
      intro count offset txIds same
      obtain ⟨page, answer, same⟩ := Except.map_eq_ok.mp (same enumeration enumerates)
      exact ⟨page, same, answer ▸ ends_alone (Moment.sees_self _) _⟩
    obtain ⟨first, firstIds, firstEnds⟩ := answered 1 0 ["0x0a"] (by decide +kernel)
    obtain ⟨second, secondIds, secondEnds⟩ := answered 2 1 ["0x0a"] (by decide +kernel)
    obtain ⟨third, thirdIds, thirdEnds⟩ := answered 2 2 [] (by decide +kernel)
    have full : ∀ {page : List Transaction},
        page.map (fun tx => tx.txId) = ["0x0a"] → 1 ≤ page.length := by
      intro page same
      rw [← List.length_map, same]
      exact le_rfl
    have walks : WalksPages Moment.Sees (txResults ClarityLibrary.booleans AddressLibrary.zeroHash
        AbiLibrary.null enumeration 1) 1 (appendedMoment 1) 0 (appendedMoment 2)
        (first ++ (second ++ third)) := by
      have order : appendedMoment 1 ≤ appendedMoment 2 := List.take_prefix_take_left (by decide)
      refine .full firstEnds (full firstIds) order ?_
      refine .full secondEnds (full secondIds) le_rfl (.short thirdEnds ?_)
      rw [← List.length_map, thirdIds]
      exact Nat.zero_lt_one
    have listed : ∃ row ∈ (appendedMoment 1).db.txs, row.txId = [0x0a] ∧
        ∀ enumeration ∈ [TxEnumeration.ofTypes [], .ofAddress "ST1"],
          enumeration.lists row = true := by
      decide +kernel
    obtain ⟨row, mem, txId, lists⟩ := listed
    have shows := walkTxs_shows (consistent_of_checked (by decide) (by decide)) ?_ ?_
      appendedCalls_undisturbed walks mem (lists enumeration enumerates)
    · rw [txId] at shows
      refine ⟨_, walks, ?_, shows⟩
      simp [firstIds, secondIds, thirdIds]
    · intro data dataMem
      rcases mem_updatesOf_appendedCalls dataMem with rfl | rfl
      · exact ⟨rfl, (transferBlock_attributed _ _ _).carries⟩
      · exact ⟨rfl, appendedBlock_carries⟩
    · intro data dataMem
      rcases mem_updatesOf_appendedCalls dataMem with rfl | rfl
      · exact ⟨by decide, by decide, by decide, by decide⟩
      · exact ⟨by decide, by decide, by decide, by decide⟩
  exact ⟨each _ (by simp), each _ (by simp)⟩

/-! ## While no block comes -/

/-- Between the moments pending transactions may come, and no block does. -/
def OnlyPending (start last : Moment calls) : Prop :=
  updatesOf last.past = updatesOf start.past

/-- The pool is the only table that a run without updates changes. -/
theorem foldl_commit_of_noUpdates {rest : List StoreCall} (none : updatesOf rest = []) (db : Db) :
    ∃ pool, rest.foldl (commit performCall) db = { db with mempoolTxs := pool } := by
  induction rest generalizing db with
  | nil => exact ⟨db.mempoolTxs, rfl⟩
  | cons call rest ih =>
      rw [List.foldl_cons]
      cases call with
      | update data => cases none
      | updateMempoolTx mempoolTx =>
          obtain ⟨pool, same⟩ := ih none (commit performCall db (.updateMempoolTx mempoolTx))
          refine ⟨pool, same.trans ?_⟩
          cases result : performCall db (.updateMempoolTx mempoolTx) with
          | error error => rw [commit_of_error result]
          | ok outcome =>
              rw [commit_of_ok result]
              obtain ⟨row, -, ⟨-, same, -⟩ | ⟨-, same, -⟩⟩ := updateMempoolTx_ok result
              · rw [same]
              · rw [same]

/-- Nothing but the pool looks different in between. -/
theorem OnlyPending.scan (onlyPending : OnlyPending start last) {moment : Moment calls}
    (after : start ≤ moment) (before : moment ≤ last) {seen : Db} (sight : moment.Sees seen) :
    Scan start.db { seen with mempoolTxs := start.db.mempoolTxs } := by
  obtain ⟨rest, same⟩ := after
  obtain ⟨rest', same'⟩ := before
  have none : updatesOf rest = [] := by
    rw [OnlyPending, ← same', ← same, updatesOf_append, updatesOf_append, List.append_assoc]
      at onlyPending
    exact (List.append_eq_nil_iff.mp (List.append_right_eq_self.mp onlyPending)).1
  obtain ⟨pool, reached⟩ := foldl_commit_of_noUpdates none start.db
  have db : moment.db = { start.db with mempoolTxs := pool } := by
    rw [← reached, Moment.db, ← same]
    exact run_append _ _
  rw [Moment.Sees, db] at sight
  refine ⟨⟨sight.blocks, fun table => ?_⟩, List.Perm.refl _⟩
  have rows := sight.rows table
  cases table <;> exact rows

end StacksApi.Routes
