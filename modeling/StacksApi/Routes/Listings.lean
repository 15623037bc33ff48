import StacksApi.Controllers.MempoolTx
import StacksApi.Controllers.Stepwise
import StacksApi.Datastore.PageByPage
import StacksApi.Routes.Requests

/-!
# Routes that list transactions and blocks

`GET /tx`, `GET /address/:stx_address/transactions` and `GET /block` enumerate a page and
then look up each element of it.  Updates may commit all the while, and still none of the
elements is missing.
-/

namespace StacksApi.Routes

open StacksApi.Binary
open StacksApi.Relational
open StacksApi.Datastore
open StacksApi.Controllers
open StacksApi.Transition
open Reading

/-- A page of transactions as it is answered. -/
structure TransactionResults where
  limit : Nat
  offset : Nat
  total : Nat
  results : List Transaction
  deriving DecidableEq

/-- A page of blocks as it is answered. -/
structure BlockListResponse where
  limit : Nat
  offset : Nat
  total : Nat
  results : List Block
  deriving DecidableEq

/-- A page of pending transactions as it is answered. -/
structure MempoolTransactionListResponse where
  limit : Nat
  offset : Nat
  total : Nat
  results : List MempoolTransaction
  deriving DecidableEq

/-- What is thrown when a listed transaction is not found. -/
def missingTx : ApiError :=
  .failure "unexpected tx not found -- fix tx enumeration query"

/-- What is thrown when a listed block is not found. -/
def missingBlock : ApiError :=
  .failure "unexpected block not found -- fix block enumeration query"

/-! ## The routes -/

/-- Answer with what is found. -/
def respond {Body : Type} (find : QueryM (Option Body)) (missing : String) :
    QueryM (Response Body) := do
  match ← find with
  | some result => return .ok result
  | none => return .notFound missing

/-- What a route enumerates transactions by. -/
inductive TxEnumeration
  | ofTypes (txTypeFilter : List String)
  | ofAddress (stxAddress : String)
  deriving DecidableEq

/-- The queries of the enumeration. -/
def TxEnumeration.list (limit offset : Int) : TxEnumeration → QueryM (Listing (DbTx String))
  | ofTypes txTypeFilter => Stepwise.getTxList limit offset txTypeFilter
  | ofAddress stxAddress => Stepwise.getAddressTxs stxAddress limit offset

section Api

variable {CV Ty : Type} (clarity : ClarityLibrary CV) (addresses : AddressLibrary)
variable (abis : AbiLibrary Ty)

/-- A page of transactions, each of them looked up. -/
def listTransactions (enumeration : TxEnumeration) (limit offset : Nat) :
    QueryM TransactionResults := do
  let { results := txResults, total } ← enumeration.list limit offset
  let results ← findSeries
    (fun tx : DbTx String => Stepwise.getTxFromDataStore clarity addresses abis tx.txId)
    missingTx txResults
  return { limit, offset, total, results }

/-- `GET /tx` -/
def getTransactions (limit offset type : Option QueryValue) : QueryM TransactionResults := do
  let limit ← parseBoundedLimit 200 (limit.getD (.number 96))
  let offset ← parsePagingQueryInput (offset.getD (.number 0))
  let txTypeFilter ← parseTxTypeFilter type
  listTransactions clarity addresses abis (.ofTypes txTypeFilter) limit offset

/-- `GET /tx/mempool`; the entries of the page are not looked up. -/
def listMempool (limit offset : Option QueryValue) : QueryM MempoolTransactionListResponse := do
  let limit ← parseBoundedLimit 200 (limit.getD (.number 96))
  let offset ← parsePagingQueryInput (offset.getD (.number 0))
  let { results := txResults, total } ← Stepwise.getMempoolTxList limit offset
  let results ←
    (txResults.mapM (parseDbMempoolTx clarity addresses) :
      Except ApiError (List MempoolTransaction))
  return { limit, offset, total, results }

/-- `GET /address/:stx_address/transactions` -/
def getAddressTransactions (stxAddress : String) (limit offset : Option QueryValue) :
    QueryM (Response TransactionResults) :=
  if (isValidPrincipal addresses stxAddress).isNone then
    return .badRequest s!"invalid STX address \"{stxAddress}\""
  else do
    let limit ← parseBoundedLimit 50 (limit.getD (.number 20))
    let offset ← parsePagingQueryInput (offset.getD (.number 0))
    return .ok (← listTransactions clarity addresses abis (.ofAddress stxAddress) limit offset)

/-- `GET /tx/:tx_id` -/
def getTransaction (txId : String) : QueryM (Response Transaction) :=
  if has0xPrefix txId then
    respond (Stepwise.getTxFromDataStore clarity addresses abis txId)
      s!"could not find transaction by ID {txId}"
  else return .redirect ("/extended/v1/tx/0x" ++ txId)

end Api

/-- A page of blocks, each of them looked up. -/
def listBlockPage (totalFirst : Bool) (limit offset : Nat) : QueryM BlockListResponse := do
  let { results := blocks, total } ← Stepwise.getBlocks totalFirst limit offset
  let results ← findSeries
    (fun block : DbBlock String => Stepwise.getBlockFromDataStore block.blockHash)
    missingBlock blocks
  return { limit, offset, total, results }

/-- `GET /block` -/
def listBlocks (totalFirst : Bool) (limit offset : Option QueryValue) :
    QueryM BlockListResponse := do
  let limit ← parseBoundedLimit 30 (limit.getD (.number 20))
  let offset ← parsePagingQueryInput (offset.getD (.number 0))
  listBlockPage totalFirst limit offset

/-- `GET /block/:block_hash` -/
def getBlockByHash (blockHash : String) : QueryM (Response Block) :=
  if has0xPrefix blockHash then
    respond (Stepwise.getBlockFromDataStore blockHash) s!"cannot find block by hash {blockHash}"
  else return .redirect ("/extended/v1/block/0x" ++ blockHash)

/-! ## Requests -/

section Requests

variable {CV Ty : Type} {clarity : ClarityLibrary CV} {addresses : AddressLibrary}
variable {abis : AbiLibrary Ty} {limit offset type : Option QueryValue}
variable {limitValue offsetValue : Nat}

/-- A request that is accepted is answered with a page of the transactions of its types. -/
theorem getTransactions_of_accepted {txTypeFilter : List String}
    (limitOk : parseBoundedLimit 200 (limit.getD (.number 96)) = .ok limitValue)
    (offsetOk : parsePagingQueryInput (offset.getD (.number 0)) = .ok offsetValue)
    (typeOk : parseTxTypeFilter type = .ok txTypeFilter) :
    getTransactions clarity addresses abis limit offset type =
      listTransactions clarity addresses abis (.ofTypes txTypeFilter) limitValue offsetValue := by
  rw [getTransactions, limitOk, offsetOk, typeOk]
  rfl

/-- A request that is accepted is answered with a page of the transactions of the address. -/
theorem getAddressTransactions_of_accepted {stxAddress : String}
    (valid : (isValidPrincipal addresses stxAddress).isSome)
    (limitOk : parseBoundedLimit 50 (limit.getD (.number 20)) = .ok limitValue)
    (offsetOk : parsePagingQueryInput (offset.getD (.number 0)) = .ok offsetValue) :
    getAddressTransactions clarity addresses abis stxAddress limit offset =
      listTransactions clarity addresses abis (.ofAddress stxAddress) limitValue offsetValue >>=
        fun results => pure (.ok results) := by
  rw [getAddressTransactions, if_neg (by simp [Option.isSome_iff_ne_none.mp valid]), limitOk,
    offsetOk]
  rfl

/-- A request that is accepted is answered with a page of blocks. -/
theorem listBlocks_of_accepted {totalFirst : Bool}
    (limitOk : parseBoundedLimit 30 (limit.getD (.number 20)) = .ok limitValue)
    (offsetOk : parsePagingQueryInput (offset.getD (.number 0)) = .ok offsetValue) :
    listBlocks totalFirst limit offset = listBlockPage totalFirst limitValue offsetValue := by
  rw [listBlocks, limitOk, offsetOk]
  rfl

end Requests

/-! ## What is listed is stored -/

theorem mem_of_paged {α : Type} {limit offset : Int} {rows results : List α}
    (ok : paged limit offset rows = .ok results) {row : α} (mem : row ∈ results) : row ∈ rows := by
  rw [paged] at ok
  split at ok
  · cases ok
  · split at ok
    · cases ok
    · cases ok
      exact List.mem_of_mem_drop (List.mem_of_mem_take mem)

theorem txId_of_parsedTx {row : DbTx Buffer} {tx : DbTx String}
    (parsed : parseTxQueryResult row = .ok tx) : tx.txId = bufferToHexPrefixString row.txId := by
  obtain ⟨columns, columnsOk, same⟩ := Except.bind_eq_ok.mp parsed
  cases same
  exact (parsedColumns_of_ok columnsOk).txId

section Listed

variable {calls : List StoreCall} {start last : Moment calls}

/-- The listed transactions are rows of the table in the moment of the listing. -/
theorem TxEnumeration.rows {enumeration : TxEnumeration} {limit offset : Int}
    {listing : Listing (DbTx String)}
    (ends : Ends Moment.Sees start (enumeration.list limit offset) last (.ok listing)) :
    ∀ tx ∈ listing.results, ∃ row ∈ last.db.txs, tx.txId = bufferToHexPrefixString row.txId := by
  intro tx mem
  cases enumeration with
  | ofTypes txTypeFilter =>
      obtain ⟨txTypeIds, -, ends⟩ := ends_lift_bind_iff.mp ends
      obtain ⟨total, atTotal, seenTotal, -, -, -, ends⟩ := ends_ask_bind_iff.mp ends
      obtain ⟨results, atRows, seen, -, sight, selected, ends⟩ := ends_ask_bind_iff.mp ends
      obtain ⟨rfl, ⟨⟩⟩ := ends_pure_iff.mp ends
      obtain ⟨rows, pageOk, parsed⟩ := Except.bind_eq_ok.mp selected
      obtain ⟨row, rowMem, parsedRow⟩ := mem_of_mapM_ok parsed mem
      have inTable := (List.mem_filter.mp (mem_orderByDesc.mp (mem_of_paged pageOk rowMem))).1
      exact ⟨row, (sight.rows .txs).symm.subset inTable, txId_of_parsedTx parsedRow⟩
  | ofAddress stxAddress =>
      obtain ⟨-, seen, sight, same⟩ := ends_ask_iff.mp ends
      obtain ⟨rows, pageOk, listed⟩ := Except.bind_eq_ok.mp same.symm
      obtain ⟨results, parsed, same⟩ := Except.bind_eq_ok.mp listed
      cases same
      obtain ⟨row, rowMem, parsedRow⟩ := mem_of_mapM_ok parsed mem
      have inTable := (List.mem_filter.mp (mem_orderByDesc.mp (mem_of_paged pageOk rowMem))).1
      exact ⟨row, (sight.rows .txs).symm.subset inTable, txId_of_parsedTx parsedRow⟩

/-! ## Nothing that is listed is missing -/

variable {CV Ty : Type} {clarity : ClarityLibrary CV} {addresses : AddressLibrary}
variable {abis : AbiLibrary Ty}

/-- A page of transactions comes out whole and in its order, or else one of its transactions
cannot be shown; the error for a missing one is never thrown. -/
theorem listTransactions_outcome (consistent : Consistent (updatesOf calls))
    {enumeration : TxEnumeration} {limit offset : Nat}
    {outcome : Except ApiError TransactionResults}
    (ends : Ends Moment.Sees start
      (listTransactions clarity addresses abis enumeration limit offset) last outcome) :
    (∃ error, outcome = .error error ∧
      Ends Moment.Sees start (enumeration.list limit offset) last (.error error)) ∨
    ∃ listing listed, Ends Moment.Sees start (enumeration.list limit offset) listed (.ok listing) ∧
      ((∃ results, outcome = .ok { limit, offset, total := listing.total, results } ∧
          listing.results.Forall₂ (fun tx shown => shown.txId = tx.txId ∧
            ∃ before after, listed ≤ before ∧ after ≤ last ∧ Ends Moment.Sees before
              (Stepwise.getTxFromDataStore clarity addresses abis tx.txId) after
              (.ok (some shown))) results) ∨
        ∃ error, outcome = .error error ∧ ∃ tx ∈ listing.results, ∃ before, listed ≤ before ∧
          Ends Moment.Sees before (Stepwise.getTxFromDataStore clarity addresses abis tx.txId) last
            (.error error)) := by
  rcases ends_bind_iff.mp ends with ⟨error, rfl, failed⟩ | ⟨listing, listed, ended, ends⟩
  · exact Or.inl ⟨error, rfl, failed⟩
  refine Or.inr ⟨listing, listed, ended, ?_⟩
  have never : ∀ tx ∈ listing.results, ∀ before after : Moment calls, listed ≤ before →
      ¬Ends Moment.Sees before (Stepwise.getTxFromDataStore clarity addresses abis tx.txId) after
        (.ok none) := by
    intro tx mem before after later missed
    obtain ⟨buffer, decoded, unknown⟩ := getTxFromDataStore_missed consistent missed
    obtain ⟨row, rowMem, txId⟩ := TxEnumeration.rows ended tx mem
    rw [txId, hexToBuffer_bufferToHexPrefixString] at decoded
    cases decoded
    exact unknown ((Moment.outlasts consistent later).txKnown (Or.inr ⟨row, rowMem, rfl⟩))
  rcases ends_bind_iff.mp ends with ⟨error, rfl, failed⟩ | ⟨results, middle, series, ends⟩
  · rcases ends_findSeries never failed with ⟨results, ⟨⟩, -⟩ | ⟨_, ⟨⟩, each⟩
    exact Or.inr ⟨error, rfl, each⟩
  · obtain ⟨rfl, rfl⟩ := ends_pure_iff.mp ends
    rcases ends_findSeries never series with ⟨_, ⟨⟩, each⟩ | ⟨error, ⟨⟩, -⟩
    refine Or.inl ⟨results, rfl, ?_⟩
    apply ((List.forall₂_and_left _ _).mpr ⟨TxEnumeration.rows ended, each⟩).imp
    rintro tx shown ⟨⟨row, -, txId⟩, before, after, later, earlier, found⟩
    obtain ⟨buffer, decoded, same⟩ := txId_of_getTxFromDataStore found
    rw [txId, hexToBuffer_bufferToHexPrefixString] at decoded
    cases decoded
    exact ⟨same.trans txId.symm, before, after, later, earlier, found⟩

end Listed

/-- A block with a transfer that the blocks after it orphan. -/
def orphaningCalls : List StoreCall :=
  [.update (transferBlock "0x11" "0x00" 1), .update (emptyBlock "0x12" "0x00" 1),
    .update (emptyBlock "0x22" "0x12" 2)]

theorem orphaningCalls_regular : RegularCalls orphaningCalls where
  consistent := consistent_of_checked (by decide) (by decide)
  attributed := by
    have each : ∀ data ∈ [transferBlock "0x11" "0x00" 1, emptyBlock "0x12" "0x00" 1,
        emptyBlock "0x22" "0x12" 2], data.Attributed := by
      simp only [List.forall_mem_cons]
      exact ⟨transferBlock_attributed _ _ _, emptyBlock_attributed _ _ _,
        emptyBlock_attributed _ _ _, List.forall_mem_nil _⟩
    exact each

/-- The moment after so many of the calls. -/
def orphaningMoment (count : Nat) : Moment orphaningCalls where
  past := orphaningCalls.take count
  isPrefix := List.take_prefix count _

/-- What is told apart of a transaction before and after it is orphaned. -/
def standing (shown : Transaction) : String × Option (String × Bool) :=
  (shown.txId, shown.inclusion.map fun inclusion => (inclusion.blockHash, inclusion.canonical))

/-- The transfer is asked for while it is canonical and looked up when it is not. -/
theorem ends_getTxFromDataStore_orphaned :
    ∃ shown, Ends Moment.Sees (orphaningMoment 1) (Stepwise.getTxFromDataStore
      ClarityLibrary.booleans AddressLibrary.zeroHash AbiLibrary.null "0x0a") (orphaningMoment 3)
      (.ok (some shown)) ∧
    standing shown = ("0x0a", some ("0x11", false)) := by
  have found : ((Stepwise.getTxFromDataStore ClarityLibrary.booleans AddressLibrary.zeroHash
      AbiLibrary.null "0x0a").alone (orphaningMoment 3).db).map (Option.map standing) =
      .ok (some ("0x0a", some ("0x11", false))) := by
    decide +kernel
  obtain ⟨shown, foundOk, same⟩ := Except.map_eq_ok.mp found
  obtain ⟨shown, rfl, same⟩ := Option.map_eq_some_iff.mp same
  refine ⟨shown, ?_, Option.some.inj same⟩
  rw [← foundOk]
  exact .query (List.take_prefix_take_left (by decide)) (Moment.sees_self _)
    (ends_alone (Moment.sees_self _) _)

theorem ends_listTransactions_orphaned :
    ∃ results, Ends Moment.Sees (orphaningMoment 1)
      (listTransactions ClarityLibrary.booleans AddressLibrary.zeroHash AbiLibrary.null
        (.ofTypes []) 96 0) (orphaningMoment 3)
      (.ok { limit := 96, offset := 0, total := 1, results }) ∧
    results.map standing = [("0x0a", some ("0x11", false))] := by
  have listed : ((TxEnumeration.ofTypes []).list 96 0).alone (orphaningMoment 1).db =
      .ok { results := [transferTx "0x11" 1], total := 1 } := by
    decide +kernel
  obtain ⟨shown, looked, same⟩ := ends_getTxFromDataStore_orphaned
  refine ⟨[shown], ?_, congrArg (fun pair => [pair]) same⟩
  refine ends_bind_ok_iff.mpr ⟨_, orphaningMoment 1,
    listed ▸ ends_alone (Moment.sees_self _) _, ?_⟩
  refine ends_bind_ok_iff.mpr ⟨[shown], _, ?_, ends_pure_iff.mpr ⟨rfl, rfl⟩⟩
  refine ends_bind_ok_iff.mpr ⟨shown, _, ?_, .done _ _⟩
  exact ends_bind_ok_iff.mpr ⟨some shown, _, looked, .done _ _⟩

theorem listTransactions_orphaned :
    ∃ (results : List Transaction) (listing : Listing (DbTx String)),
      Ends Moment.Sees (orphaningMoment 1)
        (listTransactions ClarityLibrary.booleans AddressLibrary.zeroHash AbiLibrary.null
          (.ofTypes []) 96 0) (orphaningMoment 3)
        (.ok { limit := 96, offset := 0, total := listing.total, results }) ∧
      listing.results.Forall₂ (fun tx shown => shown.txId = tx.txId) results ∧
      results.map standing = [("0x0a", some ("0x11", false))] := by
  obtain ⟨results, ends, shows⟩ := ends_listTransactions_orphaned
  rcases listTransactions_outcome orphaningCalls_regular.consistent ends with
    ⟨_, ⟨⟩, -⟩ | ⟨listing, _, -, ⟨_, same, each⟩ | ⟨_, ⟨⟩, -⟩⟩
  obtain ⟨-, -, total, rfl⟩ := TransactionResults.mk.inj (Except.ok.inj same)
  refine ⟨results, listing, ?_, each.imp fun _ _ shown => shown.1, shows⟩
  rw [← total]
  exact ends

section Listed

variable {calls : List StoreCall} {start last : Moment calls}

/-- The page that the query for blocks selects. -/
def blockPage (limit offset : Nat) (db : Db) : List (DbBlock Buffer) :=
  page limit offset (orderByDesc DbBlock.blockHeight (db.blocks.filter DbBlock.canonical))

theorem selectBlocks_eq (limit offset : Nat) (db : Db) :
    Stepwise.selectBlocks limit offset db =
      .ok ((blockPage limit offset db).map parseBlockQueryResult) := by
  rw [Stepwise.selectBlocks, paged_natCast]
  rfl

/-- Both orders of the two queries list the same page. -/
theorem getBlocks_page {totalFirst : Bool} {limit offset : Nat}
    {outcome : Except ApiError (Listing (DbBlock String))}
    (ends : Ends Moment.Sees start (Stepwise.getBlocks totalFirst limit offset) last outcome) :
    ∃ (listed : Moment calls) (seen : Db) (total : Nat), start ≤ listed ∧ listed ≤ last ∧
      listed.Sees seen ∧ outcome = .ok
        { results := (blockPage limit offset seen).map parseBlockQueryResult, total } := by
  cases totalFirst with
  | true =>
      obtain ⟨atTotal, counted, later, -, ends⟩ := Ends.of_total (fun _ => rfl) ends
      obtain ⟨listed, seen, later', sight, ends⟩ :=
        Ends.of_total (selectBlocks_eq limit offset) ends
      obtain ⟨rfl, rfl⟩ := ends_pure_iff.mp ends
      exact ⟨_, seen, _, le_trans later later', le_refl _, sight, rfl⟩
  | false =>
      obtain ⟨listed, seen, later, sight, ends⟩ :=
        Ends.of_total (selectBlocks_eq limit offset) ends
      obtain ⟨atTotal, counted, later', -, ends⟩ := Ends.of_total (fun _ => rfl) ends
      obtain ⟨rfl, rfl⟩ := ends_pure_iff.mp ends
      exact ⟨listed, seen, _, later, later', sight, rfl⟩

/-- A page of blocks always comes out whole and in its order, whatever commits. -/
theorem listBlocks_outcome (consistent : Consistent (updatesOf calls)) {totalFirst : Bool}
    {limit offset : Option QueryValue} {request : PageRequest}
    (limitOk : parseBoundedLimit 30 (limit.getD (.number 20)) = .ok request.limit)
    (offsetOk : parsePagingQueryInput (offset.getD (.number 0)) = .ok request.offset)
    {outcome : Except ApiError BlockListResponse}
    (ends : Ends Moment.Sees start (listBlocks totalFirst limit offset) last outcome) :
    ∃ (listed : Moment calls) (seen : Db) (total : Nat) (results : List Block),
      start ≤ listed ∧ listed ≤ last ∧ listed.Sees seen ∧
      outcome = .ok { limit := request.limit, offset := request.offset, total, results } ∧
      (blockPage request.limit request.offset seen).Forall₂
        (fun row shown => ShowsBlock listed last row.blockHash shown) results := by
  rw [listBlocks_of_accepted limitOk offsetOk, listBlockPage] at ends
  rcases ends_bind_iff.mp ends with ⟨error, rfl, failed⟩ | ⟨listing, middle, ended, ends⟩
  · obtain ⟨_, _, _, -, -, -, ⟨⟩⟩ := getBlocks_page failed
  obtain ⟨listed, seen, total, later, later', sight, ⟨⟩⟩ := getBlocks_page ended
  -- each row of the page is stored, and stays so
  have shows : ∀ row ∈ blockPage request.limit request.offset seen, ∀ before after : Moment calls,
      middle ≤ before → ∀ outcome, Ends Moment.Sees before
        (Stepwise.getBlockFromDataStore (parseBlockQueryResult row).blockHash) after outcome →
      ∃ shown, outcome = .ok (some shown) ∧ ShowsBlock before after row.blockHash shown := by
    intro row mem before after order outcome found
    have inTable := sight.blocks.symm.subset (List.mem_filter.mp (mem_orderByDesc.mp
      (List.mem_of_mem_drop (List.mem_of_mem_take mem)))).1
    obtain ⟨row', mem', same⟩ :=
      (Moment.outlasts consistent (le_trans later' order)).exists_block inTable
    have sameHash : row'.blockHash = row.blockHash := congrArg (fun row => row.blockHash) same
    exact getBlockFromDataStore_shows consistent (hexToBuffer_bufferToHexPrefixString _)
      ⟨row', mem', sameHash⟩ found
  have never : ∀ block ∈ (blockPage request.limit request.offset seen).map parseBlockQueryResult,
      ∀ before after : Moment calls, middle ≤ before →
        ¬Ends Moment.Sees before (Stepwise.getBlockFromDataStore block.blockHash) after
          (.ok none) := by
    intro block mem before after order missed
    obtain ⟨row, rowMem, rfl⟩ := List.mem_map.mp mem
    obtain ⟨shown, ⟨⟩, -⟩ := shows row rowMem before after order _ missed
  rcases ends_bind_iff.mp ends with ⟨error, rfl, failed⟩ | ⟨results, middle', series, ends⟩
  · rcases ends_findSeries never failed with ⟨_, ⟨⟩, -⟩ | ⟨_, -, block, mem, before, order, found⟩
    obtain ⟨row, rowMem, rfl⟩ := List.mem_map.mp mem
    obtain ⟨shown, ⟨⟩, -⟩ := shows row rowMem before last order _ found
  · obtain ⟨rfl, rfl⟩ := ends_pure_iff.mp ends
    rcases ends_findSeries never series with ⟨_, ⟨⟩, each⟩ | ⟨_, ⟨⟩, -⟩
    refine ⟨listed, seen, total, results, later, le_trans later' series.le, sight, rfl, ?_⟩
    rw [List.forall₂_map_left_iff] at each
    apply ((List.forall₂_and_left _ _).mpr ⟨fun row mem => mem, each⟩).imp
    rintro row shown ⟨mem, before, after, order, earlier, found⟩
    obtain ⟨shown', ⟨⟩, showsBlock⟩ := shows row mem before after order _ found
    exact showsBlock.within (le_trans later' order) earlier

end Listed

theorem listBlocks_orphaned :
    ∃ (listed : Moment orphaningCalls) (seen : Db) (total : Nat) (results : List Block),
      orphaningMoment 3 ≤ listed ∧ listed ≤ orphaningMoment 3 ∧ listed.Sees seen ∧
      (listBlocks true none none).alone (orphaningMoment 3).db =
        .ok { limit := 20, offset := 0, total, results } ∧
      (blockPage 20 0 seen).Forall₂
        (fun row shown => ShowsBlock listed (orphaningMoment 3) row.blockHash shown) results :=
  @listBlocks_outcome _ _ _ orphaningCalls_regular.consistent _ none none
    ⟨20, 0, by decide, by decide⟩ (by decide) (by decide) _ (ends_alone (Moment.sees_self _) _)

end StacksApi.Routes
