import StacksApi.EventStream.Shown
import StacksApi.EventStream.StoreCalls
import StacksApi.Routes.Links

/-!
# The mempool listed among commits

`GET /tx/mempool` counts the pending transactions and reads a page of them; blocks and other
transactions may commit before, between and after the two queries, and also between the
transactions of one mempool message.  The page is shown exactly when its conditions can be,
and what is listed is found when its id is looked up.
-/

namespace StacksApi.EventStream

open StacksApi.Binary
open StacksApi.P2p
open StacksApi.Relational
open StacksApi.Datastore
open StacksApi.Controllers
open StacksApi.Routes
open StacksApi.Transition
open Reading

variable {CV Ty : Type} {libraries : Libraries CV} {abis : AbiLibrary Ty}

/-! ## The tables in every moment -/

theorem exists_tx_of_mem_insertedCalls {receiptDate : Int} {db : Db}
    {txs : List (DecodedMempoolTx CV)} {mempoolTx : DbMempoolTx String}
    (mem : .updateMempoolTx mempoolTx ∈ insertedCalls libraries receiptDate db txs) :
    ∃ tx ∈ txs, createDbMempoolTxFromCoreMsg libraries.addresses tx receiptDate =
      .ok mempoolTx := by
  induction txs generalizing db with
  | nil => cases mem
  | cons tx txs ih =>
      rw [insertedCalls] at mem
      split at mem
      · cases mem
      · next created =>
          split at mem
          · rcases List.mem_cons.mp mem with same | later
            · cases same
              exact ⟨tx, List.mem_cons_self, created⟩
            · obtain ⟨other, otherMem, created⟩ := ih later
              exact ⟨other, List.mem_cons_of_mem _ otherMem, created⟩
          · cases mem

/-- An insertion of a run is that of a raw transaction of a mempool message. -/
theorem exists_decoded_of_mem_serverCalls {messages : List ServerMessage}
    {mempoolTx : DbMempoolTx String}
    (mem : .updateMempoolTx mempoolTx ∈ serverCalls libraries messages) :
    ∃ receiptDate rawTxs, .newMempoolTx receiptDate rawTxs ∈ messages ∧
      ∃ rawTx ∈ rawTxs, ∃ buffer tx, hexToBuffer rawTx = .ok buffer ∧
        decodeMempoolTx libraries buffer = .ok tx ∧
        createDbMempoolTxFromCoreMsg libraries.addresses tx receiptDate = .ok mempoolTx := by
  obtain ⟨message, messageMem, before, performed⟩ := mem_performed mem
  cases message with
  | newBlock msg =>
      rw [messageCalls] at performed
      split at performed
      · cases List.mem_singleton.mp performed
      · cases performed
  | newMempoolTx receiptDate rawTxs =>
      rw [messageCalls] at performed
      split at performed
      · next txs decodedAll =>
          obtain ⟨tx, txMem, created⟩ := exists_tx_of_mem_insertedCalls performed
          obtain ⟨buffers, buffersOk, decodedAll⟩ := Except.bind_eq_ok.mp decodedAll
          obtain ⟨buffer, bufferMem, decoded⟩ := mem_of_mapM_ok decodedAll txMem
          obtain ⟨rawTx, rawTxMem, bufferOk⟩ := mem_of_mapM_ok buffersOk bufferMem
          exact ⟨receiptDate, rawTxs, messageMem, rawTx, rawTxMem, buffer, tx, bufferOk, decoded,
            created⟩
      · cases performed

/-- Between the transactions of a mempool message, too, the rows are those of raw
transactions. -/
theorem tablesParsed_moment {messages : List ServerMessage}
    (moment : Moment (serverCalls libraries messages)) : TablesParsed libraries moment.db := by
  have holds : (∀ tx ∈ moment.db.txs, tx.admitted = true) ∧ TablesParsed libraries moment.db := by
    have start : (⟨[], List.nil_prefix⟩ : Moment (serverCalls libraries messages)) ≤ moment :=
      List.nil_prefix
    apply @Moment.le_induction _
      (fun db => (∀ tx ∈ db.txs, tx.admitted = true) ∧ TablesParsed libraries db) _ _ start
    case holds =>
      exact ⟨List.forall_mem_nil _, List.forall_mem_nil _, List.forall_mem_nil _, List.nodup_nil⟩
    intro past call isPrefix ⟨admitted, parsed⟩
    have mem : call ∈ serverCalls libraries messages := isPrefix.subset (List.mem_append_right _
      (List.mem_singleton_self call))
    cases result : performCall (runStore past) call with
    | error error =>
        rw [commit_of_error result]
        exact ⟨admitted, parsed⟩
    | ok outcome =>
        obtain ⟨db', events⟩ := outcome
        rw [commit_of_ok result]
        cases call with
        | update data =>
            obtain ⟨msg, -, handed⟩ :=
              exists_message_of_mem_updatesOf (List.mem_filterMap.mpr ⟨_, mem, rfl⟩)
            obtain ⟨-, reorged, pruned, row, accepted⟩ := update_ok result
            have admitted' := accepted.admitted_txs admitted
            exact ⟨admitted', tablesParsed_update parsed handed accepted admitted'⟩
        | updateMempoolTx mempoolTx =>
            obtain ⟨receiptDate, _, -, _, -, _, tx, -, decoded, created⟩ :=
              exists_decoded_of_mem_serverCalls mem
            have read := decodeMempoolTx_read decoded
            have inserted : insertMempoolTx libraries receiptDate (runStore past) tx =
                .ok (db', events) :=
              Except.bind_eq_ok.mpr ⟨mempoolTx, created, result⟩
            refine ⟨?_, tablesParsed_insert parsed read inserted⟩
            obtain ⟨_, _, -, -, rfl | rfl⟩ := insertMempoolTx_ok libraries inserted
            · exact admitted
            · exact admitted
  exact holds.2

/-! ## One entry -/

/-- The raw transaction of the row is listable. -/
def RowListable {ι : Type} (libraries : Libraries CV) (row : DbTxBase ι) : Prop :=
  ∀ tx, readBufferTransaction libraries row.rawTx = .ok tx → Listable libraries.addresses tx

/-- What the raw transaction of the row calls can be looked up. -/
def RowCallable {ι : Type} (libraries : Libraries CV) (abis : AbiLibrary Ty) (db : Db)
    (row : DbTxBase ι) : Prop :=
  ∀ tx, readBufferTransaction libraries row.rawTx = .ok tx →
    CallsCallable libraries.addresses abis db tx

theorem rowPresentable_iff {ι : Type} {db : Db} {row : DbTxBase ι} :
    RowPresentable libraries abis db row ↔
      RowListable libraries row ∧ RowCallable libraries abis db row := by
  constructor
  · intro presentable
    exact ⟨fun tx read => (presentable_iff.mp (presentable tx read)).1,
      fun tx read => (presentable_iff.mp (presentable tx read)).2⟩
  · rintro ⟨listable, callable⟩ tx read
    exact presentable_iff.mpr ⟨listable tx read, callable tx read⟩

/-- The entry stands for the row: when its id is looked up in the same tables, the answer is
there unless a contract is missing, and tells the same. -/
structure ListedAs (libraries : Libraries CV) (abis : AbiLibrary Ty) (db : Db)
    (row : DbMempoolTx Buffer) (entry : MempoolTransaction) : Prop where
  txId : entry.txId = bufferToHexPrefixString row.txId
  shown_iff : (∃ shown, getTxFromDataStore libraries.clarity libraries.addresses abis entry.txId
    db = .ok (some shown)) ↔ RowCallable libraries abis db row.toDbTxBase
  agrees : ∀ shown, getTxFromDataStore libraries.clarity libraries.addresses abis entry.txId db =
    .ok (some shown) → entry.Agrees shown

section Row

variable {db : Db} {row : DbMempoolTx Buffer} {stored : DbMempoolTx String}

theorem succeeds_listed_iff (localCV : Local libraries.clarity.deserializeCV)
    (parsed : TablesParsed libraries db) (mem : row ∈ db.mempoolTxs)
    (parsedRow : parseMempoolTxQueryResult row = .ok stored) :
    Succeeds (parseDbMempoolTx libraries.clarity libraries.addresses stored) ↔
      RowListable libraries row.toDbTxBase := by
  obtain ⟨columns, columnsOk, same⟩ := Except.bind_eq_ok.mp parsedRow
  cases same
  obtain ⟨tx, storedFrom, -, receiptTime⟩ := parsed.pending row mem
  have columnsFrom := storedFrom.of_parseTxColumns columnsOk
  refine (succeeds_parseDbMempoolTx_iff columnsFrom (storedFrom.rereads localCV)
    receiptTime).trans ?_
  constructor
  · intro listable tx' read
    cases storedFrom.read.symm.trans read
    exact listable
  · intro listable
    exact listable tx storedFrom.read

theorem listedAs_of_parsed (localCV : Local libraries.clarity.deserializeCV)
    (parsed : TablesParsed libraries db) (mem : row ∈ db.mempoolTxs)
    (parsedRow : parseMempoolTxQueryResult row = .ok stored) {entry : MempoolTransaction}
    (listed : parseDbMempoolTx libraries.clarity libraries.addresses stored = .ok entry) :
    ListedAs libraries abis db row entry := by
  have listable := (succeeds_listed_iff localCV parsed mem parsedRow).mp ⟨entry, listed⟩
  obtain ⟨columns, columnsOk, same⟩ := Except.bind_eq_ok.mp parsedRow
  cases same
  obtain ⟨tx, -, status, -⟩ := parsed.pending row mem
  have sameColumns := parsedColumns_of_ok columnsOk
  have entryId : entry.txId = bufferToHexPrefixString row.txId := by
    obtain ⟨iso, -, ok⟩ := Except.bind_eq_ok.mp listed
    obtain ⟨byte, -, ok⟩ := Except.bind_eq_ok.mp ok
    obtain ⟨mode, -, ok⟩ := Except.bind_eq_ok.mp ok
    obtain ⟨details, -, ok⟩ := Except.bind_eq_ok.mp ok
    cases ok
    exact sameColumns.txId
  have decoded : hexToBuffer entry.txId = .ok row.txId := by
    rw [entryId, hexToBuffer_bufferToHexPrefixString]
  refine ⟨entryId, ?_, ?_⟩
  · rw [shown_iff_of_pending localCV parsed decoded mem, rowPresentable_iff]
    exact and_iff_right listable
  · intro shown looked
    obtain ⟨found, foundOk, looked⟩ := Except.bind_eq_ok.mp looked
    cases foundOk.symm.trans (lookupTx_pending parsed decoded mem columnsOk)
    obtain ⟨tx', parsedOk, same⟩ := Except.bind_eq_ok.mp looked
    cases same
    exact agrees_of_parsed (sameColumns.status.trans status) listed parsedOk

end Row

/-! ## The route -/

/-- The page that the query for pending transactions selects. -/
def mempoolPage (limit offset : Nat) (db : Db) : List (DbMempoolTx Buffer) :=
  page limit offset (orderByDesc DbMempoolTx.receiptTime db.mempoolTxs)

theorem mem_of_mem_mempoolPage {limit offset : Nat} {db : Db} {row : DbMempoolTx Buffer}
    (mem : row ∈ mempoolPage limit offset db) : row ∈ db.mempoolTxs :=
  mem_orderByDesc.mp (List.mem_of_mem_drop (List.mem_of_mem_take mem))

/-- The two queries of the listing always have answers. -/
theorem getMempoolTxList_page {messages : List ServerMessage}
    {start last : Moment (serverCalls libraries messages)} {limit offset : Nat}
    {outcome : Except ApiError (Listing (DbMempoolTx String))}
    (ends : Ends Moment.Sees start (Stepwise.getMempoolTxList limit offset) last outcome) :
    ∃ (counted : Moment (serverCalls libraries messages)) (seen : Db)
        (results : List (DbMempoolTx String)),
      start ≤ counted ∧ counted ≤ last ∧ last.Sees seen ∧
      outcome = .ok { results, total := counted.db.mempoolTxs.length } ∧
      (mempoolPage limit offset seen).Forall₂
        (fun row stored => parseMempoolTxQueryResult row = .ok stored) results := by
  obtain ⟨counted, seenTotal, later, sightTotal, ends⟩ := Ends.of_total (fun _ => rfl) ends
  have sameTotal : seenTotal.mempoolTxs.length = counted.db.mempoolTxs.length :=
    sightTotal.mempoolTxs.symm.length_eq
  have answered : ∀ {listed : Moment (serverCalls libraries messages)} {seen : Db},
      listed.Sees seen → ∃ results, Stepwise.selectMempoolTxs limit offset seen = .ok results ∧
        (mempoolPage limit offset seen).Forall₂
          (fun row stored => parseMempoolTxQueryResult row = .ok stored) results := by
    intro listed seen sight
    obtain ⟨results, parsed⟩ : Succeeds
        ((mempoolPage limit offset seen).mapM parseMempoolTxQueryResult) := by
      apply succeeds_mapM_iff.mpr
      intro row mem
      exact (tablesParsed_moment listed).succeeds_parseMempoolTx
        (sight.mempoolTxs.symm.subset (mem_of_mem_mempoolPage mem))
    refine ⟨results, ?_, mapM_eq_ok_iff.mp parsed⟩
    rw [Stepwise.selectMempoolTxs, paged_natCast]
    exact parsed
  rcases ends_bind_iff.mp ends with ⟨error, rfl, failed⟩ | ⟨results, listed, asked, ends⟩
  · obtain ⟨-, seen, sight, same⟩ := ends_ask_iff.mp failed
    obtain ⟨results, selected, -⟩ := answered sight
    cases same.trans selected
  · obtain ⟨later', seen, sight, same⟩ := ends_ask_iff.mp asked
    obtain ⟨results', selected, parsed⟩ := answered sight
    cases same.trans selected
    obtain ⟨rfl, rfl⟩ := ends_pure_iff.mp ends
    exact ⟨counted, seen, results, later, later', sight, by rw [sameTotal], parsed⟩

/-- The listing fails exactly when a row of the page cannot be listed, and otherwise has an
entry for each of them that agrees with the look-up in the moment of the page; whoever looks
an entry up later finds its transaction, if it can be shown. -/
theorem listMempool_outcome (abis : AbiLibrary Ty)
    (localCV : Local libraries.clarity.deserializeCV) {messages : List ServerMessage}
    (regular : RegularMessages messages)
    {start last : Moment (serverCalls libraries messages)}
    {limit offset : Option QueryValue} {request : PageRequest}
    (limitOk : parseBoundedLimit 200 (limit.getD (.number 96)) = .ok request.limit)
    (offsetOk : parsePagingQueryInput (offset.getD (.number 0)) = .ok request.offset)
    {outcome : Except ApiError MempoolTransactionListResponse}
    (ends : Ends Moment.Sees start
      (listMempool libraries.clarity libraries.addresses limit offset) last outcome) :
    ∃ (counted : Moment (serverCalls libraries messages)) (seen : Db),
      start ≤ counted ∧ counted ≤ last ∧ last.Sees seen ∧
      ((∃ error, outcome = .error error ∧ ∃ row ∈ mempoolPage request.limit request.offset seen,
          ¬RowListable libraries row.toDbTxBase) ∨
        ∃ results, outcome = .ok { limit := request.limit, offset := request.offset
                                   total := counted.db.mempoolTxs.length, results } ∧
          (mempoolPage request.limit request.offset seen).Forall₂ (fun row entry =>
            RowListable libraries row.toDbTxBase ∧
            ListedAs libraries abis last.db row entry ∧
            ∀ (first final : Moment (serverCalls libraries messages)) answer, last ≤ first →
              Ends Moment.Sees first (getTransaction libraries.clarity libraries.addresses abis
                entry.txId) final answer →
              (∃ shown, answer = .ok (.ok shown) ∧ shown.txId = entry.txId) ∨
                ∃ error, answer = .error error) results) := by
  rw [listMempool, limitOk, offsetOk, lift_ok_bind, lift_ok_bind] at ends
  rcases ends_bind_iff.mp ends with ⟨error, rfl, failed⟩ | ⟨listing, listed, ended, ends⟩
  · obtain ⟨_, _, _, -, -, -, ⟨⟩, -⟩ := getMempoolTxList_page failed
  obtain ⟨counted, seen, stored, later, later', sight, ⟨⟩, parsed⟩ := getMempoolTxList_page ended
  dsimp only at ends
  have inPool : ∀ row ∈ mempoolPage request.limit request.offset seen, row ∈ listed.db.mempoolTxs :=
    fun row mem => sight.mempoolTxs.symm.subset (mem_of_mem_mempoolPage mem)
  rcases ends_bind_iff.mp ends with ⟨error, rfl, failed⟩ | ⟨results, middle, lifted, rest⟩
  · obtain ⟨rfl, same⟩ := ends_lift_iff.mp failed
    refine ⟨counted, seen, later, later', sight, Or.inl ⟨error, rfl, ?_⟩⟩
    -- one of the entries fails, and so does its row
    have fails : ¬Succeeds (stored.mapM
        (parseDbMempoolTx libraries.clarity libraries.addresses)) := by
      rw [← same]
      exact not_succeeds_error error
    rw [succeeds_mapM_iff] at fails
    obtain ⟨tx, fails⟩ := not_forall.mp fails
    obtain ⟨txMem, fails⟩ := Classical.not_imp.mp fails
    obtain ⟨row, rowMem, parsedRow⟩ := exists_left_of_forall₂ parsed txMem
    refine ⟨row, rowMem, ?_⟩
    rwa [succeeds_listed_iff localCV (tablesParsed_moment _) (inPool row rowMem) parsedRow]
      at fails
  · obtain ⟨rfl, same⟩ := ends_lift_iff.mp lifted
    obtain ⟨rfl, rfl⟩ := ends_pure_iff.mp rest
    refine ⟨counted, seen, later, later', sight, Or.inr ⟨results, rfl, ?_⟩⟩
    have rows := (List.forall₂_and_left _ _).mpr ⟨inPool, parsed⟩
    refine forall₂_trans rows (mapM_eq_ok_iff.mp same.symm) ?_
    rintro row tx entry ⟨mem, parsedRow⟩ entryOk
    have listedAs := @listedAs_of_parsed _ _ _ abis _ _ _ localCV (tablesParsed_moment _) mem
      parsedRow _ entryOk
    have listable :=
      (succeeds_listed_iff localCV (tablesParsed_moment _) mem parsedRow).mp ⟨entry, entryOk⟩
    refine ⟨listable, listedAs, ?_⟩
    intro first final answer order looked
    have known : TxKnown first.db row.txId :=
      (Moment.outlasts regular.consistent order).txKnown (Or.inl ⟨row, mem, rfl⟩)
    have decoded : hexToBuffer entry.txId = .ok row.txId := by
      rw [listedAs.txId, hexToBuffer_bufferToHexPrefixString]
    rcases getTransaction_of_known regular.consistent decoded known looked with
      ⟨shown, rfl, same⟩ | ⟨error, rfl, -⟩
    · exact Or.inl ⟨shown, rfl, same.trans listedAs.txId.symm⟩
    · exact Or.inr ⟨error, rfl⟩

/-- The call of a contract that is not stored is listed, and the look-up of it fails. -/
theorem listMempool_outcome_call :
    ∃ results, (listMempool ClarityLibrary.booleans AddressLibrary.zeroHash none none).alone
        { Db.empty with mempoolTxs := [callMempoolRow] } =
          .ok { limit := 96, offset := 0, total := 1, results } ∧
      results.map (fun entry => entry.txId) = [bufferToHexPrefixString callTxId] ∧
      ¬RowCallable callLibraries AbiLibrary.null { Db.empty with mempoolTxs := [callMempoolRow] }
        callMempoolRow.toDbTxBase := by
  have regular : RegularMessages [callMempoolMessage] := by
    constructor
    · intro msg mem
      cases List.mem_singleton.mp mem
    · intro first mem
      cases List.mem_singleton.mp mem
  let moment : Moment (serverCalls callLibraries [callMempoolMessage]) := ⟨_, List.prefix_rfl⟩
  have db : moment.db = { Db.empty with mempoolTxs := [callMempoolRow] } :=
    (runServer_eq_runStore _ _).symm.trans runServer_callMempoolMessage
  have listed : ((listMempool ClarityLibrary.booleans AddressLibrary.zeroHash none none).alone
      { Db.empty with mempoolTxs := [callMempoolRow] }).isOk = true := by
    decide +kernel
  have failed : getTxFromDataStore ClarityLibrary.booleans AddressLibrary.zeroHash AbiLibrary.null
      (bufferToHexPrefixString callTxId) { Db.empty with mempoolTxs := [callMempoolRow] } =
        .error (.failure
          "Failed to lookup smart contract by ID ST000000000000000000002AMW42H.c") := by
    decide +kernel
  obtain ⟨counted, seen, after, before, sight, ⟨error, answer, -⟩ | ⟨results, answer, each⟩⟩ :=
    @listMempool_outcome _ _ callLibraries AbiLibrary.null local_booleans _ regular moment moment
      none none ⟨96, 0, by decide, by decide⟩ (by decide) (by decide) _
      (ends_alone (Moment.sees_self _) _)
  · have answer : (listMempool ClarityLibrary.booleans AddressLibrary.zeroHash none none).alone
        moment.db = _ := answer
    rw [db] at answer
    rw [answer] at listed
    cases listed
  · have answer : (listMempool ClarityLibrary.booleans AddressLibrary.zeroHash none none).alone
        moment.db = _ := answer
    have count : counted.db = moment.db :=
      congrArg runStore (before.eq_of_length_le after.length_le)
    rw [count, db] at answer
    -- the page has the one row, whatever order the table is read in
    have pool : seen.mempoolTxs = [callMempoolRow] := by
      have perm := sight.mempoolTxs
      rw [db] at perm
      exact (List.perm_singleton.mp perm.symm)
    have onePage : mempoolPage 96 0 seen = [callMempoolRow] := by
      rw [mempoolPage, pool]
      rfl
    rw [onePage] at each
    obtain ⟨entry, rest, ⟨-, listedAs, -⟩, none, rfl⟩ := List.forall₂_cons_left_iff.mp each
    cases none
    refine ⟨[entry], answer, congrArg (fun txId => [txId]) listedAs.txId, ?_⟩
    rw [← db, ← listedAs.shown_iff, listedAs.txId, db]
    rintro ⟨shown, looked⟩
    have looked := failed.symm.trans looked
    cases looked

end StacksApi.EventStream
