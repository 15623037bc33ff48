import StacksApi.Datastore.Acknowledged
import StacksApi.EventStream.MempoolRange
import StacksApi.EventStream.StoreCalls
import StacksApi.Routes.Links

/-!
# What is acknowledged is answered

The event server answers a message with 200 once it has been handled.  From then on the block
and the transactions of the message are found by the routes for them, whatever messages follow
and whatever commits while a request is under way.
-/

namespace StacksApi.EventStream

open StacksApi.Binary
open StacksApi.Datastore
open StacksApi.Controllers
open StacksApi.Routes
open StacksApi.Transition
open Reading

section Server

variable {CV : Type} (libraries : Libraries CV)

/-- The status of the answer to `POST /new_block` or `POST /new_mempool_tx`. -/
def statusCode (db : Db) : ServerMessage → Nat
  | .newBlock msg =>
      match handleClientMessage libraries db msg with
      | .ok _ => 200
      | .error _ => 500
  | .newMempoolTx receiptDate rawTxs =>
      match decodeMempoolTxs libraries rawTxs >>= insertEachMempoolTx libraries receiptDate db with
      | .ok _ => 200
      | .error _ => 500

/-- The ids of the transactions of a message. -/
def messageTxIds : ServerMessage → List String
  | .newBlock msg => msg.transactions.map fun coreTx => coreTx.txid
  | .newMempoolTx _ rawTxs => rawTxs.filterMap fun rawTx =>
      (hexToBuffer rawTx).toOption.map fun buffer =>
        bufferToHexPrefixString (libraries.digestSha512_256 buffer)

/-- The index hash of a block identifies its height, its hash and its transactions. -/
structure DistinctBlocks (messages : List ServerMessage) : Prop where
  heightPos : ∀ msg, .newBlock msg ∈ messages → 1 ≤ msg.blockHeight
  identified : ∀ first, .newBlock first ∈ messages → ∀ second, .newBlock second ∈ messages →
    ∀ hash, hexToBuffer first.indexBlockHash = .ok hash →
      hexToBuffer second.indexBlockHash = .ok hash →
        first.blockHeight = second.blockHeight ∧ first.blockHash = second.blockHash ∧
          first.transactions.map (fun coreTx => coreTx.txid) =
            second.transactions.map fun coreTx => coreTx.txid

theorem DistinctBlocks.regular {messages : List ServerMessage}
    (distinct : DistinctBlocks messages) : RegularMessages messages where
  heightPos := distinct.heightPos
  identified first firstMem second secondMem hash decoded decoded' :=
    (distinct.identified first firstMem second secondMem hash decoded decoded').1

variable {libraries}

/-- The update of a block message has its transactions in their order. -/
theorem map_txId_of_messageData {msg : CoreNodeMessage} {data : DataStoreUpdateData}
    (handed : messageData libraries msg = .ok data) :
    data.txs.map (fun entry => entry.tx.txId) =
      msg.transactions.map fun coreTx => coreTx.txid := by
  obtain ⟨-, entries⟩ := messageData_ok handed
  generalize msg.transactions = coreTxs at entries ⊢
  generalize data.txs = txs at entries ⊢
  induction entries with
  | nil => rfl
  | cons handed _ ih => rw [List.map_cons, List.map_cons, ih, EntryOf.txId handed.1]

theorem DistinctBlocks.sameContents {messages : List ServerMessage}
    (distinct : DistinctBlocks messages) :
    SameContents (updatesOf (serverCalls libraries messages)) := by
  intro first firstMem second secondMem hash decoded decoded'
  obtain ⟨firstMsg, firstIn, firstHanded⟩ := exists_message_of_mem_updatesOf firstMem
  obtain ⟨secondMsg, secondIn, secondHanded⟩ := exists_message_of_mem_updatesOf secondMem
  rw [(messageData_ok firstHanded).1] at decoded ⊢
  rw [(messageData_ok secondHanded).1] at decoded' ⊢
  rw [map_txId_of_messageData firstHanded, map_txId_of_messageData secondHanded]
  exact (distinct.identified firstMsg firstIn secondMsg secondIn hash decoded decoded').2

/-! ## After the answer -/

/-- The calls of a run with a message at its end. -/
theorem serverCalls_append_singleton (past : List ServerMessage) (message : ServerMessage) :
    serverCalls libraries (past ++ [message]) =
      serverCalls libraries past ++ messageCalls libraries (runServer libraries past) message := by
  rw [serverCalls, performed_append, performed, performed, List.append_nil]
  rfl

/-- The update of an acknowledged block has been accepted. -/
theorem update_of_acknowledged {db : Db} {msg : CoreNodeMessage}
    (acknowledged : statusCode libraries db (.newBlock msg) = 200) :
    ∃ data db' events, messageData libraries msg = .ok data ∧
      update db data = .ok (db', events) := by
  cases handled : handleClientMessage libraries db msg with
  | error error =>
      rw [statusCode, handled] at acknowledged
      cases acknowledged
  | ok outcome =>
      obtain ⟨data, handed, ok⟩ := Except.bind_eq_ok.mp handled
      exact ⟨data, outcome.1, outcome.2, handed, ok⟩

/-- The contents of an acknowledged block are stored. -/
theorem contains_of_acknowledged {messages past : List ServerMessage} {msg : CoreNodeMessage}
    (distinct : DistinctBlocks messages) (isPrefix : past ++ [.newBlock msg] <+: messages)
    (acknowledged : statusCode libraries (runServer libraries past) (.newBlock msg) = 200) :
    ∃ data, messageData libraries msg = .ok data ∧
      Contains (runServer libraries (past ++ [.newBlock msg])) data := by
  obtain ⟨data, db', events, handed, ok⟩ := update_of_acknowledged acknowledged
  refine ⟨data, handed, ?_⟩
  have calls : serverCalls libraries (past ++ [.newBlock msg]) =
      serverCalls libraries past ++ [.update data] := by
    rw [serverCalls_append_singleton, messageCalls, handed]
  have subset : updatesOf (serverCalls libraries (past ++ [.newBlock msg])) ⊆
      updatesOf (serverCalls libraries messages) :=
    @Moment.updatesOf_subset (serverCalls libraries messages)
      ⟨serverCalls libraries (past ++ [.newBlock msg]), performed_prefix isPrefix⟩
  rw [runServer_eq_runStore] at ok ⊢
  rw [calls] at subset ⊢
  apply contains_of_accepted (distinct.regular.consistent.of_subset subset)
  · intro first firstMem second secondMem
    exact distinct.sameContents first (subset firstMem) second (subset secondMem)
  · exact ⟨_, ok⟩

/-- The transactions of an acknowledged message are known. -/
theorem idKnown_of_acknowledged {messages past : List ServerMessage} {message : ServerMessage}
    (distinct : DistinctBlocks messages) (isPrefix : past ++ [message] <+: messages)
    (acknowledged : statusCode libraries (runServer libraries past) message = 200)
    {txId : String} (named : txId ∈ messageTxIds libraries message) :
    IdKnown (runServer libraries (past ++ [message])) txId := by
  cases message with
  | newBlock msg =>
      obtain ⟨data, handed, holds⟩ := contains_of_acknowledged distinct isPrefix acknowledged
      apply holds.idKnown
      rw [map_txId_of_messageData handed]
      exact named
  | newMempoolTx receiptDate rawTxs =>
      cases handled : decodeMempoolTxs libraries rawTxs >>=
          insertEachMempoolTx libraries receiptDate (runServer libraries past) with
      | error error =>
          rw [statusCode, handled] at acknowledged
          cases acknowledged
      | ok after =>
          obtain ⟨txs, decoded, inserted⟩ := Except.bind_eq_ok.mp handled
          obtain ⟨same, -, rows⟩ := insertEachMempoolTx_ok inserted
          obtain ⟨buffers, read, each⟩ := Except.bind_eq_ok.mp decoded
          obtain ⟨rawTx, rawMem, isId⟩ := List.mem_filterMap.mp named
          obtain ⟨buffer, isBuffer, rfl⟩ := Option.map_eq_some_iff.mp isId
          obtain ⟨buffer', bufferMem, bufferOk⟩ := exists_of_mapM_ok read rawMem
          rw [bufferOk] at isBuffer
          cases isBuffer
          obtain ⟨tx, txMem, txOk⟩ := exists_of_mapM_ok each bufferMem
          obtain ⟨row, rowMem, rowId⟩ := rows tx txMem
          have received :
              runServer libraries (past ++ [.newMempoolTx receiptDate rawTxs]) = after := by
            rw [runServer, List.foldl_append, List.foldl_cons, List.foldl_nil, receive,
              handleMempoolTxsMessage, decoded]
            exact same
          rw [received]
          refine ⟨row.txId, ?_, Or.inl ⟨row, rowMem, rfl⟩⟩
          rw [hexToBuffer_bufferToHexPrefixString, ← (decodeMempoolTx_ok txOk).2, rowId]

/-- What a message has delivered is found after it was answered with 200: each of its
transactions, unless it cannot be shown, and its block. -/
theorem acknowledged_found {Ty : Type} {clarity : ClarityLibrary CV} {addresses : AddressLibrary}
    {abis : AbiLibrary Ty} {messages past : List ServerMessage} {message : ServerMessage}
    (distinct : DistinctBlocks messages) (isPrefix : past ++ [message] <+: messages)
    (acknowledged : statusCode libraries (runServer libraries past) message = 200)
    {start : Moment (serverCalls libraries messages)}
    (after : serverCalls libraries (past ++ [message]) <+: start.past) :
    (∀ txId ∈ messageTxIds libraries message, ∀ last outcome,
      Ends Moment.Sees start (getTransaction clarity addresses abis txId) last outcome →
        (∃ shown, outcome = .ok (.ok shown) ∧ hexToBuffer txId = hexToBuffer shown.txId) ∨
        ∃ error, outcome = .error error ∧ Ends Moment.Sees start
          (Stepwise.getTxFromDataStore clarity addresses abis txId) last (.error error)) ∧
    ∀ msg, message = .newBlock msg → ∀ last outcome,
      Ends Moment.Sees start (getBlockByHash msg.blockHash) last outcome →
        ∃ shown, outcome = .ok (.ok shown) ∧
          hexToBuffer msg.blockHash = hexToBuffer shown.hash := by
  have consistent : Consistent (updatesOf (serverCalls libraries messages)) :=
    distinct.regular.consistent
  have outlasts : Outlasts (runServer libraries (past ++ [message])) start.db := by
    rw [runServer_eq_runStore]
    exact @Moment.outlasts _ consistent ⟨_, performed_prefix isPrefix⟩ start after
  constructor
  · intro txId named last outcome ends
    have known := idKnown_of_acknowledged distinct isPrefix acknowledged named
    obtain ⟨buffer, decoded, known⟩ := known.mono outlasts
    refine (getTransaction_of_known consistent decoded known ends).imp_left ?_
    rintro ⟨shown, rfl, sameId⟩
    exact ⟨shown, rfl, by rw [decoded, sameId, hexToBuffer_bufferToHexPrefixString]⟩
  · rintro msg rfl last outcome ends
    obtain ⟨data, handed, contains⟩ := contains_of_acknowledged distinct isPrefix acknowledged
    obtain ⟨block, mem, decoded⟩ := (contains.mono outlasts).block
    rw [(messageData_ok handed).1] at decoded
    obtain ⟨shown, rfl, sameHash⟩ :=
      getBlockByHash_of_stored consistent decoded ⟨block, mem, rfl⟩ ends
    have decoded : hexToBuffer msg.blockHash = .ok block.blockHash := decoded
    exact ⟨shown, rfl, by rw [decoded, sameHash, hexToBuffer_bufferToHexPrefixString]⟩

end Server

theorem sampleMessages_distinct :
    DistinctBlocks [.newBlock sampleBlock, sampleMempoolMessage] := by
  have single : ∀ msg, .newBlock msg ∈ [.newBlock sampleBlock, sampleMempoolMessage] →
      msg = sampleBlock := by
    intro msg mem
    rcases List.mem_cons.mp mem with mined | pending
    · cases mined
      rfl
    · cases List.mem_singleton.mp pending
  constructor
  · intro msg mem
    rw [single msg mem]
    decide
  · intro first firstMem second secondMem hash _ _
    rw [single first firstMem, single second secondMem]
    exact ⟨rfl, rfl, rfl⟩

theorem statusCode_sampleBlock :
    statusCode sampleLibraries (runServer sampleLibraries []) (.newBlock sampleBlock) = 200 := by
  obtain ⟨outcome, ok⟩ : Succeeds (update Db.empty
      { block := messageBlock sampleBlock, txs := [sampleEntry] }) := ⟨_, rfl⟩
  have handled : handleClientMessage sampleLibraries Db.empty sampleBlock = .ok outcome :=
    Except.bind_eq_ok.mpr ⟨_, messageData_sampleBlock, ok⟩
  rw [runServer, List.foldl_nil, statusCode, handled]

/-- The block and its transaction are answered when the latter has come pending again. -/
theorem acknowledged_found_minedThenPending :
    (∃ shown, (getTransaction ClarityLibrary.booleans AddressLibrary.zeroHash AbiLibrary.null
        (bufferToHexPrefixString sampleTxId)).alone minedAndPending = .ok (.ok shown) ∧
      hexToBuffer (bufferToHexPrefixString sampleTxId) = hexToBuffer shown.txId) ∧
    ∃ shown, (getBlockByHash "0x11").alone minedAndPending = .ok (.ok shown) ∧
      hexToBuffer "0x11" = hexToBuffer shown.hash := by
  have later : serverCalls sampleLibraries ([] ++ [.newBlock sampleBlock]) <+:
      serverCalls sampleLibraries [.newBlock sampleBlock, sampleMempoolMessage] :=
    performed_prefix ⟨_, rfl⟩
  have db : (⟨_, List.prefix_rfl⟩ : Moment (serverCalls sampleLibraries
      [.newBlock sampleBlock, sampleMempoolMessage])).db = minedAndPending :=
    (runServer_eq_runStore sampleLibraries _).symm.trans runServer_minedThenPending
  obtain ⟨txs, block⟩ := @acknowledged_found _ sampleLibraries _ ClarityLibrary.booleans
    AddressLibrary.zeroHash AbiLibrary.null _ [] _ sampleMessages_distinct ⟨_, rfl⟩
    statusCode_sampleBlock ⟨_, List.prefix_rfl⟩ later
  have tx := txs (bufferToHexPrefixString sampleTxId) (List.mem_singleton_self _) _ _
    (ends_alone (Moment.sees_self _) _)
  have block := block sampleBlock rfl _ _ (ends_alone (Moment.sees_self _) _)
  rw [db] at tx block
  refine ⟨?_, block⟩
  have answered : ((getTransaction ClarityLibrary.booleans AddressLibrary.zeroHash
      AbiLibrary.null (bufferToHexPrefixString sampleTxId)).alone minedAndPending).isOk = true := by
    decide +kernel
  rcases tx with found | ⟨error, failed, -⟩
  · exact found
  · rw [failed] at answered
    cases answered

end StacksApi.EventStream
