import StacksApi.Datastore.Redelivery
import StacksApi.EventStream.Acknowledged

/-!
# Messages that come more than once

A node that gets no answer sends its message again.  A message that is sent again right away
changes nothing, and neither does a block that has been accepted, however much later it comes;
a run that delivers each message at least once ends as the run that delivers it once.
-/

namespace StacksApi.EventStream

open StacksApi.Binary
open StacksApi.Datastore
open StacksApi.Relational
open StacksApi.Transition

variable {CV : Type} {libraries : Libraries CV}

/-- The second message is the first one sent again.  The server gives a mempool message the time
at which it handles it, which fits the column only if that of the first one did. -/
inductive Repeats : ServerMessage → ServerMessage → Prop
  | newBlock (msg : CoreNodeMessage) : Repeats (.newBlock msg) (.newBlock msg)
  | newMempoolTx {receiptDate later : Int} (rawTxs : List String)
      (fits : isInteger later = true → isInteger receiptDate = true) :
      Repeats (.newMempoolTx receiptDate rawTxs) (.newMempoolTx later rawTxs)

/-- What has been received of the messages that were sent: each of them in its order, a message
again before the next one is sent, and an acknowledged block again at any time. -/
inductive Delivered (libraries : Libraries CV) :
    List ServerMessage → List ServerMessage → Prop
  | nil : Delivered libraries [] []
  | sent {messages received : List ServerMessage} (message : ServerMessage)
      (before : Delivered libraries messages received) :
      Delivered libraries (messages ++ [message]) (received ++ [message])
  | retried {messages received : List ServerMessage} {message again : ServerMessage}
      (repeats : Repeats message again)
      (before : Delivered libraries (messages ++ [message]) received) :
      Delivered libraries (messages ++ [message]) (received ++ [again])
  | resent {messages received past : List ServerMessage} {msg : CoreNodeMessage}
      (before : Delivered libraries messages received)
      (isPrefix : past ++ [.newBlock msg] <+: messages)
      (acknowledged : statusCode libraries (runServer libraries past) (.newBlock msg) = 200) :
      Delivered libraries messages (received ++ [.newBlock msg])

theorem RegularMessages.of_subset {first second : List ServerMessage}
    (regular : RegularMessages second) (subset : first ⊆ second) : RegularMessages first where
  heightPos msg mem := regular.heightPos msg (subset mem)
  identified one oneMem other otherMem :=
    regular.identified one (subset oneMem) other (subset otherMem)

/-! ## Blocks -/

/-- What an acknowledged block has left behind is there after all later messages. -/
theorem known_of_acknowledged {messages past : List ServerMessage} {msg : CoreNodeMessage}
    (regular : RegularMessages messages) (isPrefix : past ++ [.newBlock msg] <+: messages)
    (acknowledged : statusCode libraries (runServer libraries past) (.newBlock msg) = 200) :
    ∃ data ∈ updatesOf (serverCalls libraries messages),
      messageData libraries msg = .ok data ∧ Known (runServer libraries messages) data := by
  obtain ⟨data, db', events, handed, ok⟩ := update_of_acknowledged acknowledged
  have calls : serverCalls libraries (past ++ [.newBlock msg]) =
      serverCalls libraries past ++ [.update data] := by
    rw [serverCalls_append_singleton, messageCalls, handed]
  have performed : serverCalls libraries past ++ [.update data] <+:
      serverCalls libraries messages := calls ▸ performed_prefix isPrefix
  have subset := Moment.updatesOf_subset ⟨_, performed⟩
  have consistent := regular.consistent.of_subset subset
  refine ⟨data, subset (mem_updatesOf_last _ _), handed, ?_⟩
  obtain ⟨flag, invariant, linksFrom⟩ := runStore_chainInvariant (consistent.of_subset
    (updatesOf_append (serverCalls libraries past) [.update data] ▸ List.subset_append_left _ _))
  rw [runServer_eq_runStore] at ok
  have known := invariant.known (incoming_of_call consistent linksFrom data rfl) ok
  have stored : runStore (serverCalls libraries past ++ [.update data]) = db' := by
    rw [runStore_append_singleton]
    exact commit_of_ok ok
  rw [← stored] at known
  rw [runServer_eq_runStore]
  exact known.mono (runStore_links_subset regular.consistent performed)

theorem receive_known {messages : List ServerMessage} (regular : RegularMessages messages)
    {msg : CoreNodeMessage} {data : DataStoreUpdateData}
    (mem : data ∈ updatesOf (serverCalls libraries messages))
    (handed : messageData libraries msg = .ok data)
    (known : Known (runServer libraries messages) data) :
    receive libraries (runServer libraries messages) (.newBlock msg) =
      runServer libraries messages := by
  rw [runServer_eq_runStore] at known ⊢
  obtain ⟨flag, invariant, linksFrom⟩ := runStore_chainInvariant
    (@RegularMessages.consistent _ libraries _ regular)
  have incoming : Incoming (runStore (serverCalls libraries messages)) data := by
    apply incoming_of_consistent _ linksFrom
    apply regular.consistent.of_subset
    exact List.append_subset.mpr ⟨List.Subset.refl _, by simpa using mem⟩
  obtain ⟨events, ok⟩ := invariant.update_known incoming known
  exact commit_of_ok (Except.bind_eq_ok.mpr ⟨data, handed, ok⟩)

/-! ## Mempool messages -/

/-- The row of another time of receipt. -/
theorem mempoolTxRow_withReceiptTime {tx : DbMempoolTx String} {row : DbMempoolTx Buffer}
    (decoded : mempoolTxRow tx = .ok row) {later : Int} (fits : isInteger later = true) :
    mempoolTxRow { tx with receiptTime := later } = .ok { row with receiptTime := later } := by
  obtain ⟨txIdOk, columns, admitted⟩ := mempoolTxRow_ok decoded
  have base : row.toDbTxBase = tx.toDbTxBase.withTxId row.txId :=
    congrArg (fun row => row.toDbTxBase) columns
  have admitted' : DbMempoolTx.admitted
      { toDbTxBase := tx.toDbTxBase.withTxId row.txId, receiptTime := later } = true := by
    rw [DbMempoolTx.admitted, Bool.and_eq_true] at admitted ⊢
    rw [base] at admitted
    exact ⟨admitted.1, fits⟩
  rw [base]
  refine Except.bind_eq_ok.mpr ⟨row.txId, txIdOk, ?_⟩
  rw [admitRow, if_pos admitted']

/-- A transaction that is inserted at one time has a row at every time that fits the column. -/
theorem exists_row_of_inserted {receiptDate later : Int} {db db' : Db} {tx : DecodedMempoolTx CV}
    {events : List DataStoreEvent} (fits : isInteger later = true)
    (ok : insertMempoolTx libraries receiptDate db tx = .ok (db', events)) :
    ∃ mempoolTx row, createDbMempoolTxFromCoreMsg libraries.addresses tx later = .ok mempoolTx ∧
      mempoolTxRow mempoolTx = .ok row ∧ ∃ stored ∈ db'.mempoolTxs, stored.txId = row.txId := by
  obtain ⟨mempoolTx, created, ok⟩ := Except.bind_eq_ok.mp ok
  obtain ⟨columns, extracted, same⟩ := Except.bind_eq_ok.mp created
  cases same
  obtain ⟨row, decoded, inserted⟩ := updateMempoolTx_ok ok
  refine ⟨{ toDbTxBase := columns, receiptTime := later }, { row with receiptTime := later },
    Except.bind_eq_ok.mpr ⟨columns, extracted, rfl⟩, mempoolTxRow_withReceiptTime decoded fits, ?_⟩
  rcases inserted with ⟨present, rfl, -⟩ | ⟨-, rfl, -⟩
  · exact present
  · exact ⟨row, List.mem_append_right _ (List.mem_singleton_self row), rfl⟩

/-- The time of receipt of a transaction that is inserted fits the column. -/
theorem isInteger_of_inserted {receiptDate : Int} {db db' : Db} {tx : DecodedMempoolTx CV}
    {events : List DataStoreEvent}
    (ok : insertMempoolTx libraries receiptDate db tx = .ok (db', events)) :
    isInteger receiptDate = true := by
  obtain ⟨mempoolTx, created, ok⟩ := Except.bind_eq_ok.mp ok
  obtain ⟨columns, -, same⟩ := Except.bind_eq_ok.mp created
  cases same
  obtain ⟨row, decoded, -⟩ := updateMempoolTx_ok ok
  obtain ⟨-, same, admitted⟩ := mempoolTxRow_ok decoded
  rw [DbMempoolTx.admitted, Bool.and_eq_true, same] at admitted
  exact admitted.2

/-- A transaction that has been inserted is not inserted again as long as its row is there. -/
theorem insertMempoolTx_again {receiptDate again : Int} {db db' later : Db}
    {tx : DecodedMempoolTx CV} {events : List DataStoreEvent} (fits : isInteger again = true)
    (ok : insertMempoolTx libraries receiptDate db tx = .ok (db', events))
    (subset : db'.mempoolTxs ⊆ later.mempoolTxs) :
    insertMempoolTx libraries again later tx = .ok (later, []) := by
  obtain ⟨mempoolTx, row, created, decoded, stored, mem, same⟩ := exists_row_of_inserted fits ok
  have conflict : later.mempoolTxs.any (fun stored => decide (row.txId = stored.txId)) = true :=
    List.any_eq_true.mpr ⟨stored, subset mem, decide_eq_true same.symm⟩
  have skipped : insertRow (fun row stored : DbMempoolTx Buffer =>
      decide (row.txId = stored.txId)) row later.mempoolTxs = (later.mempoolTxs, 0) :=
    insertRow_of_conflict conflict
  refine Except.bind_eq_ok.mpr ⟨mempoolTx, created, ?_⟩
  rw [updateMempoolTx, decoded]
  simp only [bind, Except.bind, skipped]
  rfl

theorem subset_insertMempoolTxs (receiptDate : Int) (db : Db) (txs : List (DecodedMempoolTx CV)) :
    db.mempoolTxs ⊆ (insertMempoolTxs libraries receiptDate db txs).mempoolTxs := by
  apply @insertMempoolTxs_invariant _ libraries
    (fun pool => db.mempoolTxs ⊆ pool.mempoolTxs) _ _ _ (List.Subset.refl _)
  intro tx mem pool after events subset ok
  obtain ⟨mempoolTx, row, -, -, rfl | rfl⟩ := insertMempoolTx_ok libraries ok
  · exact subset
  · exact List.Subset.trans subset (List.subset_append_left _ _)

/-- The second time, each transaction is there already, or fails as it has failed before. -/
theorem insertMempoolTxs_again {receiptDate again : Int}
    (fits : isInteger again = true → isInteger receiptDate = true) (db : Db)
    (txs : List (DecodedMempoolTx CV)) :
    insertMempoolTxs libraries again (insertMempoolTxs libraries receiptDate db txs) txs =
      insertMempoolTxs libraries receiptDate db txs := by
  induction txs generalizing db with
  | nil => rfl
  | cons tx txs ih =>
      cases result : insertMempoolTx libraries receiptDate db tx with
      | error error =>
          have stopped : insertMempoolTxs libraries receiptDate db (tx :: txs) = db := by
            simp only [insertMempoolTxs, result]
          rw [stopped]
          cases second : insertMempoolTx libraries again db tx with
          | error error => simp only [insertMempoolTxs, second]
          | ok outcome =>
              -- what is inserted now would have been inserted then
              obtain ⟨mempoolTx, row, created, decoded, -⟩ :=
                exists_row_of_inserted (fits (isInteger_of_inserted second)) second
              have inserted : insertMempoolTx libraries receiptDate db tx =
                  updateMempoolTx db mempoolTx := by
                rw [insertMempoolTx, created]
                rfl
              rw [inserted, updateMempoolTx, decoded] at result
              simp only [bind, Except.bind] at result
              split at result <;> cases result
      | ok outcome =>
          obtain ⟨after, events⟩ := outcome
          have first : insertMempoolTxs libraries receiptDate db (tx :: txs) =
              insertMempoolTxs libraries receiptDate after txs := by
            simp only [insertMempoolTxs, result]
          rw [first]
          cases second : insertMempoolTx libraries again
              (insertMempoolTxs libraries receiptDate after txs) tx with
          | error error => simp only [insertMempoolTxs, second]
          | ok outcome =>
              rw [insertMempoolTxs, insertMempoolTx_again (isInteger_of_inserted second) result
                (subset_insertMempoolTxs receiptDate after txs)]
              exact ih after

/-! ## Messages sent again -/

/-- A message that is sent again right away changes nothing. -/
theorem receive_again {messages : List ServerMessage} {message again : ServerMessage}
    (repeats : Repeats message again) (regular : RegularMessages (messages ++ [message])) :
    receive libraries (runServer libraries (messages ++ [message])) again =
      runServer libraries (messages ++ [message]) := by
  have once : runServer libraries (messages ++ [message]) =
      receive libraries (runServer libraries messages) message := by
    rw [runServer, List.foldl_append]
    rfl
  cases repeats with
  | newMempoolTx rawTxs fits =>
      rw [once, receive, receive, handleMempoolTxsMessage, handleMempoolTxsMessage]
      cases decodeMempoolTxs libraries rawTxs with
      | error error => rfl
      | ok txs => exact insertMempoolTxs_again fits _ txs
  | newBlock msg =>
      cases handled : handleClientMessage libraries (runServer libraries messages) msg with
      | error error =>
          have unchanged : receive libraries (runServer libraries messages) (.newBlock msg) =
              runServer libraries messages := commit_of_error handled
          rw [once, unchanged, unchanged]
      | ok outcome =>
          have acknowledged :
              statusCode libraries (runServer libraries messages) (.newBlock msg) = 200 := by
            rw [statusCode, handled]
          obtain ⟨data, mem, handed, known⟩ :=
            known_of_acknowledged regular List.prefix_rfl acknowledged
          exact receive_known regular mem handed known

theorem Delivered.stutters {messages received : List ServerMessage}
    (delivered : Delivered libraries messages received) (regular : RegularMessages messages) :
    Stutters (receive libraries) Db.empty messages received := by
  induction delivered with
  | nil => exact .nil
  | sent message _ ih => exact .both message (ih (regular.of_subset (List.subset_append_left _ _)))
  | retried repeats _ ih => exact .added (ih regular) (receive_again repeats regular)
  | resent _ isPrefix acknowledged ih =>
      obtain ⟨data, mem, handed, known⟩ := known_of_acknowledged regular isPrefix acknowledged
      exact .added (ih regular) (receive_known regular mem handed known)

/-- However often messages come, the tables are those of a run in which each comes once. -/
theorem runServer_delivered {messages received : List ServerMessage}
    (regular : RegularMessages messages) (delivered : Delivered libraries messages received) :
    runServer libraries received = runServer libraries messages :=
  (delivered.stutters regular).foldl_eq

/-- Both messages come twice in a row, the second one a minute later, and the block once more
after that. -/
theorem runServer_delivered_minedThenPending :
    runServer sampleLibraries [.newBlock sampleBlock, .newBlock sampleBlock, sampleMempoolMessage,
        .newMempoolTx 1594648057 [bufferToHexPrefixString sampleBuffer], .newBlock sampleBlock] =
      runServer sampleLibraries [.newBlock sampleBlock, sampleMempoolMessage] := by
  apply runServer_delivered sampleMessages_distinct.regular
  have block : Delivered sampleLibraries [.newBlock sampleBlock]
      [.newBlock sampleBlock, .newBlock sampleBlock] :=
    .retried (.newBlock sampleBlock) (.sent (.newBlock sampleBlock) .nil)
  have both : Delivered sampleLibraries [.newBlock sampleBlock, sampleMempoolMessage]
      [.newBlock sampleBlock, .newBlock sampleBlock, sampleMempoolMessage,
        .newMempoolTx 1594648057 [bufferToHexPrefixString sampleBuffer]] :=
    @Delivered.retried _ _ [.newBlock sampleBlock] _ _ _ (.newMempoolTx _ fun _ => by decide)
      (.sent sampleMempoolMessage block)
  exact @Delivered.resent _ _ _ _ [] _ both ⟨_, rfl⟩ statusCode_sampleBlock

end StacksApi.EventStream
