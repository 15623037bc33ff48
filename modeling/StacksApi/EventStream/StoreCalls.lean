import StacksApi.Datastore.Lasting
import StacksApi.EventStream.MempoolRun
import StacksApi.Transition.Refinement

/-!
# The event server as a client of the store

Each message becomes calls to the store: a block an update, a list of raw transactions the
insertions up to the first one that fails.  A run of the server is the run of the store on
these calls, and they are as regular as the blocks that the node announces.
-/

namespace StacksApi.EventStream

open StacksApi.Binary
open StacksApi.Datastore
open StacksApi.Transition

section Server

variable {CV : Type} (libraries : Libraries CV)

/-- The insertions of a message up to the first failure. -/
def insertedCalls (receiptDate : Int) : Db → List (DecodedMempoolTx CV) → List StoreCall
  | _, [] => []
  | db, tx :: txs =>
      match createDbMempoolTxFromCoreMsg libraries.addresses tx receiptDate with
      | .error _ => []
      | .ok mempoolTx =>
          match updateMempoolTx db mempoolTx with
          | .ok (db, _) => .updateMempoolTx mempoolTx :: insertedCalls receiptDate db txs
          | .error _ => []

/-- The calls of the store that a message leads to; those of a mempool message end before one
that fails. -/
def messageCalls (db : Db) : ServerMessage → List StoreCall
  | .newBlock msg =>
      match messageData libraries msg with
      | .ok data => [.update data]
      | .error _ => []
  | .newMempoolTx receiptDate rawTxs =>
      match decodeMempoolTxs libraries rawTxs with
      | .ok txs => insertedCalls libraries receiptDate db txs
      | .error _ => []

/-- The calls of a run of the server. -/
def serverCalls (messages : List ServerMessage) : List StoreCall :=
  performed (receive libraries) (messageCalls libraries) Db.empty messages

/-! ## The run of the store -/

theorem insertMempoolTxs_eq_run (receiptDate : Int) (db : Db) (txs : List (DecodedMempoolTx CV)) :
    insertMempoolTxs libraries receiptDate db txs =
      run performCall db (insertedCalls libraries receiptDate db txs) := by
  induction txs generalizing db with
  | nil => rfl
  | cons tx txs ih =>
      rw [insertMempoolTxs, insertedCalls, insertMempoolTx]
      cases createDbMempoolTxFromCoreMsg libraries.addresses tx receiptDate with
      | error error => rfl
      | ok mempoolTx =>
          simp only [bind, Except.bind]
          cases result : updateMempoolTx db mempoolTx with
          | error error => rfl
          | ok outcome =>
              have performed : commit performCall db (.updateMempoolTx mempoolTx) = outcome.1 :=
                commit_of_ok result
              change insertMempoolTxs libraries receiptDate outcome.1 txs =
                run performCall (commit performCall db (.updateMempoolTx mempoolTx)) _
              rw [ih, performed]

/-- A message is received as the store performs its calls. -/
theorem receive_eq_run (db : Db) (message : ServerMessage) :
    receive libraries db message = run performCall db (messageCalls libraries db message) := by
  cases message with
  | newBlock msg =>
      rw [receive, messageCalls, commit, handleClientMessage]
      cases messageData libraries msg with
      | error error => rfl
      | ok data => rfl
  | newMempoolTx receiptDate rawTxs =>
      rw [receive, messageCalls, handleMempoolTxsMessage]
      cases decodeMempoolTxs libraries rawTxs with
      | error error => rfl
      | ok txs => exact insertMempoolTxs_eq_run libraries receiptDate db txs

theorem runServer_eq_runStore (messages : List ServerMessage) :
    runServer libraries messages = runStore (serverCalls libraries messages) :=
  foldl_eq_run_performed (receive_eq_run libraries) messages

/-! ## Regular messages -/

/-- What is asked of the blocks that the node announces. -/
structure RegularMessages (messages : List ServerMessage) : Prop where
  heightPos : ∀ msg, .newBlock msg ∈ messages → 1 ≤ msg.blockHeight
  identified : ∀ first, .newBlock first ∈ messages → ∀ second, .newBlock second ∈ messages →
    ∀ hash, hexToBuffer first.indexBlockHash = .ok hash →
      hexToBuffer second.indexBlockHash = .ok hash → first.blockHeight = second.blockHeight

variable {libraries}

theorem notMem_update_insertedCalls {receiptDate : Int} {db : Db}
    {txs : List (DecodedMempoolTx CV)} {data : DataStoreUpdateData} :
    .update data ∉ insertedCalls libraries receiptDate db txs := by
  induction txs generalizing db with
  | nil => exact List.not_mem_nil
  | cons tx txs ih =>
      rw [insertedCalls]
      split
      · exact List.not_mem_nil
      · split
        · rw [List.mem_cons, not_or]
          exact ⟨StoreCall.noConfusion, ih⟩
        · exact List.not_mem_nil

/-- An update of a run is that of a block message. -/
theorem exists_message_of_mem_updatesOf {messages : List ServerMessage}
    {data : DataStoreUpdateData} (mem : data ∈ updatesOf (serverCalls libraries messages)) :
    ∃ msg, .newBlock msg ∈ messages ∧ messageData libraries msg = .ok data := by
  obtain ⟨call, callMem, isUpdate⟩ := List.mem_filterMap.mp mem
  cases call with
  | updateMempoolTx mempoolTx => cases isUpdate
  | update other =>
      cases isUpdate
      obtain ⟨message, messageMem, before, performed⟩ := mem_performed callMem
      cases message with
      | newBlock msg =>
          rw [messageCalls] at performed
          split at performed
          · next read =>
              cases List.mem_singleton.mp performed
              exact ⟨msg, messageMem, read⟩
          · cases performed
      | newMempoolTx receiptDate rawTxs =>
          rw [messageCalls] at performed
          split at performed
          · exact absurd performed notMem_update_insertedCalls
          · cases performed

/-- The entries of a block message carry its height and its hash. -/
theorem messageData_names {msg : CoreNodeMessage} {data : DataStoreUpdateData}
    (handed : messageData libraries msg = .ok data) : data.Attributed ∧ NamesBlock data := by
  obtain ⟨block, -⟩ := messageData_ok handed
  refine ⟨⟨(messageData_carries handed).2, ?_⟩, ?_⟩
  · intro entry mem
    obtain ⟨coreTx, -, tx, recordOf, -, -⟩ := exists_entryOf handed mem
    rw [recordOf.inBlock, block]
    rfl
  · intro entry mem
    obtain ⟨coreTx, -, tx, recordOf, -, -⟩ := exists_entryOf handed mem
    rw [recordOf.inBlock, block]
    rfl

theorem RegularMessages.consistent {messages : List ServerMessage}
    (regular : RegularMessages messages) :
    Consistent (updatesOf (serverCalls libraries messages)) where
  heightPos data mem := by
    obtain ⟨msg, msgMem, handed⟩ := exists_message_of_mem_updatesOf mem
    rw [(messageData_ok handed).1]
    exact regular.heightPos msg msgMem
  canonical data mem := by
    obtain ⟨msg, -, handed⟩ := exists_message_of_mem_updatesOf mem
    exact (messageData_carries handed).1
  identified first firstMem second secondMem hash := by
    obtain ⟨firstMsg, firstIn, firstHanded⟩ := exists_message_of_mem_updatesOf firstMem
    obtain ⟨secondMsg, secondIn, secondHanded⟩ := exists_message_of_mem_updatesOf secondMem
    rw [(messageData_ok firstHanded).1, (messageData_ok secondHanded).1]
    exact regular.identified firstMsg firstIn secondMsg secondIn hash

/-- A run of the event server is a run of the store on regular calls, and the tables between
messages are those of its moments in their order: what holds of a store between the calls of
such a run holds of the server. -/
theorem runServer_refines {messages : List ServerMessage} (regular : RegularMessages messages) :
    RegularCalls (serverCalls libraries messages) ∧
      (∀ data ∈ updatesOf (serverCalls libraries messages), NamesBlock data) ∧
      ∀ past later, past <+: later → later <+: messages →
        ∃ earlier following : Moment (serverCalls libraries messages), earlier ≤ following ∧
          earlier.db = runServer libraries past ∧ following.db = runServer libraries later := by
  refine ⟨⟨regular.consistent, ?_⟩, ?_, ?_⟩
  · intro data mem
    obtain ⟨msg, -, handed⟩ := exists_message_of_mem_updatesOf mem
    exact (messageData_names handed).1
  · intro data mem
    obtain ⟨msg, -, handed⟩ := exists_message_of_mem_updatesOf mem
    exact (messageData_names handed).2
  · intro past later order isPrefix
    exact ⟨⟨serverCalls libraries past, performed_prefix (order.trans isPrefix)⟩,
      ⟨serverCalls libraries later, performed_prefix isPrefix⟩, performed_prefix order,
      (runServer_eq_runStore libraries past).symm, (runServer_eq_runStore libraries later).symm⟩

end Server

theorem eq_sampleBlock {msg : CoreNodeMessage}
    (mem : .newBlock msg ∈ [sampleMempoolMessage, .newBlock sampleBlock]) : msg = sampleBlock := by
  rcases List.mem_cons.mp mem with pending | mined
  · cases pending
  · cases List.mem_singleton.mp mined
    rfl

theorem sampleMessages_regular :
    RegularMessages [sampleMempoolMessage, .newBlock sampleBlock] where
  heightPos msg mem := by
    rw [eq_sampleBlock mem]
    decide
  identified first firstMem second secondMem hash _ _ := by
    rw [eq_sampleBlock firstMem, eq_sampleBlock secondMem]

/-- A transaction that comes pending and then in a block. -/
theorem runServer_refines_pendingThenMined :
    RegularCalls (serverCalls sampleLibraries [sampleMempoolMessage, .newBlock sampleBlock]) ∧
      ∃ earlier following :
          Moment (serverCalls sampleLibraries [sampleMempoolMessage, .newBlock sampleBlock]),
        earlier ≤ following ∧ earlier.db = runServer sampleLibraries [sampleMempoolMessage] ∧
          following.db =
            runServer sampleLibraries [sampleMempoolMessage, .newBlock sampleBlock] := by
  obtain ⟨regular, -, moments⟩ :=
    @runServer_refines _ sampleLibraries _ sampleMessages_regular
  exact ⟨regular, moments [sampleMempoolMessage] _ ⟨_, rfl⟩ (List.prefix_refl _)⟩

end StacksApi.EventStream
