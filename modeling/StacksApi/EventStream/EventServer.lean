import StacksApi.Datastore.FromCore
import StacksApi.Datastore.Accepted
import StacksApi.Text.Decimal

/-!
# The event server

`handleClientMessage` and `handleMempoolTxsMessage`.  Messages pass through a
queue that handles one at a time.  A block message is one update of the store;
the transactions of a mempool message are inserted one by one, so that those
before a failure stay.
-/

namespace StacksApi.EventStream

open StacksApi.Binary
open StacksApi.Text
open StacksApi.Datastore
open StacksApi.Transition

variable {CV : Type} (libraries : Libraries CV)

/-! ## Block messages -/

/-- `BigInt(text)` -/
def bigIntOfText (text : String) : Except ApiError Int :=
  match bigIntOfString text with
  | some value => .ok value
  | none => .error (.failure s!"Cannot convert {text} to a BigInt")

/-- The position of the next event of an entry. -/
def nextEventIndex (entry : TxEntry) : Nat :=
  entry.stxEvents.length + entry.ftEvents.length + entry.nftEvents.length +
    entry.contractLogEvents.length

/-- What all events of a transaction share. -/
def eventBase (blockHeight : Nat) (entry : TxEntry) (txid : String) : DbEventBase String where
  eventIndex := nextEventIndex entry
  txId := txid
  txIndex := entry.tx.txIndex
  blockHeight := blockHeight
  canonical := true

/-- Push an event on the list of its kind. -/
def pushEvent (blockHeight : Nat) (entry : TxEntry) (event : CoreNodeEvent) :
    Except ApiError TxEntry :=
  let dbEvent := eventBase blockHeight entry event.txid
  match event with
  | .contractEvent _ contractIdentifier topic rawValue => do
      let value ← hexToBuffer rawValue
      return { entry with contractLogEvents := entry.contractLogEvents ++
        [{ toDbEventBase := dbEvent, contractIdentifier, topic, value }] }
  | .stxTransferEvent _ sender recipient amount => do
      let amount ← bigIntOfText amount
      return { entry with stxEvents := entry.stxEvents ++
        [{ toDbEventBase := dbEvent, assetEventTypeId := .transfer, sender := some sender
           recipient := some recipient, amount }] }
  | .stxMintEvent _ recipient amount => do
      let amount ← bigIntOfText amount
      return { entry with stxEvents := entry.stxEvents ++
        [{ toDbEventBase := dbEvent, assetEventTypeId := .mint, sender := none
           recipient := some recipient, amount }] }
  | .stxBurnEvent _ sender amount => do
      let amount ← bigIntOfText amount
      return { entry with stxEvents := entry.stxEvents ++
        [{ toDbEventBase := dbEvent, assetEventTypeId := .burn, sender := some sender
           recipient := none, amount }] }
  | .ftTransferEvent _ assetIdentifier sender recipient amount => do
      let amount ← bigIntOfText amount
      return { entry with ftEvents := entry.ftEvents ++
        [{ toDbEventBase := dbEvent, assetEventTypeId := .transfer, sender := some sender
           recipient := some recipient, assetIdentifier, amount }] }
  | .ftMintEvent _ assetIdentifier recipient amount => do
      let amount ← bigIntOfText amount
      return { entry with ftEvents := entry.ftEvents ++
        [{ toDbEventBase := dbEvent, assetEventTypeId := .mint, sender := none
           recipient := some recipient, assetIdentifier, amount }] }
  | .nftTransferEvent _ assetIdentifier sender recipient rawValue => do
      let value ← hexToBuffer rawValue
      return { entry with nftEvents := entry.nftEvents ++
        [{ toDbEventBase := dbEvent, assetEventTypeId := .transfer, sender := some sender
           recipient := some recipient, assetIdentifier, value }] }
  | .nftMintEvent _ assetIdentifier recipient rawValue => do
      let value ← hexToBuffer rawValue
      return { entry with nftEvents := entry.nftEvents ++
        [{ toDbEventBase := dbEvent, assetEventTypeId := .mint, sender := none
           recipient := some recipient, assetIdentifier, value }] }
  | .unknown _ inspected =>
      .error (.failure s!"Unexpected CoreNodeEventType: {inspected}")

/-- Give an event to the first entry of its transaction. -/
def addEvent (blockHeight : Nat) : List TxEntry → CoreNodeEvent → Except ApiError (List TxEntry)
  | [], event =>
      .error (.failure s!"Unexpected missing tx during event parsing by tx_id {event.txid}")
  | entry :: entries, event =>
      if entry.tx.txId = event.txid then do
        let entry ← pushEvent blockHeight entry event
        return entry :: entries
      else do
        let entries ← addEvent blockHeight entries event
        return entry :: entries

/-- The entry of a transaction before its events are added. -/
def createEntry (blockHeight : Nat) (tx : CoreNodeParsedTxMessage CV) :
    Except ApiError TxEntry := do
  let dbTx ← createDbTxFromCoreMsg libraries.addresses tx
  return {
    tx := dbTx
    stxEvents := []
    ftEvents := []
    nftEvents := []
    contractLogEvents := []
    smartContracts :=
      match tx.parsedTx.payload with
      | .smartContract name codeBody =>
          [{ txId := tx.coreTx.txid
             contractId := s!"{tx.senderAddress}.{name}"
             blockHeight
             sourceCode := codeBody
             abi := tx.coreTx.contractAbi
             canonical := true }]
      | _ => [] }

/-- The block of a message. -/
def messageBlock (msg : CoreNodeMessage) : DbBlock String where
  canonical := true
  blockHash := msg.blockHash
  indexBlockHash := msg.indexBlockHash
  parentIndexBlockHash := msg.parentIndexBlockHash
  parentBlockHash := msg.parentBlockHash
  parentMicroblock := msg.parentMicroblock
  blockHeight := msg.blockHeight
  burnBlockTime := msg.burnBlockTime

/-- What `handleClientMessage` hands to the store. -/
def messageData (msg : CoreNodeMessage) : Except ApiError DataStoreUpdateData := do
  let parsed ← parseMessageTransactions libraries msg
  let entries ← parsed.mapM (createEntry libraries msg.blockHeight)
  let txs ← msg.events.foldlM (addEvent msg.blockHeight) entries
  return { block := messageBlock msg, txs }

/-- A block message is parsed and handed to the store. -/
def handleClientMessage (db : Db) (msg : CoreNodeMessage) :
    Except ApiError (Db × List DataStoreEvent) := do
  let dbData ← messageData libraries msg
  update db dbData

/-! ## Mempool messages -/

/-- One transaction of a mempool message, with its digest for an id. -/
def decodeMempoolTx (buffer : Buffer) : Except ApiError (DecodedMempoolTx CV) := do
  let parsedTx ← readBufferTransaction libraries buffer
  let txSender ← getTxSenderAddress libraries.addresses parsedTx
  let sponsorAddress ← getTxSponsorAddress libraries.addresses parsedTx
  return {
    txId := bufferToHexPrefixString (libraries.digestSha512_256 buffer)
    sender := txSender
    sponsorAddress
    txData := parsedTx
    rawTx := buffer }

/-- One transaction of a mempool message is handed to the store. -/
def insertMempoolTx (receiptDate : Int) (db : Db) (tx : DecodedMempoolTx CV) :
    Except ApiError (Db × List DataStoreEvent) := do
  let mempoolTx ← createDbMempoolTxFromCoreMsg libraries.addresses tx receiptDate
  updateMempoolTx db mempoolTx

/-- Insert transactions up to the first failure. -/
def insertMempoolTxs (receiptDate : Int) : Db → List (DecodedMempoolTx CV) → Db
  | db, [] => db
  | db, tx :: txs =>
      match insertMempoolTx libraries receiptDate db tx with
      | .ok (db, _) => insertMempoolTxs receiptDate db txs
      | .error _ => db

/-- All transactions of a message are decoded before the first one is inserted. -/
def decodeMempoolTxs (rawTxs : List String) : Except ApiError (List (DecodedMempoolTx CV)) := do
  let rawTxBuffers ← rawTxs.mapM hexToBuffer
  rawTxBuffers.mapM (decodeMempoolTx libraries)

/-- The tables after a mempool message. -/
def handleMempoolTxsMessage (receiptDate : Int) (db : Db) (rawTxs : List String) : Db :=
  match decodeMempoolTxs libraries rawTxs with
  | .ok txs => insertMempoolTxs libraries receiptDate db txs
  | .error _ => db

/-! ## Runs -/

/-- A message with the time of its receipt, where that is used. -/
inductive ServerMessage
  | newBlock (msg : CoreNodeMessage)
  | newMempoolTx (receiptDate : Int) (rawTxs : List String)

/-- The tables after a message; a failed update is rolled back. -/
def receive (db : Db) : ServerMessage → Db
  | .newBlock msg => commit (handleClientMessage libraries) db msg
  | .newMempoolTx receiptDate rawTxs => handleMempoolTxsMessage libraries receiptDate db rawTxs

/-- The tables after messages arrive at an empty store. -/
def runServer (messages : List ServerMessage) : Db :=
  messages.foldl (receive libraries) Db.empty

/-! ## Induction -/

/-- Insertions change no table but the mempool. -/
theorem insertMempoolTx_ok {receiptDate : Int} {db db' : Db} {tx : DecodedMempoolTx CV}
    {events : List DataStoreEvent}
    (ok : insertMempoolTx libraries receiptDate db tx = .ok (db', events)) :
    ∃ mempoolTx row,
      createDbMempoolTxFromCoreMsg libraries.addresses tx receiptDate = .ok mempoolTx ∧
      mempoolTxRow mempoolTx = .ok row ∧
      (db' = db ∨ db' = { db with mempoolTxs := db.mempoolTxs ++ [row] }) := by
  obtain ⟨mempoolTx, created, ok⟩ := Except.bind_eq_ok.mp ok
  obtain ⟨row, decoded, ⟨-, same, -⟩ | ⟨-, same, -⟩⟩ := updateMempoolTx_ok ok
  · exact ⟨mempoolTx, row, created, decoded, Or.inl same⟩
  · exact ⟨mempoolTx, row, created, decoded, Or.inr same⟩

theorem insertMempoolTxs_invariant {P : Db → Prop} {receiptDate : Int} {db : Db}
    {txs : List (DecodedMempoolTx CV)} (holds : P db)
    (kept : ∀ tx ∈ txs, ∀ pool after events, P { db with mempoolTxs := pool } →
      insertMempoolTx libraries receiptDate { db with mempoolTxs := pool } tx =
        .ok (after, events) → P after) :
    P (insertMempoolTxs libraries receiptDate db txs) := by
  have general : ∀ pool, P { db with mempoolTxs := pool } →
      P (insertMempoolTxs libraries receiptDate { db with mempoolTxs := pool } txs) := by
    clear holds
    induction txs with
    | nil => exact fun pool holds => holds
    | cons tx txs ih =>
        intro pool holds
        rw [insertMempoolTxs]
        cases result : insertMempoolTx libraries receiptDate { db with mempoolTxs := pool } tx with
        | error error => exact holds
        | ok outcome =>
            obtain ⟨after, events⟩ := outcome
            have afterHolds := kept tx List.mem_cons_self pool after events holds result
            have rest := ih fun later mem => kept later (List.mem_cons_of_mem _ mem)
            obtain ⟨mempoolTx, row, -, -, rfl | rfl⟩ := insertMempoolTx_ok libraries result
            · exact rest pool afterHolds
            · exact rest (pool ++ [row]) afterHolds
  exact general db.mempoolTxs holds

/-- A property of the tables that every update and every insertion keeps is kept
by a message. -/
theorem receive_invariant {P : Db → Prop} {db : Db} {message : ServerMessage} (holds : P db)
    (block : ∀ msg, message = .newBlock msg → ∀ data, messageData libraries msg = .ok data →
      ∀ db' events, update db data = .ok (db', events) → P db')
    (mempoolTx : ∀ receiptDate rawTxs, message = .newMempoolTx receiptDate rawTxs →
      ∀ txs, decodeMempoolTxs libraries rawTxs = .ok txs → ∀ tx ∈ txs, ∀ pool after events,
        P { db with mempoolTxs := pool } →
          insertMempoolTx libraries receiptDate { db with mempoolTxs := pool } tx =
            .ok (after, events) → P after) :
    P (receive libraries db message) := by
  cases message with
  | newBlock msg =>
      change P (commit (handleClientMessage libraries) db msg)
      cases result : handleClientMessage libraries db msg with
      | error error =>
          rw [commit_of_error result]
          exact holds
      | ok outcome =>
          obtain ⟨db', events⟩ := outcome
          rw [commit_of_ok result]
          obtain ⟨data, parsed, accepted⟩ := Except.bind_eq_ok.mp result
          exact block msg rfl data parsed db' events accepted
  | newMempoolTx receiptDate rawTxs =>
      change P (handleMempoolTxsMessage libraries receiptDate db rawTxs)
      rw [handleMempoolTxsMessage]
      cases decoded : decodeMempoolTxs libraries rawTxs with
      | error error => exact holds
      | ok txs =>
          apply insertMempoolTxs_invariant libraries holds
          exact mempoolTx receiptDate rawTxs rfl txs decoded

/-- An invariant that every message keeps under a condition on it and on the
tables it meets holds after every prefix of a run that meets the conditions. -/
theorem runServer_invariant {P : Db → Prop} {Q : Db → ServerMessage → Prop}
    (empty : P Db.empty)
    (kept : ∀ db message, P db → Q db message → P (receive libraries db message))
    {messages : List ServerMessage}
    (condition : ∀ past message, past ++ [message] <+: messages →
      Q (runServer libraries past) message) :
    P (runServer libraries messages) := by
  induction messages using List.reverseRecOn with
  | nil => exact empty
  | append_singleton past message ih =>
      have step : runServer libraries (past ++ [message]) =
          receive libraries (runServer libraries past) message := by
        rw [runServer, List.foldl_append]
        rfl
      rw [step]
      apply kept
      · exact ih fun earlier next isPrefix =>
          condition earlier next (isPrefix.trans (List.prefix_append past [message]))
      · exact condition past message (List.prefix_refl _)

end StacksApi.EventStream
