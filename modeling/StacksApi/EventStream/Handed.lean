import StacksApi.Datastore.Standing
import StacksApi.EventStream.Described
import StacksApi.P2p.RoundTrip

/-!
# What a block message hands over

The entries of the update that `handleClientMessage` builds stand for the
transactions of the message one by one, whatever events the message has.  The
update names its block in every entry and is flagged canonical throughout, which
is what the store relies on.
-/

namespace StacksApi.EventStream

open StacksApi.Binary
open StacksApi.Text
open StacksApi.P2p
open StacksApi.Datastore
open StacksApi.Transition

variable {CV : Type} {libraries : Libraries CV}

/-! ## Records -/

/-- What the payload of a transaction adds to its columns. -/
inductive Extracted (addresses : AddressLibrary) (tx : Transaction CV)
    (columns dbTx : DbTxBase String) : Prop
  | tokenTransfer {recipient amount memo recipientPrincipal}
      (kind : tx.payload = .tokenTransfer recipient amount memo)
      (text : recipientText addresses recipient = .ok recipientPrincipal)
      (same : dbTx =
        { columns with
          tokenTransferRecipientAddress := some recipientPrincipal
          tokenTransferAmount := some amount
          tokenTransferMemo := some memo })
  | smartContract {name codeBody senderAddress}
      (kind : tx.payload = .smartContract name codeBody)
      (text : getTxSenderAddress addresses tx = .ok senderAddress)
      (same : dbTx =
        { columns with
          smartContractContractId := some (senderAddress ++ "." ++ name)
          smartContractSourceCode := some codeBody })
  | contractCall {address contractName functionName functionArgs rawFunctionArgs contractAddress}
      (kind : tx.payload =
        .contractCall address contractName functionName functionArgs rawFunctionArgs)
      (text : addressText addresses address = .ok contractAddress)
      (same : dbTx =
        { columns with
          contractCallContractId := some s!"{contractAddress}.{contractName}"
          contractCallFunctionName := some functionName
          contractCallFunctionArgs := rawFunctionArgs })
  | poisonMicroblock {header1 header2} (kind : tx.payload = .poisonMicroblock header1 header2)
      (same : dbTx =
        { columns with
          poisonMicroblockHeader1 := some header1
          poisonMicroblockHeader2 := some header2 })
  | coinbase {payload} (kind : tx.payload = .coinbase payload)
      (same : dbTx = { columns with coinbasePayload := some payload })

theorem extracted_of_ok {addresses : AddressLibrary} {tx : Transaction CV}
    {columns dbTx : DbTxBase String}
    (ok : extractTransactionPayload addresses tx columns = .ok dbTx) :
    Extracted addresses tx columns dbTx := by
  rw [extractTransactionPayload] at ok
  split at ok
  · next kind =>
      obtain ⟨recipient, text, same⟩ := Except.bind_eq_ok.mp ok
      exact .tokenTransfer kind text (Except.ok.inj same).symm
  · next kind =>
      obtain ⟨sender, text, same⟩ := Except.bind_eq_ok.mp ok
      exact .smartContract kind text (Except.ok.inj same).symm
  · next kind =>
      obtain ⟨address, text, same⟩ := Except.bind_eq_ok.mp ok
      exact .contractCall kind text (Except.ok.inj same).symm
  · next kind => exact .poisonMicroblock kind (Except.ok.inj ok).symm
  · next kind => exact .coinbase kind (Except.ok.inj ok).symm

/-- The columns that every type of transaction has. -/
structure SharedColumns (columns dbTx : DbTxBase String) : Prop where
  txId : dbTx.txId = columns.txId
  rawTx : dbTx.rawTx = columns.rawTx
  typeId : dbTx.typeId = columns.typeId
  status : dbTx.status = columns.status
  postConditions : dbTx.postConditions = columns.postConditions
  feeRate : dbTx.feeRate = columns.feeRate
  senderAddress : dbTx.senderAddress = columns.senderAddress
  originHashMode : dbTx.originHashMode = columns.originHashMode
  sponsored : dbTx.sponsored = columns.sponsored
  sponsorAddress : dbTx.sponsorAddress = columns.sponsorAddress

theorem extractTransactionPayload_ok {addresses : AddressLibrary} {tx : Transaction CV}
    {columns dbTx : DbTxBase String}
    (extracted : extractTransactionPayload addresses tx columns = .ok dbTx) :
    SharedColumns columns dbTx := by
  cases extracted_of_ok extracted with
  | tokenTransfer _ _ same | smartContract _ _ same | contractCall _ _ same
  | poisonMicroblock _ same | coinbase _ same =>
      rw [same]
      exact ⟨rfl, rfl, rfl, rfl, rfl, rfl, rfl, rfl, rfl, rfl⟩

/-- The record holds the fields parsed from the raw transaction. -/
structure RecordOf (libraries : Libraries CV) (msg : CoreNodeMessage)
    (coreTx : CoreNodeTxMessage) (tx : Transaction CV) (record : DbTx String) : Prop where
  read : readBufferTransaction libraries coreTx.txBuffer = .ok tx
  sender : getTxSenderAddress libraries.addresses tx = .ok record.senderAddress
  sponsor : getTxSponsorAddress libraries.addresses tx = .ok record.sponsorAddress
  columns : ∃ status, getTxDbStatus coreTx.status = .ok status ∧
    extractTransactionPayload libraries.addresses tx
      (transactionColumns coreTx.txid coreTx.txBuffer status record.senderAddress
        record.sponsorAddress tx) = .ok record.toDbTxBase
  inBlock : record =
    { toDbTxBase := record.toDbTxBase
      indexBlockHash := msg.indexBlockHash
      blockHash := msg.blockHash
      blockHeight := msg.blockHeight
      burnBlockTime := msg.burnBlockTime
      txIndex := coreTx.txIndex
      rawResult := some coreTx.rawResult
      canonical := true }

theorem RecordOf.shared {msg : CoreNodeMessage} {coreTx : CoreNodeTxMessage}
    {tx : Transaction CV} {record : DbTx String}
    (recordOf : RecordOf libraries msg coreTx tx record) :
    ∃ status, getTxDbStatus coreTx.status = .ok status ∧
      SharedColumns (transactionColumns coreTx.txid coreTx.txBuffer status record.senderAddress
        record.sponsorAddress tx) record.toDbTxBase := by
  obtain ⟨status, statusOk, extracted⟩ := recordOf.columns
  exact ⟨status, statusOk, extractTransactionPayload_ok extracted⟩

/-- The smart contract that a transaction deploys. -/
def deployed (msg : CoreNodeMessage) (coreTx : CoreNodeTxMessage) (senderAddress : String) :
    TransactionPayload CV → List (DbSmartContract String)
  | .smartContract name codeBody =>
      [{ txId := coreTx.txid
         contractId := s!"{senderAddress}.{name}"
         blockHeight := msg.blockHeight
         sourceCode := codeBody
         abi := coreTx.contractAbi
         canonical := true }]
  | _ => []

/-- The entry stands for the transaction, up to its events. -/
def EntryOf (libraries : Libraries CV) (msg : CoreNodeMessage) (coreTx : CoreNodeTxMessage)
    (entry : TxEntry) : Prop :=
  ∃ tx, RecordOf libraries msg coreTx tx entry.tx ∧ checkPayload libraries tx.payload = .ok () ∧
    entry.smartContracts = deployed msg coreTx entry.tx.senderAddress tx.payload

theorem entryOf_of_createEntry {msg : CoreNodeMessage} {coreTx : CoreNodeTxMessage}
    {parsed : CoreNodeParsedTxMessage CV} {entry : TxEntry}
    (parsedOk : parseMessageTransaction libraries msg coreTx = .ok parsed)
    (created : createEntry libraries msg.blockHeight parsed = .ok entry) :
    EntryOf libraries msg coreTx entry ∧ entry.Carries msg.indexBlockHash true := by
  obtain ⟨tx, read, parsedOk⟩ := Except.bind_eq_ok.mp parsedOk
  obtain ⟨sender, senderOk, parsedOk⟩ := Except.bind_eq_ok.mp parsedOk
  obtain ⟨sponsor, sponsorOk, parsedOk⟩ := Except.bind_eq_ok.mp parsedOk
  obtain ⟨⟨⟩, checked, same⟩ := Except.bind_eq_ok.mp parsedOk
  cases same
  obtain ⟨dbTx, dbTxOk, same⟩ := Except.bind_eq_ok.mp created
  cases same
  obtain ⟨status, statusOk, dbTxOk⟩ := Except.bind_eq_ok.mp dbTxOk
  obtain ⟨columns, extracted, same⟩ := Except.bind_eq_ok.mp dbTxOk
  cases same
  have shared := extractTransactionPayload_ok extracted
  have senderColumn : columns.senderAddress = sender := shared.senderAddress
  have sponsorColumn : columns.sponsorAddress = sponsor := shared.sponsorAddress
  constructor
  · refine ⟨tx, ?_, checked, ?_⟩
    · exact
        { read := read
          sender := senderColumn ▸ senderOk
          sponsor := sponsorColumn ▸ sponsorOk
          columns := ⟨status, statusOk, by rw [senderColumn, sponsorColumn]; exact extracted⟩
          inBlock := rfl }
    · change _ = deployed msg coreTx columns.senderAddress tx.payload
      rw [senderColumn]
      cases tx.payload <;> rfl
  · exact
      { indexBlockHash := rfl
        tx := rfl
        stxEvents := fun _ mem => nomatch mem
        ftEvents := fun _ mem => nomatch mem
        nftEvents := fun _ mem => nomatch mem
        contractLogEvents := fun _ mem => nomatch mem
        smartContracts := by
          cases tx.payload with
          | smartContract name codeBody =>
              intro contract mem
              rw [List.mem_singleton.mp mem]
          | _ => exact fun _ mem => nomatch mem }

/-! ## Events -/

theorem canonical_append {α : Type} {canonical : α → Bool} {items : List α} {item : α}
    (all : ∀ other ∈ items, canonical other = true) (last : canonical item = true) :
    ∀ other ∈ items ++ [item], canonical other = true := by
  intro other mem
  rcases List.mem_append.mp mem with old | new
  · exact all other old
  · rw [List.mem_singleton.mp new]
    exact last

/-- An event changes nothing but the list of its kind, and is canonical. -/
theorem pushEvent_ok {blockHeight : Nat} {entry entry' : TxEntry} {event : CoreNodeEvent}
    (pushed : pushEvent blockHeight entry event = .ok entry') :
    entry'.tx = entry.tx ∧ entry'.smartContracts = entry.smartContracts ∧
      ∀ hash, entry.Carries hash true → entry'.Carries hash true := by
  rw [pushEvent_eq] at pushed
  obtain ⟨dbEvent, described, rfl⟩ := Except.map_eq_ok.mp pushed
  have canonical : dbEvent.base.canonical = true := by rw [base_of_describeEvent described]; rfl
  cases dbEvent with
  | stx event =>
      exact ⟨rfl, rfl, fun hash carries =>
        { carries with stxEvents := canonical_append carries.stxEvents canonical }⟩
  | ft event =>
      exact ⟨rfl, rfl, fun hash carries =>
        { carries with ftEvents := canonical_append carries.ftEvents canonical }⟩
  | nft event =>
      exact ⟨rfl, rfl, fun hash carries =>
        { carries with nftEvents := canonical_append carries.nftEvents canonical }⟩
  | smartContractLog event =>
      exact ⟨rfl, rfl, fun hash carries =>
        { carries with contractLogEvents := canonical_append carries.contractLogEvents canonical }⟩

/-- The entry still stands for the transaction and is canonical. -/
def Handed (libraries : Libraries CV) (msg : CoreNodeMessage) (coreTx : CoreNodeTxMessage)
    (entry : TxEntry) : Prop :=
  EntryOf libraries msg coreTx entry ∧ entry.Carries msg.indexBlockHash true

theorem Handed.pushEvent {msg : CoreNodeMessage} {coreTx : CoreNodeTxMessage}
    {entry entry' : TxEntry} {event : CoreNodeEvent} (handed : Handed libraries msg coreTx entry)
    (pushed : pushEvent msg.blockHeight entry event = .ok entry') :
    Handed libraries msg coreTx entry' := by
  obtain ⟨⟨tx, recordOf, checked, contracts⟩, carries⟩ := handed
  obtain ⟨sameTx, sameContracts, kept⟩ := pushEvent_ok pushed
  refine ⟨⟨tx, ?_, checked, ?_⟩, kept msg.indexBlockHash carries⟩
  · rw [sameTx]
    exact recordOf
  · rw [sameContracts, sameTx]
    exact contracts

/-- What every event keeps of an entry and its counterpart in a list is kept of all
entries and their counterparts by the events of a message. -/
theorem forall₂_foldlM_addEvent {α : Type} {R : α → TxEntry → Prop} {blockHeight : Nat}
    (kept : ∀ source entry entry' event, R source entry →
      pushEvent blockHeight entry event = .ok entry' → R source entry')
    {events : List CoreNodeEvent} {sources : List α} {entries entries' : List TxEntry}
    (all : List.Forall₂ R sources entries)
    (added : events.foldlM (addEvent blockHeight) entries = .ok entries') :
    List.Forall₂ R sources entries' := by
  have step : ∀ {event : CoreNodeEvent} {sources : List α} {entries entries' : List TxEntry},
      List.Forall₂ R sources entries → addEvent blockHeight entries event = .ok entries' →
        List.Forall₂ R sources entries' := by
    intro event sources entries entries' all added
    induction all generalizing entries' with
    | nil => cases added
    | @cons source entry sources entries first rest ih =>
        rw [addEvent] at added
        split at added
        · obtain ⟨pushed, pushedOk, same⟩ := Except.bind_eq_ok.mp added
          cases same
          exact .cons (kept source entry pushed event first pushedOk) rest
        · obtain ⟨later, laterOk, same⟩ := Except.bind_eq_ok.mp added
          cases same
          exact .cons first (ih laterOk)
  induction events generalizing entries with
  | nil =>
      cases added
      exact all
  | cons event events ih =>
      rw [List.foldlM_cons] at added
      obtain ⟨next, nextOk, rest⟩ := Except.bind_eq_ok.mp added
      exact ih (step all nextOk) rest

/-! ## Messages -/

/-- The entries before events are added stand for the transactions. -/
theorem handed_of_mapM_createEntry {msg : CoreNodeMessage}
    {parsed : List (CoreNodeParsedTxMessage CV)} {entries : List TxEntry}
    (parsedOk : parseMessageTransactions libraries msg = .ok parsed)
    (created : parsed.mapM (createEntry libraries msg.blockHeight) = .ok entries) :
    List.Forall₂ (Handed libraries msg) msg.transactions entries :=
  forall₂_trans (mapM_eq_ok_iff.mp parsedOk) (mapM_eq_ok_iff.mp created)
    fun _ _ _ parsed created => entryOf_of_createEntry parsed created

/-- The entries of the update stand for the transactions of the message. -/
theorem messageData_ok {msg : CoreNodeMessage} {data : DataStoreUpdateData}
    (handed : messageData libraries msg = .ok data) :
    data.block = messageBlock msg ∧
      List.Forall₂ (Handed libraries msg) msg.transactions data.txs := by
  obtain ⟨parsed, parsedOk, handed⟩ := Except.bind_eq_ok.mp handed
  obtain ⟨entries, created, handed⟩ := Except.bind_eq_ok.mp handed
  obtain ⟨txs, added, same⟩ := Except.bind_eq_ok.mp handed
  cases same
  refine ⟨rfl, forall₂_foldlM_addEvent ?_ (handed_of_mapM_createEntry parsedOk created) added⟩
  exact fun _ _ _ _ handed pushed => handed.pushEvent pushed

/-- What the store asks of an update holds of those of the event server. -/
theorem messageData_carries {msg : CoreNodeMessage} {data : DataStoreUpdateData}
    (handed : messageData libraries msg = .ok data) :
    data.block.canonical = true ∧ data.Carries := by
  obtain ⟨block, entries⟩ := messageData_ok handed
  rw [block]
  refine ⟨rfl, ?_⟩
  intro entry mem
  obtain ⟨coreTx, -, -, carries⟩ := exists_left_of_forall₂ entries mem
  rw [block]
  exact carries

/-- After every run the flags and the links of the blocks stand. -/
theorem runServer_standing (messages : List ServerMessage) :
    Standing (runServer libraries messages) := by
  apply runServer_invariant (P := Standing) (Q := fun _ _ => True) libraries Standing.empty
  · rintro db message standing -
    apply receive_invariant (P := Standing) libraries standing
    · rintro msg - data handed db' events ok
      obtain ⟨-, reorged, pruned, row, accepted⟩ := update_ok ok
      obtain ⟨canonical, carries⟩ := messageData_carries handed
      exact standing.update accepted ⟨canonical, carries⟩
    · rintro receiptDate rawTxs - txs - tx - pool after events standing ok
      obtain ⟨mempoolTx, row, -, -, rfl | rfl⟩ := insertMempoolTx_ok libraries ok
      · exact standing
      · exact standing.withMempoolTxs _
  · exact fun _ _ _ => trivial

/-- Every entry stands for a transaction of the message. -/
theorem exists_entryOf {msg : CoreNodeMessage} {data : DataStoreUpdateData}
    (handed : messageData libraries msg = .ok data) {entry : TxEntry} (mem : entry ∈ data.txs) :
    ∃ coreTx ∈ msg.transactions, EntryOf libraries msg coreTx entry := by
  obtain ⟨-, entries⟩ := messageData_ok handed
  obtain ⟨coreTx, coreMem, entryOf, -⟩ := exists_left_of_forall₂ entries mem
  exact ⟨coreTx, coreMem, entryOf⟩

/-! ## Encoded transactions -/

/-- A transaction in the hexadecimal text of its encoding. -/
def CoreNodeTxMessage.Encodes (libraries : Libraries CV) (coreTx : CoreNodeTxMessage)
    (tx : Transaction CV) : Prop :=
  coreTx.rawTx = bufferToHexPrefixString (encodeTransaction libraries.clarity tx)

theorem CoreNodeTxMessage.Encodes.txBuffer {coreTx : CoreNodeTxMessage} {tx : Transaction CV}
    (encodes : coreTx.Encodes libraries tx) :
    coreTx.txBuffer = encodeTransaction libraries.clarity tx := by
  rw [CoreNodeTxMessage.txBuffer, encodes, toList_bufferToHexPrefixString]
  exact fromHex_toHex _

theorem readBufferTransaction_encode (libraries : Libraries CV)
    (inverts : libraries.clarity.RoundTrips)
    {tx : Transaction CV} (valid : tx.WellFormed) :
    readBufferTransaction libraries (encodeTransaction libraries.clarity tx) =
      .ok (tx.asRead libraries.clarity) := by
  rw [readBufferTransaction, (decodes_transaction inverts valid).run_fromBuffer]
  rfl

/-- Mempool transactions in the hexadecimal text of their bytes. -/
theorem decodeMempoolTxs_map (buffers : List Buffer) {txs : List (DecodedMempoolTx CV)}
    (each : List.Forall₂ (fun buffer tx => decodeMempoolTx libraries buffer = .ok tx) buffers txs) :
    decodeMempoolTxs libraries (buffers.map bufferToHexPrefixString) = .ok txs :=
  Except.bind_eq_ok.mpr ⟨buffers, mapM_hexToBuffer_bufferToHexPrefixString buffers,
    mapM_eq_ok_iff.mpr each⟩

end StacksApi.EventStream
