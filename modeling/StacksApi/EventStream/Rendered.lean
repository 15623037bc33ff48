import StacksApi.Datastore.Searches
import StacksApi.EventStream.EventOrder
import StacksApi.EventStream.Listed
import StacksApi.EventStream.ReadBack

/-!
# How a transaction of a message is shown

Between a transaction in a message of the node and the answer of `GET /tx/:tx_id` lie the
parsing of the raw bytes, the columns of a record and of a row, the record that is read
back, and the rendering, which reads the post-conditions and the arguments of a call once
more.  Every field of the answer is that of the transaction as `readTransaction` takes it from
the raw bytes, amounts as signed numbers, with the conditions as they are serialized.
-/

namespace StacksApi.EventStream

open StacksApi.Binary
open StacksApi.P2p
open StacksApi.Relational
open StacksApi.Datastore
open StacksApi.Controllers
open StacksApi.Routes
open StacksApi.Serializers
open StacksApi.Transition
open CanonicalEntity Reading

variable {CV Ty : Type} {libraries : Libraries CV} {abis : AbiLibrary Ty}

/-! ## The answer and the transaction -/

/-- The values of the call, each beside the parameter that it is for. -/
structure RendersArgs (clarity : ClarityLibrary CV) (abis : AbiLibrary Ty) (values : List CV)
    (params : List (ClarityAbiFunctionArg Ty)) (args : List ContractCallArg) : Prop where
  shown : args.map (fun arg => arg.value) = values.map fun value =>
    { hex := bufferToHexPrefixString (clarity.serializeCV value)
      repr := clarity.cvToString value }
  named : (params.take values.length).Forall₂
    (fun param arg => arg.name = param.name ∧ abis.getTypeString param.type = .ok arg.type) args

/-- The answer has the interface of the called contract from the store, and everything else
from the payload and the post-conditions. -/
inductive RendersDetails (libraries : Libraries CV) (abis : AbiLibrary Ty) (db : Db)
    (tx : P2p.Transaction CV) : TransactionDetails → Prop
  | tokenTransfer {recipient amount memo recipientAddress}
      (kind : tx.payload = .tokenTransfer recipient amount memo)
      (text : recipientText libraries.addresses recipient = .ok recipientAddress) :
      RendersDetails libraries abis db tx
        (.tokenTransfer recipientAddress (toString amount) (bufferToHexPrefixString memo))
  | smartContract {name codeBody senderAddress postConditions}
      (kind : tx.payload = .smartContract name codeBody)
      (text : getTxSenderAddress libraries.addresses tx = .ok senderAddress)
      (conditions : tx.postConditions.mapM
        (serializePostCondition libraries.addresses libraries.clarity) = .ok postConditions) :
      RendersDetails libraries abis db tx
        (.smartContract postConditions (senderAddress ++ "." ++ name) codeBody)
  | contractCall {address contractName functionName values rawFunctionArgs contractAddress}
      {postConditions contract functions function functionSignature functionArgs}
      (kind : tx.payload =
        .contractCall address contractName functionName values rawFunctionArgs)
      (text : addressText libraries.addresses address = .ok contractAddress)
      (conditions : tx.postConditions.mapM
        (serializePostCondition libraries.addresses libraries.clarity) = .ok postConditions)
      (called : getSmartContract db s!"{contractAddress}.{contractName}" = some contract)
      (parsed : abis.parseAbi contract.abi = .ok functions)
      (named : functions.find? (fun fn => fn.name = functionName) = some function)
      (signature : abis.abiFunctionToString function = .ok functionSignature)
      (noArgs : functionArgs = none ↔ values = [])
      (args : ∀ args, functionArgs = some args →
        RendersArgs libraries.clarity abis values function.args args) :
      RendersDetails libraries abis db tx
        (.contractCall postConditions s!"{contractAddress}.{contractName}" functionName
          functionSignature functionArgs)
  | poisonMicroblock {header1 header2} (kind : tx.payload = .poisonMicroblock header1 header2) :
      RendersDetails libraries abis db tx
        (.poisonMicroblock (bufferToHexPrefixString header1) (bufferToHexPrefixString header2))
  | coinbase {payload} (kind : tx.payload = .coinbase payload) :
      RendersDetails libraries abis db tx (.coinbase (bufferToHexPrefixString payload))

/-- The mode of post-conditions as it is shown. -/
def modeOf : TransactionPostConditionMode → PostConditionMode
  | .allow => .allow
  | .deny => .deny

/-- The fields of the answer that a signature covers are those of the transaction. -/
structure Renders (libraries : Libraries CV) (abis : AbiLibrary Ty) (db : Db)
    (tx : P2p.Transaction CV) (shown : Transaction) : Prop where
  txType : shown.txType = getTxTypeString (dbTxTypeId tx.payload.typeId)
  feeRate : shown.feeRate = toString tx.auth.originCondition.feeRate
  sender : getTxSenderAddress libraries.addresses tx = .ok shown.senderAddress
  sponsored : shown.sponsored = decide (tx.auth.typeId = .sponsored)
  sponsor : getTxSponsorAddress libraries.addresses tx = .ok shown.sponsorAddress
  postConditionMode : shown.postConditionMode = modeOf tx.postConditionMode
  details : RendersDetails libraries abis db tx shown.details

/-! ## Rendering -/

theorem rendersArgs_of_parsed {clarity : ClarityLibrary CV} {values : List CV}
    {params : List (ClarityAbiFunctionArg Ty)} {args : List ContractCallArg}
    (parsed : parseFunctionArgs clarity abis values params = .ok args) :
    RendersArgs clarity abis values params args := by
  induction values generalizing params args with
  | nil =>
      cases parsed
      exact ⟨rfl, .nil⟩
  | cons value values ih =>
      cases params with
      | nil => cases parsed
      | cons param params =>
          obtain ⟨type, typeOk, parsed⟩ := Except.bind_eq_ok.mp parsed
          obtain ⟨rest, restOk, same⟩ := Except.bind_eq_ok.mp parsed
          cases same
          obtain ⟨shown, named⟩ := ih restOk
          exact ⟨congrArg (_ :: ·) shown, .cons ⟨rfl, typeOk⟩ named⟩

theorem unwrapOptional_bind_ok {α β : Type} {val : Option α} {onNullish : String}
    {next : α → Except ApiError β} {result : β} :
    unwrapOptional val onNullish >>= next = .ok result ↔
      ∃ value, val = some value ∧ next value = .ok result := by
  rw [Except.bind_eq_ok]
  cases val with
  | none => simp [unwrapOptional]
  | some value => simp [unwrapOptional]

section Columns

variable {db : Db} {tx : P2p.Transaction CV} {dbTx : DbTxBase String}

/-- The record was made of the transaction in its raw bytes. -/
structure ColumnsOf (libraries : Libraries CV) (tx : P2p.Transaction CV)
    (dbTx : DbTxBase String) : Prop where
  read : readBufferTransaction libraries dbTx.rawTx = .ok tx
  sender : getTxSenderAddress libraries.addresses tx = .ok dbTx.senderAddress
  sponsor : getTxSponsorAddress libraries.addresses tx = .ok dbTx.sponsorAddress
  extracted : extractTransactionPayload libraries.addresses tx
    (transactionColumns dbTx.txId dbTx.rawTx dbTx.status dbTx.senderAddress dbTx.sponsorAddress
      tx) = .ok dbTx

theorem ColumnsOf.rereads (localCV : Local libraries.clarity.deserializeCV)
    (columnsOf : ColumnsOf libraries tx dbTx) : Rereads libraries.clarity tx := by
  obtain ⟨⟨tx', final⟩, read, same⟩ := Except.map_eq_ok.mp columnsOf.read
  cases same
  exact rereads_of_readTransaction localCV read

theorem mode_of_read (rereads : Rereads libraries.clarity tx)
    (same : dbTx.postConditions = tx.rawPostConditions) {byte : Nat} {final : BufferReader}
    {mode : PostConditionMode}
    (byteOk : (readUInt8 : ReadM ApiError Nat).run
      (BufferReader.fromBuffer dbTx.postConditions) = .ok (byte, final))
    (modeOk : serializePostConditionMode byte = .ok mode) :
    mode = modeOf tx.postConditionMode := by
  obtain ⟨rest, split⟩ := List.head?_eq_some_iff.mp rereads.mode
  rw [same, split] at byteOk
  cases kind : tx.postConditionMode with
  | allow =>
      rw [kind] at byteOk
      cases ((Decodes.readUInt8 (show 1 < 256 by decide)) [] rest).symm.trans byteOk
      cases modeOk
      rfl
  | deny =>
      rw [kind] at byteOk
      cases ((Decodes.readUInt8 (show 2 < 256 by decide)) [] rest).symm.trans byteOk
      cases modeOk
      rfl

/-- The details of a record are those of the payload. -/
theorem rendersDetails_of_parsed (localCV : Local libraries.clarity.deserializeCV)
    (columnsOf : ColumnsOf libraries tx dbTx) {txId : String} {details : TransactionDetails}
    (parsed : parseDetails libraries.clarity libraries.addresses abis db (dbTx.withTxId txId) =
      .ok details) :
    RendersDetails libraries abis db tx details := by
  have rereads := columnsOf.rereads localCV
  have conditionsRead : readStoredPostConditions libraries.clarity dbTx.postConditions =
      .ok tx.postConditions :=
    readStoredPostConditions_eq rereads
      (extractTransactionPayload_ok columnsOf.extracted).postConditions
  have typeId : (dbTx.withTxId txId).typeId = dbTxTypeId tx.payload.typeId :=
    (extractTransactionPayload_ok columnsOf.extracted).typeId
  rw [parseDetails.eq_def, typeId] at parsed
  cases extracted_of_ok columnsOf.extracted with
  | tokenTransfer kind text same =>
      rw [kind, same] at parsed
      cases parsed
      exact .tokenTransfer kind text
  | smartContract kind text same =>
      rw [kind] at parsed
      obtain ⟨conditions, readOk, parsed⟩ := Except.bind_eq_ok.mp parsed
      cases conditionsRead.symm.trans readOk
      obtain ⟨postConditions, rendered, parsed⟩ := Except.bind_eq_ok.mp parsed
      rw [same] at parsed
      cases parsed
      exact .smartContract kind text rendered
  | contractCall kind text same =>
      rw [kind] at parsed
      obtain ⟨noArgs, again⟩ := rereads.functionArgs _ _ _ _ _ kind
      have contractId := congrArg DbTxBase.contractCallContractId same
      have functionName := congrArg DbTxBase.contractCallFunctionName same
      have rawArgs := congrArg DbTxBase.contractCallFunctionArgs same
      dsimp only at contractId functionName rawArgs parsed
      rw [parseContractCall, DbTxBase.withTxId, contractId, functionName, rawArgs] at parsed
      obtain ⟨conditions, readOk, parsed⟩ := Except.bind_eq_ok.mp parsed
      cases conditionsRead.symm.trans readOk
      obtain ⟨_, ⟨⟩, parsed⟩ := unwrapOptional_bind_ok.mp parsed
      obtain ⟨_, ⟨⟩, parsed⟩ := unwrapOptional_bind_ok.mp parsed
      obtain ⟨postConditions, rendered, parsed⟩ := Except.bind_eq_ok.mp parsed
      obtain ⟨contract, called, parsed⟩ := unwrapOptional_bind_ok.mp parsed
      obtain ⟨functions, interface, parsed⟩ := Except.bind_eq_ok.mp parsed
      obtain ⟨function, named, parsed⟩ := unwrapOptional_bind_ok.mp parsed
      obtain ⟨signature, signatureOk, parsed⟩ := Except.bind_eq_ok.mp parsed
      dsimp only at parsed
      split at parsed
      · cases parsed
        refine .contractCall kind text rendered called interface named signatureOk
          (iff_of_true rfl (noArgs.mp rfl)) ?_
        rintro _ ⟨⟩
      · -- the arguments are read again from the column
        obtain ⟨⟨values, final⟩, valuesOk, parsed⟩ := Except.bind_eq_ok.mp parsed
        cases (again _ rfl).symm.trans valuesOk
        obtain ⟨args, argsOk, parsed⟩ := Except.bind_eq_ok.mp parsed
        cases parsed
        refine .contractCall kind text rendered called interface named signatureOk
          (iff_of_false ?_ fun none => ?_) ?_
        · rintro ⟨⟩
        · cases noArgs.mpr none
        · rintro _ ⟨⟩
          exact rendersArgs_of_parsed argsOk
  | poisonMicroblock kind same =>
      rw [kind, same] at parsed
      cases parsed
      exact .poisonMicroblock kind
  | coinbase kind same =>
      rw [kind, same] at parsed
      cases parsed
      exact .coinbase kind

/-- What is shown of a record that was read back. -/
structure RendersRecord (libraries : Libraries CV) (abis : AbiLibrary Ty) (db : Db)
    (tx : P2p.Transaction CV) (stored : StoredTx) (shown : Transaction) : Prop where
  renders : Renders libraries abis db tx shown
  txId : shown.txId = stored.toDbTxBase.txId
  txStatus : shown.txStatus = getTxStatusString stored.toDbTxBase.status
  inclusion : parseInclusion libraries.clarity stored = .ok shown.inclusion
  receipt : parseReceipt stored = .ok shown.receipt
  events : parseEvents libraries.clarity stored.toDbTxBase.typeId stored.events = .ok shown.events

theorem rendersRecord_of_parsed (localCV : Local libraries.clarity.deserializeCV)
    (columnsOf : ColumnsOf libraries tx dbTx) {stored : StoredTx} {txId : String}
    (same : stored.toDbTxBase = dbTx.withTxId txId) {shown : Transaction}
    (parsed : parseStoredTx libraries.clarity libraries.addresses abis db stored = .ok shown) :
    RendersRecord libraries abis db tx stored shown := by
  have shared := extractTransactionPayload_ok columnsOf.extracted
  obtain ⟨⟨modeByte, final⟩, byteOk, parsed⟩ := Except.bind_eq_ok.mp parsed
  obtain ⟨mode, modeOk, parsed⟩ := Except.bind_eq_ok.mp parsed
  obtain ⟨inclusion, inclusionOk, parsed⟩ := Except.bind_eq_ok.mp parsed
  obtain ⟨receipt, receiptOk, parsed⟩ := Except.bind_eq_ok.mp parsed
  obtain ⟨details, detailsOk, parsed⟩ := Except.bind_eq_ok.mp parsed
  obtain ⟨events, eventsOk, parsed⟩ := Except.bind_eq_ok.mp parsed
  cases parsed
  refine ⟨?_, rfl, rfl, inclusionOk, receiptOk, eventsOk⟩
  rw [same] at byteOk detailsOk ⊢
  exact
    { txType := congrArg getTxTypeString shared.typeId
      feeRate := congrArg toString shared.feeRate
      sender := columnsOf.sender
      sponsored := shared.sponsored
      sponsor := columnsOf.sponsor
      postConditionMode := mode_of_read (columnsOf.rereads localCV) shared.postConditions byteOk
        modeOk
      details := rendersDetails_of_parsed localCV columnsOf detailsOk }

end Columns

/-! ## Where a row comes from -/

/-- The ids of the transactions of a block differ as bytes. -/
def DistinctTxs (messages : List ServerMessage) : Prop :=
  ∀ msg, .newBlock msg ∈ messages →
    (msg.transactions.map fun coreTx => hexToBuffer coreTx.txid).Nodup

/-- The events of the message that name the transaction, in their order. -/
def ownEvents (msg : CoreNodeMessage) (coreTx : CoreNodeTxMessage) : List CoreNodeEvent :=
  msg.events.filter fun event => event.txid = coreTx.txid

/-- The columns that the events of a transaction share, on the canonical chain. -/
def ownBase (msg : CoreNodeMessage) (coreTx : CoreNodeTxMessage) (txId : Buffer)
    (position : Nat) : DbEventBase String where
  eventIndex := position
  txId := bufferToHexPrefixString txId
  txIndex := coreTx.txIndex
  blockHeight := msg.blockHeight
  canonical := true

section Stored

variable {db db' reorged pruned : Db} {data : DataStoreUpdateData} {blockRow : DbBlock Buffer}
variable {msg : CoreNodeMessage}

/-- The events that are read of a transaction of a new block are those of its message. -/
theorem getTxEvents_own (accepted : Accepted db data reorged pruned blockRow db')
    (attached : Attached db) (handed : messageData libraries msg = .ok data)
    (isNew : NewBlock db data.block)
    (distinct : (msg.transactions.map fun coreTx => hexToBuffer coreTx.txid).Nodup)
    {coreTx : CoreNodeTxMessage} (mem : coreTx ∈ msg.transactions) :
    ∃ txId results, hexToBuffer coreTx.txid = .ok txId ∧
      describeEvents (ownBase msg coreTx txId) (ownEvents msg coreTx) = .ok results ∧
      ∀ scanned, Scan db' scanned →
        ∃ read, getTxEvents scanned coreTx.txid msg.indexBlockHash = .ok read ∧
          read.map raiseEvent = results := by
  obtain ⟨canonical, carries⟩ := messageData_carries handed
  have block := (messageData_ok handed).1
  have distinctTexts : (msg.transactions.map fun coreTx => coreTx.txid).Nodup := by
    apply List.Nodup.of_map hexToBuffer
    rw [List.map_map]
    exact distinct
  have numbered := numbered_settled db handed
  have collected := (collected_messageData distinctTexts handed).settled db
  obtain ⟨entry, entryMem, txIdText, txIndex⟩ := exists_left_of_forall₂ numbered.flip mem
  have distinctIds : ((data.settled db).txs.map fun entry => hexToBuffer entry.tx.txId).Nodup := by
    have texts := congrArg (List.map hexToBuffer) (map_txId_of_numbered numbered)
    rw [List.map_map, List.map_map] at texts
    exact texts ▸ distinct
  obtain ⟨txId, txIdOk, read⟩ := accepted.getTxEvents_entry attached canonical carries isNew
    distinctIds (fun entry mem => (collected entry mem).owns) entryMem
  obtain ⟨described, computed, perm⟩ := collected entry entryMem
  have increasing := describeEvents_increasing (fun _ => rfl) (describeEvents_mapBase
    (fun base => base.withTxId (bufferToHexPrefixString txId)) computed)
  have own : describeEvents (ownBase msg coreTx txId) (ownEvents msg coreTx) =
      .ok (described.map (DbEvent.mapBase fun base =>
        { base.withTxId (bufferToHexPrefixString txId) with canonical := true })) := by
    have sameBase : ownBase msg coreTx txId = fun position =>
        { (positionBase msg.blockHeight (decide (Heightens db data)) entry position).withTxId
            (bufferToHexPrefixString txId) with canonical := true } := by
      funext position
      rw [ownBase, ← txIndex]
      rfl
    rw [sameBase, ownEvents, ← txIdText]
    exact describeEvents_mapBase
      (fun base => { base.withTxId (bufferToHexPrefixString txId) with canonical := true }) computed
  refine ⟨txId, _, txIdText ▸ txIdOk, own, fun scanned scan => ?_⟩
  obtain ⟨rows, rowsPerm, ok⟩ := read scanned scan
  rw [txIdText, block, messageBlock] at ok
  refine ⟨_, ok, ?_⟩
  rw [insertionSort_eq_of_perm (rowsPerm.trans (perm.map _)) increasing, List.map_map]
  refine List.map_congr_left fun event _ => ?_
  cases event <;> rfl

end Stored

section Origin

variable {messages : List ServerMessage}

/-- The row is that of a transaction of a block message, up to its flag, and the events of the
message that name the transaction are those that are read for it. -/
structure MinedBy (moment : Moment (serverCalls libraries messages)) (row : DbTx Buffer)
    (msg : CoreNodeMessage) (coreTx : CoreNodeTxMessage) (tx : P2p.Transaction CV) : Prop where
  sent : .newBlock msg ∈ messages
  listed : coreTx ∈ msg.transactions
  record : ∃ record, RecordOf libraries msg coreTx tx record ∧
    DecodedTx record (withCanonical true row)
  events : ∃ results,
    describeEvents (ownBase msg coreTx row.txId) (ownEvents msg coreTx) = .ok results ∧
      ∀ seen txId indexBlockHash read, moment.Sees seen → hexToBuffer txId = .ok row.txId →
        hexToBuffer indexBlockHash = .ok row.indexBlockHash →
        getTxEvents seen txId indexBlockHash = .ok read → read.map raiseEvent = results

/-- Whatever has been committed since, a row and its events are those of the message that
brought the block. -/
theorem exists_minedBy (regular : RegularMessages messages) (distinct : DistinctTxs messages)
    (moment : Moment (serverCalls libraries messages)) {row : DbTx Buffer}
    (mem : row ∈ moment.db.txs) :
    ∃ msg coreTx tx, MinedBy moment row msg coreTx tx := by
  have regularCalls : RegularCalls (serverCalls libraries messages) := (runServer_refines regular).1
  obtain ⟨flag, invariant, -⟩ := runStore_invariant (moment.regular regularCalls)
  obtain ⟨earlier, data, isPrefix, ⟨announced, ok⟩, fresh, b, stored, hash⟩ :=
    exists_storing (invariant.rows.attached .txs row mem)
  let after : Moment (serverCalls libraries messages) :=
    ⟨earlier ++ [.update data], isPrefix.trans moment.isPrefix⟩
  have order : after ≤ moment := isPrefix
  obtain ⟨-, reorged, pruned, block, accepted⟩ := update_ok ok
  have dataMem : data ∈ updatesOf (serverCalls libraries messages) :=
    after.updatesOf_subset (mem_updatesOf_last earlier data)
  obtain ⟨msg, sent, handed⟩ := exists_message_of_mem_updatesOf dataMem
  obtain ⟨canonical, carries⟩ := messageData_carries handed
  have regularAfter := after.regular regularCalls
  obtain ⟨flagBefore, invariantBefore, -⟩ :=
    runStore_invariant (regularAfter.of_prefix (List.prefix_append _ _))
  have attached : Attached (runStore earlier) := invariantBefore.rows.attached
  -- the row was there when the block had been stored
  obtain ⟨original, originalMem, same⟩ : ∃ original : DbTx Buffer,
      original ∈ rowsOfBlock b.hash after.db .txs ∧
        withCanonical true original = withCanonical true row :=
    exists_of_raised_eq (Moment.rowsOfBlock regularCalls order stored .txs)
      (List.mem_filter.mpr ⟨mem, decide_eq_true hash.symm⟩)
  obtain ⟨originalMem, originalHash⟩ := List.mem_filter.mp originalMem
  have originalHash : original.indexBlockHash = b.hash := of_decide_eq_true originalHash
  have notBefore : ∀ old ∈ (runStore earlier).txs, old.indexBlockHash ≠ b.hash := by
    intro old oldMem sameHash
    obtain ⟨other, otherMem, otherHash⟩ := attached .txs old oldMem
    exact fresh other otherMem (otherHash.trans (sameHash.trans hash))
  rcases accepted.tx_decoded originalMem with ⟨old, oldMem, sameOld⟩ | ⟨entry, entryMem, decoded⟩
  · have sameHash : old.indexBlockHash = original.indexBlockHash :=
      congrArg (fun tx => tx.indexBlockHash) sameOld
    exact absurd (sameHash.trans originalHash) (notBefore old oldMem)
  obtain ⟨coreTx, listed, tx, recordOf, -, -⟩ := exists_entryOf handed entryMem
  have raisedRecord : (withCanonical true entry.tx : DbTx String) = entry.tx := by
    rw [recordOf.inBlock]
    rfl
  rw [same, raisedRecord] at decoded
  have txIdOk : hexToBuffer coreTx.txid = .ok row.txId := by
    obtain ⟨status, -, shared⟩ := recordOf.shared
    have sameText : entry.tx.txId = coreTx.txid := shared.txId
    rw [← sameText]
    exact decoded.txId
  have blockHash : hexToBuffer msg.indexBlockHash = .ok b.hash := by
    have sameText : entry.tx.indexBlockHash = msg.indexBlockHash :=
      congrArg DbTx.indexBlockHash recordOf.inBlock
    rw [← sameText, hash]
    exact decoded.indexBlockHash
  have isNew : NewBlock (runStore earlier) data.block := by
    intro old oldMem sameHash
    rw [(messageData_ok handed).1] at sameHash
    have sameBlock := Except.ok.inj (blockHash.symm.trans sameHash)
    exact fresh old.link (List.mem_map_of_mem oldMem) (sameBlock.symm.trans hash)
  obtain ⟨txId, results, decodedId, described, read⟩ :=
    getTxEvents_own accepted attached handed isNew (distinct msg sent) listed
  cases decodedId.symm.trans txIdOk
  refine ⟨msg, coreTx, tx, sent, listed, ⟨entry.tx, recordOf, decoded⟩, results, described, ?_⟩
  intro seen txId indexBlockHash events sight txIdOk' hashOk readOk
  have hashOk : hexToBuffer indexBlockHash = .ok b.hash :=
    hashOk.trans (congrArg Except.ok hash.symm)
  -- a later query reads of the block what was read when it had been stored
  have alone : Ends Moment.Sees moment (Stepwise.getTxEvents txId indexBlockHash) moment
      (.ok events) := by
    rw [← readOk, ← Stepwise.alone_getTxEvents]
    exact ends_alone sight _
  obtain ⟨seen', sight', -, events', eventsOk, sameEvents⟩ :=
    ends_getTxEvents regularCalls order after.sees_self stored txIdOk' hashOk alone
  obtain ⟨own, ownOk, ownEvents⟩ := read seen' sight'
  rw [getTxEvents_eq txIdOk' hashOk] at eventsOk
  rw [getTxEvents_eq txIdOk blockHash] at ownOk
  cases eventsOk.symm.trans ownOk
  rw [← sameEvents, ownEvents]

theorem exists_pendingBy (moment : Moment (serverCalls libraries messages))
    {row : DbMempoolTx Buffer} (mem : row ∈ moment.db.mempoolTxs) :
    ∃ receiptDate rawTxs, .newMempoolTx receiptDate rawTxs ∈ messages ∧
      ∃ rawTx ∈ rawTxs, ∃ buffer decoded record, hexToBuffer rawTx = .ok buffer ∧
        decodeMempoolTx libraries buffer = .ok decoded ∧
        createDbMempoolTxFromCoreMsg libraries.addresses decoded receiptDate = .ok record ∧
        DecodedMempool record row := by
  obtain ⟨record, delivered, decoded⟩ := (runStore_delivered moment.past).pending row mem
  obtain ⟨call, callMem, isInsertion⟩ := List.mem_filterMap.mp delivered
  cases call with
  | update data => cases isInsertion
  | updateMempoolTx mempoolTx =>
      cases isInsertion
      obtain ⟨receiptDate, rawTxs, sent, rawTx, listed, buffer, tx, bufferOk, read, created⟩ :=
        exists_decoded_of_mem_serverCalls (moment.isPrefix.subset callMem)
      exact ⟨receiptDate, rawTxs, sent, rawTx, listed, buffer, tx, record, bufferOk, read, created,
        decoded⟩

theorem RecordOf.columnsOf {msg : CoreNodeMessage} {coreTx : CoreNodeTxMessage}
    {tx : P2p.Transaction CV} {record : DbTx String}
    (recordOf : RecordOf libraries msg coreTx tx record) :
    ColumnsOf libraries tx record.toDbTxBase := by
  obtain ⟨status, -, extracted⟩ := recordOf.columns
  have shared := extractTransactionPayload_ok extracted
  have txId : record.txId = coreTx.txid := shared.txId
  have rawTx : record.rawTx = coreTx.txBuffer := shared.rawTx
  have sameStatus : record.status = status := shared.status
  exact
    { read := rawTx ▸ recordOf.read
      sender := recordOf.sender
      sponsor := recordOf.sponsor
      extracted := by rw [txId, rawTx, sameStatus]; exact extracted }

theorem columnsOf_of_decoded {buffer : Buffer} {decoded : DecodedMempoolTx CV} {receiptDate : Int}
    {record : DbMempoolTx String} (read : decodeMempoolTx libraries buffer = .ok decoded)
    (created : createDbMempoolTxFromCoreMsg libraries.addresses decoded receiptDate = .ok record) :
    ColumnsOf libraries decoded.txData record.toDbTxBase ∧ record.rawTx = buffer ∧
      record.txId = bufferToHexPrefixString (libraries.digestSha512_256 buffer) ∧
      record.status = .pending ∧ record.receiptTime = receiptDate := by
  obtain ⟨tx, readOk, read⟩ := Except.bind_eq_ok.mp read
  obtain ⟨sender, senderOk, read⟩ := Except.bind_eq_ok.mp read
  obtain ⟨sponsor, sponsorOk, read⟩ := Except.bind_eq_ok.mp read
  cases read
  obtain ⟨columns, extracted, same⟩ := Except.bind_eq_ok.mp created
  cases same
  have shared := extractTransactionPayload_ok extracted
  have txId : columns.txId = bufferToHexPrefixString (libraries.digestSha512_256 buffer) :=
    shared.txId
  have rawTx : columns.rawTx = buffer := shared.rawTx
  have status : columns.status = .pending := shared.status
  have senderAddress : columns.senderAddress = sender := shared.senderAddress
  have sponsorAddress : columns.sponsorAddress = sponsor := shared.sponsorAddress
  refine ⟨?_, rawTx, txId, status, rfl⟩
  exact
    { read := rawTx ▸ readOk
      sender := senderAddress ▸ senderOk
      sponsor := sponsorAddress ▸ sponsorOk
      extracted := by
        rw [txId, rawTx, status, senderAddress, sponsorAddress]
        exact extracted }

end Origin

/-! ## What a message carries -/

/-- The block fields of the answer are those of the message. -/
structure RendersInclusion (clarity : ClarityLibrary CV) (msg : CoreNodeMessage)
    (coreTx : CoreNodeTxMessage) (inclusion : Inclusion) : Prop where
  blockHash : ∃ hash, hexToBuffer msg.blockHash = .ok hash ∧
    inclusion.blockHash = bufferToHexPrefixString hash
  blockHeight : inclusion.blockHeight = msg.blockHeight
  burnBlockTime : inclusion.burnBlockTime = msg.burnBlockTime
  burnBlockTimeIso : unixEpochToIso msg.burnBlockTime = .ok inclusion.burnBlockTimeIso
  txIndex : inclusion.txIndex = coreTx.txIndex
  txResult : coreTx.rawResult = "" ∧ inclusion.txResult = none ∨
    ∃ buffer result, hexToBuffer coreTx.rawResult = .ok buffer ∧
      clarityRepr clarity (bufferToHexPrefixString buffer) buffer = .ok result ∧
      inclusion.txResult = some result

/-- The answer is about the transaction of a message, in a block or pending. -/
inductive Carried (libraries : Libraries CV) (messages : List ServerMessage)
    (tx : P2p.Transaction CV) (shown : Transaction) : Prop
  | mined {msg coreTx txId inclusion events} (sent : .newBlock msg ∈ messages)
      (listed : coreTx ∈ msg.transactions)
      (read : readBufferTransaction libraries coreTx.txBuffer = .ok tx)
      (decoded : hexToBuffer coreTx.txid = .ok txId)
      (named : shown.txId = bufferToHexPrefixString txId)
      (txStatus : shown.txStatus = coreTx.status)
      (included : shown.inclusion = some inclusion)
      (inclusion : RendersInclusion libraries.clarity msg coreTx inclusion)
      (receipt : shown.receipt = none)
      (described : describeEvents (ownBase msg coreTx txId) (ownEvents msg coreTx) = .ok events)
      (events : parseEvents libraries.clarity (dbTxTypeId tx.payload.typeId) events =
        .ok shown.events)
  | pending {receiptDate rawTxs rawTx buffer} (sent : .newMempoolTx receiptDate rawTxs ∈ messages)
      (listed : rawTx ∈ rawTxs) (decoded : hexToBuffer rawTx = .ok buffer)
      (read : readBufferTransaction libraries buffer = .ok tx)
      (named : shown.txId = bufferToHexPrefixString (libraries.digestSha512_256 buffer))
      (txStatus : shown.txStatus = "pending") (included : shown.inclusion = none)
      (receipt : receiptDate = 0 ∧ shown.receipt = none ∨
        ∃ iso, unixEpochToIso receiptDate = .ok iso ∧ shown.receipt = some (receiptDate, iso))
      (events : parseEvents libraries.clarity (dbTxTypeId tx.payload.typeId) [] = .ok shown.events)

theorem getTxStatusString_of_getTxDbStatus {text : String} {status : DbTxStatus}
    (ok : getTxDbStatus text = .ok status) :
    getTxStatusString status = text ∧ status ≠ .pending := by
  rw [getTxDbStatus] at ok
  split at ok
  · next same =>
      cases ok
      exact ⟨same.symm, by rintro ⟨⟩⟩
  · split at ok
    · next same =>
        cases ok
        exact ⟨same.symm, by rintro ⟨⟩⟩
    · split at ok
      · next same =>
          cases ok
          exact ⟨same.symm, by rintro ⟨⟩⟩
      · cases ok

section Shown

theorem rawResult_of_none {rawResult : String}
    (stored : rawResultColumn (some rawResult) = .ok none) : rawResult = "" := by
  by_cases empty : rawResult = ""
  · exact empty
  · rw [rawResultColumn.eq_3 rawResult empty] at stored
    obtain ⟨buffer, -, same⟩ := Except.map_eq_ok.mp stored
    cases same

theorem rawResult_of_some {rawResult : String} {buffer : Buffer}
    (stored : rawResultColumn (some rawResult) = .ok (some buffer)) :
    hexToBuffer rawResult = .ok buffer := by
  by_cases empty : rawResult = ""
  · rw [empty] at stored
    cases stored
  · rw [rawResultColumn.eq_3 rawResult empty] at stored
    obtain ⟨_, decoded, same⟩ := Except.map_eq_ok.mp stored
    cases same
    exact decoded

variable {messages : List ServerMessage} {tx : P2p.Transaction CV}

theorem rendersInclusion_of_parsed {msg : CoreNodeMessage} {coreTx : CoreNodeTxMessage}
    {record : DbTx String} {row : DbTx Buffer} (recordOf : RecordOf libraries msg coreTx tx record)
    (decoded : DecodedTx record (withCanonical true row)) {stored : DbTx String}
    (parsed : parseTxQueryResult row = .ok stored) (notPending : stored.status ≠ .pending)
    {events : List DbEvent} {shown : Option Inclusion}
    (shownOk : parseInclusion libraries.clarity (.mined stored events) = .ok shown) :
    ∃ inclusion, shown = some inclusion ∧
      RendersInclusion libraries.clarity msg coreTx inclusion := by
  obtain ⟨columns, -, same⟩ := Except.bind_eq_ok.mp parsed
  cases same
  rw [parseInclusion, if_neg notPending] at shownOk
  obtain ⟨iso, isoOk, shownOk⟩ := Except.bind_eq_ok.mp shownOk
  have kept := decoded.columns
  rw [recordOf.inBlock] at kept
  have blockHeight : row.blockHeight = msg.blockHeight := congrArg DbTx.blockHeight kept
  have burnBlockTime : row.burnBlockTime = msg.burnBlockTime := congrArg DbTx.burnBlockTime kept
  have txIndex : row.txIndex = coreTx.txIndex := congrArg DbTx.txIndex kept
  have blockHash : hexToBuffer msg.blockHash = .ok row.blockHash := by
    have sameText : record.blockHash = msg.blockHash := congrArg DbTx.blockHash recordOf.inBlock
    rw [← sameText]
    exact decoded.blockHash
  have result : rawResultColumn (some coreTx.rawResult) = .ok row.rawResult := by
    have sameText : record.rawResult = some coreTx.rawResult :=
      congrArg DbTx.rawResult recordOf.inBlock
    rw [← sameText]
    exact decoded.rawResult
  have inMessage : ∃ hash, hexToBuffer msg.blockHash = .ok hash ∧
      bufferToHexPrefixString row.blockHash = bufferToHexPrefixString hash :=
    ⟨row.blockHash, blockHash, rfl⟩
  cases stored : row.rawResult with
  | none =>
      rw [stored] at result shownOk
      cases shownOk
      exact ⟨_, rfl, inMessage, blockHeight, burnBlockTime, burnBlockTime ▸ isoOk, txIndex,
        Or.inl ⟨rawResult_of_none result, rfl⟩⟩
  | some buffer =>
      rw [stored] at result shownOk
      dsimp only [Option.map_some, Option.getD_some] at shownOk
      split at shownOk
      · next absent => cases absent
      · next empty =>
          have digits := congrArg String.toList (Option.some.inj empty)
          rw [toList_bufferToHexPrefixString] at digits
          cases digits
      · next rawResult _ same =>
          cases same
          obtain ⟨_, again, shownOk⟩ := Except.bind_eq_ok.mp shownOk
          cases (hexToBuffer_bufferToHexPrefixString buffer).symm.trans again
          obtain ⟨value, valueOk, shownOk⟩ := Except.bind_eq_ok.mp shownOk
          cases shownOk
          exact ⟨_, rfl, inMessage, blockHeight, burnBlockTime, burnBlockTime ▸ isoOk, txIndex,
            Or.inr ⟨buffer, value, rawResult_of_some result, valueOk, rfl⟩⟩

/-- The record that is read back of a row. -/
theorem stored_of_row {record : DbTx String} {row : DbTx Buffer}
    (nonempty : NonemptyTexts libraries.addresses)
    (columnsOf : ColumnsOf libraries tx record.toDbTxBase)
    (decoded : DecodedTx record (withCanonical true row)) {stored : DbTx String}
    (parsed : parseTxQueryResult row = .ok stored) :
    stored.toDbTxBase = record.toDbTxBase.withTxId (bufferToHexPrefixString row.txId) ∧
      stored.indexBlockHash = bufferToHexPrefixString row.indexBlockHash := by
  have base : row.toDbTxBase = record.toDbTxBase.withTxId row.txId :=
    congrArg DbTx.toDbTxBase decoded.columns
  have own := ownColumns_of_extracted columnsOf.extracted (nonempty.sponsor columnsOf.sponsor)
    row.txId
  obtain ⟨columns, columnsOk, same⟩ := Except.bind_eq_ok.mp parsed
  cases same
  rw [base] at columnsOk
  exact ⟨Except.ok.inj (columnsOk.symm.trans own), rfl⟩

/-- What is shown of a row in a block is what the message about the block carries. -/
theorem rendered_of_mined (nonempty : NonemptyTexts libraries.addresses)
    (localCV : Local libraries.clarity.deserializeCV)
    {moment : Moment (serverCalls libraries messages)} {row : DbTx Buffer} {msg : CoreNodeMessage}
    {coreTx : CoreNodeTxMessage} (minedBy : MinedBy moment row msg coreTx tx)
    {stored : DbTx String} (parsed : parseTxQueryResult row = .ok stored) {seen db : Db}
    (sight : moment.Sees seen) {txId : String} (txIdOk : hexToBuffer txId = .ok row.txId)
    {events : List DbEvent} (eventsOk : getTxEvents seen txId stored.indexBlockHash = .ok events)
    {shown : Transaction} (shownOk : parseStoredTx libraries.clarity libraries.addresses abis db
      (.mined stored events) = .ok shown) :
    Renders libraries abis db tx shown ∧ Carried libraries messages tx shown := by
  obtain ⟨sent, listed, ⟨record, recordOf, decoded⟩, results, described, own⟩ := minedBy
  have columnsOf := recordOf.columnsOf
  obtain ⟨base, hash⟩ := stored_of_row nonempty columnsOf decoded parsed
  have sameColumns : (StoredTx.mined stored events).toDbTxBase =
      record.toDbTxBase.withTxId (bufferToHexPrefixString row.txId) := base
  have rendered := rendersRecord_of_parsed localCV columnsOf sameColumns shownOk
  obtain ⟨status, statusOk, shared⟩ := recordOf.shared
  obtain ⟨statusText, notPending⟩ := getTxStatusString_of_getTxDbStatus statusOk
  have storedStatus : stored.status = status :=
    (congrArg DbTxBase.status base).trans shared.status
  obtain ⟨inclusion, included, inclusionOk⟩ := rendersInclusion_of_parsed recordOf decoded parsed
    (storedStatus ▸ notPending) rendered.inclusion
  have coreId : hexToBuffer coreTx.txid = .ok row.txId := by
    have sameText : record.txId = coreTx.txid := shared.txId
    rw [← sameText]
    exact decoded.txId
  have typeId : stored.typeId = dbTxTypeId tx.payload.typeId :=
    (congrArg DbTxBase.typeId base).trans shared.typeId
  have sameEvents : results.map raiseEvent = events.map raiseEvent := by
    rw [← own seen txId stored.indexBlockHash events sight txIdOk
      (hash ▸ hexToBuffer_bufferToHexPrefixString row.indexBlockHash) eventsOk, List.map_map]
    refine List.map_congr_left fun event _ => ?_
    cases event <;> rfl
  refine ⟨rendered.renders, .mined sent listed recordOf.read coreId ?_ ?_ included inclusionOk ?_
    described ?_⟩
  · exact rendered.txId.trans (congrArg DbTxBase.txId base)
  · rw [rendered.txStatus, ← statusText]
    exact congrArg getTxStatusString storedStatus
  · exact (Except.ok.inj rendered.receipt).symm
  · rw [← typeId, parseEvents_congr sameEvents]
    exact rendered.events

/-- What is shown of a pending row is what the message about the transaction carries. -/
theorem rendered_of_pending (nonempty : NonemptyTexts libraries.addresses)
    (localCV : Local libraries.clarity.deserializeCV)
    {moment : Moment (serverCalls libraries messages)} {row : DbMempoolTx Buffer}
    (mem : row ∈ moment.db.mempoolTxs) {stored : DbMempoolTx String}
    (parsed : parseMempoolTxQueryResult row = .ok stored) {db : Db} {shown : Transaction}
    (shownOk : parseStoredTx libraries.clarity libraries.addresses abis db (.mempool stored) =
      .ok shown) :
    ∃ tx, Renders libraries abis db tx shown ∧ Carried libraries messages tx shown := by
  obtain ⟨receiptDate, rawTxs, sent, rawTx, listed, buffer, raw, record, bufferOk, read, created,
    decoded⟩ := exists_pendingBy moment mem
  obtain ⟨columnsOf, rawColumn, txId, status, receipt⟩ := columnsOf_of_decoded read created
  have own := ownColumns_of_extracted columnsOf.extracted (nonempty.sponsor columnsOf.sponsor)
    row.txId
  obtain ⟨columns, columnsOk, same⟩ := Except.bind_eq_ok.mp parsed
  cases same
  rw [decoded.columns] at columnsOk
  cases columnsOk.symm.trans own
  have rendered := rendersRecord_of_parsed localCV columnsOf rfl shownOk
  have shared := extractTransactionPayload_ok columnsOf.extracted
  have time : row.receiptTime = receiptDate := by
    rw [decoded.columns]
    exact receipt
  refine ⟨raw.txData, rendered.renders, .pending sent listed bufferOk (rawColumn ▸ columnsOf.read)
    ?_ ?_ ?_ ?_ ?_⟩
  · have digest := decoded.txId
    rw [txId, hexToBuffer_bufferToHexPrefixString] at digest
    rw [Except.ok.inj digest]
    exact rendered.txId
  · exact rendered.txStatus.trans (congrArg getTxStatusString status)
  · have included := rendered.inclusion
    rw [parseInclusion] at included
    split at included
    · exact (Except.ok.inj included).symm
    · next other => exact absurd status other
  · have received := rendered.receipt
    rw [parseReceipt] at received
    dsimp only at received
    rw [time] at received
    split at received
    · next zero => exact Or.inl ⟨zero, (Except.ok.inj received).symm⟩
    · obtain ⟨iso, isoOk, same⟩ := Except.bind_eq_ok.mp received
      exact Or.inr ⟨iso, isoOk, (Except.ok.inj same).symm⟩
  · have typeId : record.typeId = dbTxTypeId raw.txData.payload.typeId := shared.typeId
    rw [← typeId]
    exact rendered.events

/-- Whatever is committed before and during the request, the answer tells of a transaction that
a message carried: all that was signed is shown as `readTransaction` and
`serializePostCondition` take it from the raw bytes, its block, its status and its events as they
are in the message about the block, and only the interface of a called contract is that of the
store. -/
theorem getTransaction_renders (nonempty : NonemptyTexts libraries.addresses)
    (localCV : Local libraries.clarity.deserializeCV) (regular : RegularMessages messages)
    (distinct : DistinctTxs messages) {start last : Moment (serverCalls libraries messages)}
    {txId : String} {shown : Transaction}
    (ends : Ends Moment.Sees start (getTransaction libraries.clarity libraries.addresses abis txId)
      last (.ok (.ok shown))) :
    ∃ tx seen, last.Sees seen ∧ Renders libraries abis seen tx shown ∧
      Carried libraries messages tx shown ∧
      ∃ buffer, hexToBuffer txId = .ok buffer ∧ shown.txId = bufferToHexPrefixString buffer := by
  have found := getTransaction_ok ends
  have named := txId_of_getTxFromDataStore found
  obtain ⟨answered, seen, seen', stored, -, -, sight, sight', shownOk, ⟨pending, rfl, foundOk⟩ |
    ⟨mined, events, rfl, foundOk, eventsOk⟩⟩ :=
      getTxFromDataStore_snapshot (runServer_refines regular).1 found
  · obtain ⟨row, mem, -, parsed⟩ := getMempoolTx_parsed foundOk
    obtain ⟨tx, renders, carried⟩ := rendered_of_pending nonempty localCV
      (sight.mempoolTxs.symm.subset mem) parsed shownOk
    exact ⟨tx, seen', sight', renders, carried, named⟩
  · obtain ⟨row, mem, txIdOk, parsed⟩ := getTx_parsed foundOk
    obtain ⟨msg, coreTx, tx, minedBy⟩ :=
      exists_minedBy regular distinct answered ((sight.rows .txs).symm.subset mem)
    obtain ⟨renders, carried⟩ := rendered_of_mined nonempty localCV minedBy parsed sight txIdOk
      eventsOk shownOk
    exact ⟨tx, seen', sight', renders, carried, named⟩

end Shown

/-- The transfer in its block, as the interface shows it. -/
def sampleMined : Transaction :=
  { sampleReported with
    txStatus := "success"
    inclusion := some {
      blockHash := "0x11"
      blockHeight := 1
      burnBlockTime := 1594647996
      burnBlockTimeIso := "2020-07-13T13:46:36.000Z"
      canonical := true
      txIndex := 0
      txResult := some { hex := "0x03", repr := "true" } }
    receipt := none }

theorem getTransaction_renders_sampleBlock :
    (getTransaction ClarityLibrary.booleans AddressLibrary.zeroHash AbiLibrary.null
        (bufferToHexPrefixString sampleTxId)).alone
          { Db.empty with blocks := [sampleBlockRow], txs := [sampleTxRow] } =
        .ok (.ok sampleMined) ∧
      ∃ tx seen, Renders sampleLibraries AbiLibrary.null seen tx sampleMined ∧
        Carried sampleLibraries [.newBlock sampleBlock] tx sampleMined := by
  have single : ∀ msg, .newBlock msg ∈ [ServerMessage.newBlock sampleBlock] →
      msg = sampleBlock := by
    intro msg mem
    cases List.mem_singleton.mp mem
    rfl
  have regular : RegularMessages [.newBlock sampleBlock] := by
    constructor
    · intro msg mem
      rw [single msg mem]
      decide
    · intro first firstMem second secondMem hash _ _
      rw [single first firstMem, single second secondMem]
  have distinct : DistinctTxs [.newBlock sampleBlock] := by
    intro msg mem
    rw [single msg mem]
    exact List.nodup_singleton _
  let moment : Moment (serverCalls sampleLibraries [.newBlock sampleBlock]) :=
    ⟨_, List.prefix_rfl⟩
  have served : runServer sampleLibraries [.newBlock sampleBlock] =
      { Db.empty with blocks := [sampleBlockRow], txs := [sampleTxRow] } := by
    rw [runServer, List.foldl_cons, List.foldl_nil, receive_sampleBlock]
  have db : moment.db = { Db.empty with blocks := [sampleBlockRow], txs := [sampleTxRow] } :=
    (runServer_eq_runStore _ _).symm.trans served
  have answer : (getTransaction ClarityLibrary.booleans AddressLibrary.zeroHash
      AbiLibrary.null (bufferToHexPrefixString sampleTxId)).alone
        { Db.empty with blocks := [sampleBlockRow], txs := [sampleTxRow] } =
          .ok (.ok sampleMined) := by
    decide +kernel
  have ends := @ends_alone _ _ _ _ _ _ _ _ moment.sees_self (getTransaction
    ClarityLibrary.booleans AddressLibrary.zeroHash AbiLibrary.null
    (bufferToHexPrefixString sampleTxId))
  rw [db, answer] at ends
  obtain ⟨tx, seen, -, renders, carried, -⟩ := @getTransaction_renders _ _ sampleLibraries
    AbiLibrary.null _ nonemptyTexts_zeroHash local_booleans regular distinct moment moment _ _ ends
  exact ⟨answer, tx, seen, renders, carried⟩

end StacksApi.EventStream
