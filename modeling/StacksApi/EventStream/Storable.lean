import StacksApi.Datastore.Admissible
import StacksApi.EventStream.Readable

/-!
# Which transactions and events are stored

The tables admit the rows of transactions and events that are handed over unless
a byte string cannot be decoded, a text has a character with code zero or a
number is out of the range of its column.
-/

namespace StacksApi.EventStream

open StacksApi.Binary
open StacksApi.P2p
open StacksApi.Datastore
open StacksApi.Transition

variable {CV : Type} {libraries : Libraries CV}

/-! ## Events -/

/-- The amount of an event is in a range, if it is an amount at all. -/
def AmountFits (inRange : Int → Bool) (amount : String) : Prop :=
  ∀ value, bigIntOfText amount = .ok value → inRange value = true

/-- Texts and amount of the event are admitted by its table. -/
def CoreNodeEvent.Fits : CoreNodeEvent → Prop
  | contractEvent _ contractIdentifier topic _ =>
      isText contractIdentifier = true ∧ isText topic = true
  | stxTransferEvent _ sender recipient amount =>
      isText sender = true ∧ isText recipient = true ∧ AmountFits isBigint amount
  | stxMintEvent _ recipient amount => isText recipient = true ∧ AmountFits isBigint amount
  | stxBurnEvent _ sender amount => isText sender = true ∧ AmountFits isBigint amount
  | ftTransferEvent _ assetIdentifier sender recipient amount =>
      isText sender = true ∧ isText recipient = true ∧ isText assetIdentifier = true ∧
        AmountFits isNumeric78 amount
  | ftMintEvent _ assetIdentifier recipient amount =>
      isText recipient = true ∧ isText assetIdentifier = true ∧ AmountFits isNumeric78 amount
  | nftTransferEvent _ assetIdentifier sender recipient _ =>
      isText sender = true ∧ isText recipient = true ∧ isText assetIdentifier = true
  | nftMintEvent _ assetIdentifier recipient _ =>
      isText recipient = true ∧ isText assetIdentifier = true
  | unknown _ _ => True

theorem amountFits_iff {inRange : Int → Bool} {amount : String} {value : Int}
    (parsed : bigIntOfText amount = .ok value) :
    AmountFits inRange amount ↔ inRange value = true := by
  simp [AmountFits, parsed]

theorem admitted_eventBase {entry : TxEntry} {blockHeight : Nat} {txid : String}
    (txIndex : isSmallint entry.tx.txIndex = true) (height : isInteger blockHeight = true) :
    (eventBase blockHeight entry txid).admitted = decide (nextEventIndex entry < 2 ^ 31) := by
  have position : isInteger (nextEventIndex entry) = decide (nextEventIndex entry < 2 ^ 31) := by
    rw [isInteger, decide_eq_decide]
    omega
  simp [DbEventBase.admitted, eventBase, txIndex, height, position]

/-- The row of the event can be computed and is admitted. -/
def EventStored (tx : DbTx String) : DbEvent → Prop
  | .stx event => Succeeds (stxEventRow tx event)
  | .ft event => Succeeds (ftEventRow tx event)
  | .nft event => Succeeds (nftEventRow tx event)
  | .smartContractLog event => Succeeds (contractLogRow tx event)

/-- The table of the event admits it. -/
def admittedEvent : DbEvent → Bool
  | .stx event => event.admitted
  | .ft event => event.admitted
  | .nft event => event.admitted
  | .smartContractLog event => event.admitted

theorem succeeds_entryRows_iff_events {entry : TxEntry} :
    Succeeds (entryRows entry) ↔ Succeeds (txRow entry.tx) ∧
      (∀ event ∈ entry.events, EventStored entry.tx event) ∧
      ∀ contract ∈ entry.smartContracts, Succeeds (smartContractRow entry.tx contract) := by
  simp only [succeeds_entryRows_iff, TxEntry.events, List.forall_mem_append, List.forall_mem_map,
    EventStored, and_assoc]

theorem eventStored_iff {tx : DbTx String} {event : DbEvent} (stored : Succeeds (txRow tx))
    (own : event.base.txId = tx.txId) : EventStored tx event ↔ admittedEvent event = true := by
  cases event with
  | stx event => exact succeeds_eventRow_iff stored own fun _ => rfl
  | ft event => exact succeeds_eventRow_iff stored own fun _ => rfl
  | nft event => exact succeeds_eventRow_iff stored own fun _ => rfl
  | smartContractLog event => exact succeeds_eventRow_iff stored own fun _ => rfl

/-- An entry can be stored with one more event when it can be without and the table
of the event admits that. -/
theorem succeeds_entryRows_pushDbEvent_iff {entry : TxEntry} {event : DbEvent}
    (own : event.base.txId = entry.tx.txId) :
    Succeeds (entryRows (pushDbEvent entry event)) ↔
      Succeeds (entryRows entry) ∧ admittedEvent event = true := by
  have events : (∀ other ∈ (pushDbEvent entry event).events, EventStored entry.tx other) ↔
      (∀ other ∈ entry.events, EventStored entry.tx other) ∧ EventStored entry.tx event := by
    simp only [(events_pushDbEvent entry event).mem_iff, List.forall_mem_append,
      List.forall_mem_singleton]
  rw [succeeds_entryRows_iff_events, succeeds_entryRows_iff_events, tx_pushDbEvent,
    smartContracts_pushDbEvent, events]
  constructor
  · rintro ⟨stored, ⟨old, new⟩, contracts⟩
    exact ⟨⟨stored, old, contracts⟩, (eventStored_iff stored own).mp new⟩
  · rintro ⟨⟨stored, old, contracts⟩, new⟩
    exact ⟨stored, ⟨old, (eventStored_iff stored own).mpr new⟩, contracts⟩

/-- The record of an event is admitted when its shared columns and its own fields are. -/
theorem admittedEvent_describeEvent_iff {base : DbEventBase String} {event : CoreNodeEvent}
    {dbEvent : DbEvent} (described : describeEvent base event = .ok dbEvent) :
    admittedEvent dbEvent = true ↔ base.admitted = true ∧ event.Fits := by
  cases event with
  | contractEvent txid contractIdentifier topic rawValue =>
      obtain ⟨value, -, same⟩ := Except.bind_eq_ok.mp described
      cases same
      simp [admittedEvent, DbSmartContractEvent.admitted, CoreNodeEvent.Fits, and_assoc]
  | stxTransferEvent txid sender recipient amount =>
      obtain ⟨value, parsed, same⟩ := Except.bind_eq_ok.mp described
      cases same
      simp [admittedEvent, DbStxEvent.admitted, DbAssetEvent.admitted, CoreNodeEvent.Fits,
        amountFits_iff parsed, and_assoc]
  | stxMintEvent txid recipient amount =>
      obtain ⟨value, parsed, same⟩ := Except.bind_eq_ok.mp described
      cases same
      simp [admittedEvent, DbStxEvent.admitted, DbAssetEvent.admitted, CoreNodeEvent.Fits,
        amountFits_iff parsed, and_assoc]
  | stxBurnEvent txid sender amount =>
      obtain ⟨value, parsed, same⟩ := Except.bind_eq_ok.mp described
      cases same
      simp [admittedEvent, DbStxEvent.admitted, DbAssetEvent.admitted, CoreNodeEvent.Fits,
        amountFits_iff parsed, and_assoc]
  | ftTransferEvent txid assetIdentifier sender recipient amount =>
      obtain ⟨value, parsed, same⟩ := Except.bind_eq_ok.mp described
      cases same
      simp [admittedEvent, DbFtEvent.admitted, DbContractAssetEvent.admitted,
        DbAssetEvent.admitted, CoreNodeEvent.Fits, amountFits_iff parsed, and_assoc]
  | ftMintEvent txid assetIdentifier recipient amount =>
      obtain ⟨value, parsed, same⟩ := Except.bind_eq_ok.mp described
      cases same
      simp [admittedEvent, DbFtEvent.admitted, DbContractAssetEvent.admitted,
        DbAssetEvent.admitted, CoreNodeEvent.Fits, amountFits_iff parsed, and_assoc]
  | nftTransferEvent txid assetIdentifier sender recipient rawValue =>
      obtain ⟨value, -, same⟩ := Except.bind_eq_ok.mp described
      cases same
      simp [admittedEvent, DbNftEvent.admitted, DbContractAssetEvent.admitted,
        DbAssetEvent.admitted, CoreNodeEvent.Fits, and_assoc]
  | nftMintEvent txid assetIdentifier recipient rawValue =>
      obtain ⟨value, -, same⟩ := Except.bind_eq_ok.mp described
      cases same
      simp [admittedEvent, DbNftEvent.admitted, DbContractAssetEvent.admitted,
        DbAssetEvent.admitted, CoreNodeEvent.Fits, and_assoc]
  | unknown txid inspected => cases described

/-- An event can be stored with its entry when its position and its own fields fit
the columns. -/
theorem succeeds_entryRows_pushEvent_iff {blockHeight : Nat} {entry entry' : TxEntry}
    {event : CoreNodeEvent} (own : event.txid = entry.tx.txId)
    (height : entry.tx.blockHeight = blockHeight)
    (pushed : pushEvent blockHeight entry event = .ok entry') :
    Succeeds (entryRows entry') ↔
      Succeeds (entryRows entry) ∧ nextEventIndex entry < 2 ^ 31 ∧ event.Fits := by
  rw [pushEvent_eq] at pushed
  obtain ⟨dbEvent, described, rfl⟩ := Except.map_eq_ok.mp pushed
  have ownBase : dbEvent.base.txId = entry.tx.txId := by
    rw [base_of_describeEvent described]
    exact own
  refine (succeeds_entryRows_pushDbEvent_iff ownBase).trans (and_congr_right fun stored => ?_)
  obtain ⟨-, -, -, -, admitted⟩ := succeeds_txRow_iff.mp (succeeds_entryRows_iff.mp stored).1
  simp only [DbTx.admitted, Bool.and_eq_true] at admitted
  rw [admittedEvent_describeEvent_iff described,
    admitted_eventBase admitted.1.1.2 (height ▸ admitted.1.2), decide_eq_true_eq]

/-- The position that the next event of a transaction gets. -/
def eventPosition : List TxEntry → String → Nat
  | [], _ => 0
  | entry :: entries, txid =>
      if entry.tx.txId = txid then nextEventIndex entry else eventPosition entries txid

theorem nextEventIndex_pushEvent {blockHeight : Nat} {entry entry' : TxEntry}
    {event : CoreNodeEvent} (pushed : pushEvent blockHeight entry event = .ok entry') :
    nextEventIndex entry' = nextEventIndex entry + 1 := by
  rw [pushEvent_eq] at pushed
  obtain ⟨dbEvent, -, rfl⟩ := Except.map_eq_ok.mp pushed
  rw [nextEventIndex_eq, nextEventIndex_eq, (events_pushDbEvent entry dbEvent).length_eq,
    List.length_append, List.length_singleton]

theorem eventPosition_addEvent {blockHeight : Nat} {entries entries' : List TxEntry}
    {event : CoreNodeEvent} (added : addEvent blockHeight entries event = .ok entries')
    (txid : String) :
    eventPosition entries' txid =
      eventPosition entries txid + if event.txid = txid then 1 else 0 := by
  induction entries generalizing entries' with
  | nil => cases added
  | cons entry entries ih =>
      rw [addEvent] at added
      split at added
      · next own =>
          obtain ⟨pushed, pushedOk, same⟩ := Except.bind_eq_ok.mp added
          cases same
          rw [eventPosition, eventPosition, (pushEvent_ok pushedOk).1, own,
            nextEventIndex_pushEvent pushedOk]
          split <;> rfl
      · next other =>
          obtain ⟨later, laterOk, same⟩ := Except.bind_eq_ok.mp added
          cases same
          rw [eventPosition, eventPosition, ih laterOk]
          split
          · next found =>
              rw [if_neg fun same => other (found.trans same.symm)]
              rfl
          · rfl

/-- The entries can be stored after an event is added when they could before it
and the event fits. -/
theorem succeeds_entryRows_addEvent_iff {blockHeight : Nat} {entries entries' : List TxEntry}
    {event : CoreNodeEvent} (heights : ∀ tx ∈ entries.map TxEntry.tx, tx.blockHeight = blockHeight)
    (added : addEvent blockHeight entries event = .ok entries') :
    (∀ entry ∈ entries', Succeeds (entryRows entry)) ↔
      (∀ entry ∈ entries, Succeeds (entryRows entry)) ∧
        eventPosition entries event.txid < 2 ^ 31 ∧ event.Fits := by
  induction entries generalizing entries' with
  | nil => cases added
  | cons entry entries ih =>
      obtain ⟨height, heights⟩ := List.forall_mem_cons.mp heights
      rw [addEvent] at added
      rw [eventPosition]
      split at added
      · next own =>
          obtain ⟨pushed, pushedOk, same⟩ := Except.bind_eq_ok.mp added
          cases same
          rw [List.forall_mem_cons, List.forall_mem_cons, if_pos own,
            succeeds_entryRows_pushEvent_iff own.symm height pushedOk]
          exact and_right_comm
      · next other =>
          obtain ⟨later, laterOk, same⟩ := Except.bind_eq_ok.mp added
          cases same
          rw [List.forall_mem_cons, List.forall_mem_cons, if_neg other, ih heights laterOk,
            and_assoc]

/-- Events that fit are stored with the entries, if none has too many events of
its transaction before it. -/
theorem succeeds_entryRows_foldlM_iff {blockHeight : Nat} {events : List CoreNodeEvent}
    {entries entries' : List TxEntry}
    (heights : ∀ tx ∈ entries.map TxEntry.tx, tx.blockHeight = blockHeight)
    (added : events.foldlM (addEvent blockHeight) entries = .ok entries') :
    (∀ entry ∈ entries', Succeeds (entryRows entry)) ↔
      (∀ entry ∈ entries, Succeeds (entryRows entry)) ∧ (∀ event ∈ events, event.Fits) ∧
        ∀ earlier event later, events = earlier ++ event :: later →
          eventPosition entries event.txid +
            earlier.countP (fun other => other.txid = event.txid) < 2 ^ 31 := by
  induction events generalizing entries with
  | nil =>
      cases added
      simp
  | cons event events ih =>
      rw [List.foldlM_cons] at added
      obtain ⟨next, nextOk, rest⟩ := Except.bind_eq_ok.mp added
      have shifted : ∀ earlier (later : CoreNodeEvent),
          eventPosition next later.txid + earlier.countP (fun other => other.txid = later.txid) =
            eventPosition entries later.txid +
              (event :: earlier).countP (fun other => other.txid = later.txid) := by
        intro earlier later
        rw [eventPosition_addEvent nextOk, List.countP_cons]
        simp only [decide_eq_true_eq]
        omega
      rw [ih (map_tx_addEvent nextOk ▸ heights) rest,
        succeeds_entryRows_addEvent_iff heights nextOk,
        forall_split_cons_iff, List.forall_mem_cons]
      simp only [shifted, List.countP_nil, Nat.add_zero]
      constructor
      · rintro ⟨⟨stored, position, fits⟩, laterFits, positions⟩
        exact ⟨stored, ⟨fits, laterFits⟩, position, positions⟩
      · rintro ⟨stored, ⟨fits, laterFits⟩, position, positions⟩
        exact ⟨⟨stored, position, fits⟩, laterFits, positions⟩

/-! ## Transactions -/

/-- The texts of addresses are plain characters. -/
def PlainTexts (addresses : AddressLibrary) : Prop :=
  ∀ version hash text, addresses.c32address version hash = .ok text → isText text = true

/-- Names and code of a payload. -/
def payloadTexts : TransactionPayload CV → List String
  | .tokenTransfer (.contract _ contractName) _ _ => [contractName]
  | .smartContract name codeBody => [name, codeBody]
  | .contractCall _ contractName functionName _ _ => [contractName, functionName]
  | _ => []

/-- The columns of the transaction admit its fields. -/
structure TxFits (coreTx : CoreNodeTxMessage) (tx : Transaction CV) : Prop where
  txid : Succeeds (hexToBuffer coreTx.txid)
  rawResult : coreTx.rawResult = "" ∨ Succeeds (hexToBuffer coreTx.rawResult)
  txIndex : isSmallint coreTx.txIndex = true
  feeRate : tx.auth.originCondition.feeRate < 2 ^ 63
  texts : ∀ text ∈ payloadTexts tx.payload, isText text = true
  contractAbi : tx.payload.typeId = .smartContract → isText coreTx.contractAbi = true

theorem isText_append (first second : String) :
    isText (first ++ second) = (isText first && isText second) := by
  rw [isText, isText, isText, String.toList_append, List.all_append]

theorem isBigint_iff_of_nonneg {value : Int} (nonneg : 0 ≤ value) :
    isBigint value = true ↔ value < 2 ^ 63 := by
  rw [isBigint, decide_eq_true_eq]
  omega

theorem isBigint_signedAmount {amount : Int} (range : IsU64 amount) :
    isBigint (signedAmount amount) = true := by
  obtain ⟨nonneg, below⟩ := range
  rw [isBigint, decide_eq_true_eq, signedAmount, toSigned]
  split <;> omega

theorem isSmallint_hashMode (hashMode : SigHashMode) :
    isSmallint (ByteEnum.toNat hashMode) = true := by
  cases hashMode <;> rfl

theorem succeeds_rawResultColumn_iff {rawResult : String} :
    Succeeds (rawResultColumn (some rawResult)) ↔
      rawResult = "" ∨ Succeeds (hexToBuffer rawResult) := by
  by_cases empty : rawResult = ""
  · subst empty
    exact iff_of_true (succeeds_ok none) (Or.inl rfl)
  · rw [or_iff_right empty, rawResultColumn.eq_3 rawResult empty, succeeds_map_iff]

section Texts

variable {addresses : AddressLibrary}

theorem PlainTexts.publicKeyHash (plain : PlainTexts addresses) {publicKeyHash : Buffer}
    {hashMode : SigHashMode} {version : TransactionVersion} {text : String}
    (ok : getAddressFromPublicKeyHash addresses publicKeyHash hashMode version = .ok text) :
    isText text = true := by
  rw [getAddressFromPublicKeyHash] at ok
  split at ok
  · cases ok
  · exact plain _ _ _ ok

theorem PlainTexts.sponsor (plain : PlainTexts addresses) {tx : Transaction CV}
    {sponsorAddress : Option String}
    (ok : getTxSponsorAddress addresses tx = .ok sponsorAddress) :
    sponsorAddress.all isText = true := by
  rw [getTxSponsorAddress] at ok
  cases auth : tx.auth with
  | standard originCondition =>
      rw [auth] at ok
      cases ok
      rfl
  | sponsored originCondition sponsorCondition =>
      rw [auth] at ok
      obtain ⟨text, textOk, rfl⟩ := Except.map_eq_ok.mp ok
      exact plain.publicKeyHash textOk

theorem PlainTexts.recipient (plain : PlainTexts addresses) {recipient : RecipientPrincipal}
    {amount : Int} {memo : Buffer} {text : String}
    (ok : recipientText addresses recipient = .ok text) :
    isText text = true ↔
      ∀ name ∈ payloadTexts (.tokenTransfer recipient amount memo : TransactionPayload CV),
        isText name = true := by
  obtain ⟨address, addressOk, same⟩ := Except.bind_eq_ok.mp ok
  have plainAddress : isText address = true := plain _ _ _ addressOk
  cases recipient with
  | standard _ =>
      cases same
      exact iff_of_true plainAddress fun _ mem => nomatch mem
  | contract _ contractName =>
      cases same
      rw [isText_append, isText_append, plainAddress]
      simp [payloadTexts, show isText "." = true from rfl]

end Texts

/-- The columns of a parsed transaction are admitted when its fee and its texts are. -/
theorem admitted_extracted_iff {addresses : AddressLibrary} (plain : PlainTexts addresses)
    {tx : Transaction CV} {txId senderAddress : String} {rawTx : Buffer} {status : DbTxStatus}
    {sponsorAddress : Option String} {columns : DbTxBase String}
    (extracted : extractTransactionPayload addresses tx
      (transactionColumns txId rawTx status senderAddress sponsorAddress tx) = .ok columns)
    (sender : isText senderAddress = true) (sponsor : sponsorAddress.all isText = true)
    (fee : 0 ≤ tx.auth.originCondition.feeRate)
    (amountFits : ∀ recipient amount memo, tx.payload = .tokenTransfer recipient amount memo →
      isBigint amount = true) :
    columns.admitted = true ↔
      tx.auth.originCondition.feeRate < 2 ^ 63 ∧
        ∀ text ∈ payloadTexts tx.payload, isText text = true := by
  have feeFits := isBigint_iff_of_nonneg fee
  have dot : isText "." = true := rfl
  cases extracted_of_ok extracted with
  | tokenTransfer kind textOk same =>
      have amountOk := amountFits _ _ _ kind
      rw [kind, ← plain.recipient textOk, same]
      simp [DbTxBase.admitted, transactionColumns, DbTxBase.validPayload, kind,
        TransactionPayload.typeId, dbTxTypeId, sender, sponsor, feeFits, amountOk,
        isSmallint_hashMode]
  | smartContract kind textOk same =>
      have plainText := plain.publicKeyHash textOk
      rw [kind, same]
      simp [DbTxBase.admitted, transactionColumns, DbTxBase.validPayload, kind, payloadTexts,
        TransactionPayload.typeId, dbTxTypeId, sender, sponsor, feeFits, isText_append, plainText,
        dot, isSmallint_hashMode, and_assoc]
  | contractCall kind textOk same =>
      have plainText := plain _ _ _ textOk
      rw [kind, same]
      simp [DbTxBase.admitted, transactionColumns, DbTxBase.validPayload, kind, payloadTexts,
        TransactionPayload.typeId, dbTxTypeId, sender, sponsor, feeFits, isText_append, plainText,
        dot, isSmallint_hashMode, toString, and_assoc]
  | poisonMicroblock kind same | coinbase kind same =>
      rw [kind, same]
      simp [DbTxBase.admitted, transactionColumns, DbTxBase.validPayload, kind, payloadTexts,
        TransactionPayload.typeId, dbTxTypeId, sender, sponsor, feeFits, isSmallint_hashMode]

theorem RecordOf.admitted_iff {msg : CoreNodeMessage} {coreTx : CoreNodeTxMessage}
    {tx : Transaction CV} {record : DbTx String} (plain : PlainTexts libraries.addresses)
    (recordOf : RecordOf libraries msg coreTx tx record)
    (fee : 0 ≤ tx.auth.originCondition.feeRate)
    (amountFits : ∀ recipient amount memo, tx.payload = .tokenTransfer recipient amount memo →
      isBigint amount = true) :
    record.toDbTxBase.admitted = true ↔
      tx.auth.originCondition.feeRate < 2 ^ 63 ∧
        ∀ text ∈ payloadTexts tx.payload, isText text = true := by
  obtain ⟨status, -, extracted⟩ := recordOf.columns
  exact admitted_extracted_iff plain extracted (plain.publicKeyHash recordOf.sender)
    (plain.sponsor recordOf.sponsor) fee amountFits

/-- A transaction of a storable block is stored when its fields fit. -/
theorem RecordOf.succeeds_txRow_iff {msg : CoreNodeMessage} {coreTx : CoreNodeTxMessage}
    {tx : Transaction CV} {record : DbTx String}
    (recordOf : RecordOf libraries msg coreTx tx record)
    (block : Succeeds (blockRow (messageBlock msg))) :
    Succeeds (txRow record) ↔ Succeeds (hexToBuffer coreTx.txid) ∧
      (coreTx.rawResult = "" ∨ Succeeds (hexToBuffer coreTx.rawResult)) ∧
      isSmallint coreTx.txIndex = true ∧ record.toDbTxBase.admitted = true := by
  obtain ⟨blockHash, indexBlockHash, -, -, -, admitted⟩ := succeeds_blockRow_iff.mp block
  rw [DbBlock.admitted, Bool.and_eq_true] at admitted
  obtain ⟨height, burnTime⟩ := admitted
  obtain ⟨status, -, shared⟩ := recordOf.shared
  have txId : record.txId = coreTx.txid := shared.txId
  have sameIndexHash : record.indexBlockHash = msg.indexBlockHash :=
    congrArg DbTx.indexBlockHash recordOf.inBlock
  have sameBlockHash : record.blockHash = msg.blockHash :=
    congrArg DbTx.blockHash recordOf.inBlock
  have rawResult : record.rawResult = some coreTx.rawResult :=
    congrArg DbTx.rawResult recordOf.inBlock
  have fits : record.admitted = true ↔
      isSmallint coreTx.txIndex = true ∧ record.toDbTxBase.admitted = true := by
    have inBlock := congrArg DbTx.admitted recordOf.inBlock
    rw [inBlock, DbTx.admitted]
    simp only [Bool.and_eq_true]
    constructor
    · rintro ⟨⟨⟨base, txIndex⟩, -⟩, -⟩
      exact ⟨txIndex, base⟩
    · rintro ⟨txIndex, base⟩
      exact ⟨⟨⟨base, txIndex⟩, height⟩, burnTime⟩
  rw [Datastore.succeeds_txRow_iff, txId, sameIndexHash, sameBlockHash, rawResult,
    succeeds_rawResultColumn_iff, fits]
  exact and_congr_right' ((and_iff_right indexBlockHash).trans (and_iff_right blockHash))

/-- The contract that a stored transaction deploys is stored when its texts and its
interface are admitted. -/
theorem succeeds_deployed_iff {msg : CoreNodeMessage} {coreTx : CoreNodeTxMessage}
    {payload : TransactionPayload CV} {record : DbTx String}
    (stored : Succeeds (txRow record)) (own : coreTx.txid = record.txId)
    (sender : isText record.senderAddress = true) (height : isInteger msg.blockHeight = true)
    (texts : ∀ text ∈ payloadTexts payload, isText text = true) :
    (∀ contract ∈ deployed msg coreTx record.senderAddress payload,
        Succeeds (smartContractRow record contract)) ↔
      (payload.typeId = .smartContract → isText coreTx.contractAbi = true) := by
  have row : ∀ contract : DbSmartContract String, contract.txId = record.txId →
      (Succeeds (smartContractRow record contract) ↔ contract.admitted = true) :=
    fun contract own => succeeds_eventRow_iff stored own fun _ => rfl
  cases payload with
  | smartContract name codeBody =>
      have plainName : isText name = true := texts name List.mem_cons_self
      have plainCode : isText codeBody = true :=
        texts codeBody (List.mem_cons_of_mem _ (List.mem_singleton_self _))
      have dot : isText "." = true := rfl
      rw [deployed, List.forall_mem_singleton, row _ own]
      simp [DbSmartContract.admitted, isText_append, toString, sender, dot, plainName, plainCode,
        height, TransactionPayload.typeId]
  | _ =>
      apply iff_of_true
      · rintro _ ⟨⟩
      · rintro ⟨⟩

/-- An entry to which no event was added. -/
structure NoEvents (entry : TxEntry) : Prop where
  stxEvents : entry.stxEvents = []
  ftEvents : entry.ftEvents = []
  nftEvents : entry.nftEvents = []
  contractLogEvents : entry.contractLogEvents = []

theorem noEvents_createEntry {blockHeight : Nat} {parsed : CoreNodeParsedTxMessage CV}
    {entry : TxEntry} (created : createEntry libraries blockHeight parsed = .ok entry) :
    NoEvents entry := by
  obtain ⟨dbTx, -, same⟩ := Except.bind_eq_ok.mp created
  cases same
  exact ⟨rfl, rfl, rfl, rfl⟩

theorem NoEvents.nextEventIndex {entry : TxEntry} (noEvents : NoEvents entry) :
    nextEventIndex entry = 0 := by
  rw [EventStream.nextEventIndex, noEvents.stxEvents, noEvents.ftEvents, noEvents.nftEvents,
    noEvents.contractLogEvents]
  rfl

theorem NoEvents.succeeds_entryRows_iff {entry : TxEntry} (noEvents : NoEvents entry) :
    Succeeds (entryRows entry) ↔ Succeeds (txRow entry.tx) ∧
      ∀ contract ∈ entry.smartContracts, Succeeds (smartContractRow entry.tx contract) := by
  rw [Datastore.succeeds_entryRows_iff, noEvents.stxEvents, noEvents.ftEvents,
    noEvents.nftEvents, noEvents.contractLogEvents]
  simp

theorem auth_wellFormed_feeRate {auth : TransactionAuth} (valid : auth.WellFormed) :
    0 ≤ auth.originCondition.feeRate := by
  have fee : ∀ {condition : TransactionSpendingCondition}, condition.WellFormed →
      0 ≤ condition.feeRate := by
    intro condition valid
    cases condition with
    | singleSig condition => exact valid.feeRate.1
    | multiSig condition => exact valid.feeRate.1
  cases auth with
  | standard originCondition => exact fee valid
  | sponsored originCondition sponsorCondition => exact fee valid.1

theorem payloadTexts_asRead (clarity : ClarityLibrary CV) (payload : TransactionPayload CV) :
    payloadTexts (payload.asRead clarity) = payloadTexts payload := by
  cases payload with
  | tokenTransfer recipient amount memo => cases recipient <;> rfl
  | _ => rfl

/-- The amount that is read of a transfer is in the signed range. -/
theorem isBigint_amount_asRead {clarity : ClarityLibrary CV} {payload : TransactionPayload CV}
    (valid : payload.WellFormed) {recipient : RecipientPrincipal} {amount : Int} {memo : Buffer}
    (kind : payload.asRead clarity = .tokenTransfer recipient amount memo) :
    isBigint amount = true := by
  cases payload with
  | tokenTransfer recipient sent memo =>
      cases kind
      exact isBigint_signedAmount valid.2.1
  | _ => cases kind

/-- The entry of a transaction without events is stored when the transaction fits. -/
theorem EntryOf.succeeds_entryRows_iff (inverts : libraries.clarity.RoundTrips)
    (plain : PlainTexts libraries.addresses) {msg : CoreNodeMessage} {coreTx : CoreNodeTxMessage}
    {tx : Transaction CV} {entry : TxEntry} (block : Succeeds (blockRow (messageBlock msg)))
    (encodes : coreTx.Encodes libraries tx) (valid : tx.WellFormed)
    (entryOf : EntryOf libraries msg coreTx entry) (noEvents : NoEvents entry) :
    Succeeds (entryRows entry) ↔ TxFits coreTx tx := by
  have own : entry.tx.txId = coreTx.txid := entryOf.txId
  obtain ⟨read, recordOf, -, contracts⟩ := entryOf
  obtain rfl : tx.asRead libraries.clarity = read := by
    have readOk := recordOf.read
    rw [encodes.txBuffer, readBufferTransaction_encode libraries inverts valid] at readOk
    exact Except.ok.inj readOk
  have admitted := recordOf.admitted_iff plain (auth_wellFormed_feeRate valid.auth)
    fun _ _ _ kind => isBigint_amount_asRead valid.payload kind
  have texts : payloadTexts (tx.asRead libraries.clarity).payload = payloadTexts tx.payload :=
    payloadTexts_asRead libraries.clarity tx.payload
  have kind : (tx.asRead libraries.clarity).payload.typeId = tx.payload.typeId :=
    typeId_asRead libraries.clarity tx.payload
  have sender : isText entry.tx.senderAddress = true := plain.publicKeyHash recordOf.sender
  have height : isInteger msg.blockHeight = true := by
    obtain ⟨-, -, -, -, -, admitted⟩ := succeeds_blockRow_iff.mp block
    exact (Bool.and_eq_true_iff.mp admitted).1
  rw [texts] at admitted
  rw [noEvents.succeeds_entryRows_iff, contracts]
  constructor
  · rintro ⟨stored, deployedOk⟩
    obtain ⟨txid, rawResult, txIndex, base⟩ := (recordOf.succeeds_txRow_iff block).mp stored
    obtain ⟨feeRate, plainTexts⟩ := admitted.mp base
    refine ⟨txid, rawResult, txIndex, feeRate, plainTexts, ?_⟩
    rw [← kind]
    exact (succeeds_deployed_iff stored own.symm sender height (texts ▸ plainTexts)).mp deployedOk
  · rintro ⟨txid, rawResult, txIndex, feeRate, plainTexts, contractAbi⟩
    have stored : Succeeds (txRow entry.tx) := (recordOf.succeeds_txRow_iff block).mpr
      ⟨txid, rawResult, txIndex, admitted.mpr ⟨feeRate, plainTexts⟩⟩
    rw [← kind] at contractAbi
    exact ⟨stored, (succeeds_deployed_iff stored own.symm sender height
      (texts ▸ plainTexts)).mpr contractAbi⟩

end StacksApi.EventStream
