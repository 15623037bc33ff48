import StacksApi.Datastore.ReadBack
import StacksApi.EventStream.MempoolRun
import StacksApi.EventStream.Storable
import StacksApi.P2p.Reparse

/-!
# Records of transactions are read back

What `createDbTxFromCoreMsg` and `createDbMempoolTxFromCoreMsg` make of a parsed
transaction has the columns of its type and no others, so that the store returns it as
it was made, as long as its numbers are in range and no text has a character with code
zero.
-/

namespace StacksApi.EventStream

open StacksApi.Binary
open StacksApi.P2p
open StacksApi.Datastore
open StacksApi.Transition

variable {CV : Type} {addresses : AddressLibrary}

/-- No address has an empty text. -/
def NonemptyTexts (addresses : AddressLibrary) : Prop :=
  ∀ version hash text, addresses.c32address version hash = .ok text → text ≠ ""

theorem NonemptyTexts.sponsor (nonempty : NonemptyTexts addresses) {tx : Transaction CV}
    {sponsorAddress : Option String}
    (ok : getTxSponsorAddress addresses tx = .ok sponsorAddress) : sponsorAddress ≠ some "" := by
  rw [getTxSponsorAddress] at ok
  cases auth : tx.auth with
  | standard originCondition =>
      rw [auth] at ok
      cases ok
      exact (Option.some_ne_none "").symm
  | sponsored originCondition sponsorCondition =>
      rw [auth] at ok
      obtain ⟨text, textOk, rfl⟩ := Except.map_eq_ok.mp ok
      rw [getAddressFromPublicKeyHash] at textOk
      split at textOk
      · cases textOk
      · exact fun same => nonempty _ _ _ textOk (Option.some.inj same)

section Extracted

variable {tx : Transaction CV} {txId senderAddress : String} {rawTx : Buffer} {status : DbTxStatus}
variable {sponsorAddress : Option String} {columns : DbTxBase String}

/-- Only the columns of the payload are set. -/
theorem ownColumns_of_extracted
    (extracted : extractTransactionPayload addresses tx
      (transactionColumns txId rawTx status senderAddress sponsorAddress tx) = .ok columns)
    (named : sponsorAddress ≠ some "") : columns.OwnColumns := by
  have kept : sponsorAddress.filter (fun address => address ≠ "") = sponsorAddress := by
    cases sponsorAddress with
    | none => rfl
    | some text =>
        have nonempty : text ≠ "" := fun same => named (congrArg some same)
        simp [Option.filter, nonempty]
  intro buffer
  cases extracted_of_ok extracted with
  | tokenTransfer kind _ same =>
      rw [same]
      simp only [parseTxColumns, transactionColumns, DbTxBase.withTxId, kind,
        TransactionPayload.typeId, dbTxTypeId, kept]
      rfl
  | smartContract kind _ same | contractCall kind _ same | poisonMicroblock kind same
  | coinbase kind same =>
      rw [same]
      simp only [parseTxColumns, transactionColumns, DbTxBase.withTxId, kind,
        TransactionPayload.typeId, dbTxTypeId, kept]

/-- The constraint of the type of the transaction is met. -/
theorem validPayload_of_extracted
    (extracted : extractTransactionPayload addresses tx
      (transactionColumns txId rawTx status senderAddress sponsorAddress tx) = .ok columns) :
    columns.validPayload = true := by
  have typeId : columns.typeId = dbTxTypeId tx.payload.typeId :=
    (extractTransactionPayload_ok extracted).typeId
  rw [DbTxBase.validPayload, typeId]
  cases extracted_of_ok extracted with
  | tokenTransfer kind _ same | smartContract kind _ same | contractCall kind _ same
  | poisonMicroblock kind same | coinbase kind same =>
      rw [kind, same]
      rfl

/-- A record of a parsed transaction is admitted when its numbers and its texts fit. -/
theorem admitted_of_extracted
    (extracted : extractTransactionPayload addresses tx
      (transactionColumns txId rawTx status senderAddress sponsorAddress tx) = .ok columns)
    (numbers : columns.numbersFit = true) (texts : columns.textsFit = true) :
    columns.admitted = true := by
  have mode : columns.originHashMode = ByteEnum.toNat tx.auth.originCondition.hashMode :=
    (extractTransactionPayload_ok extracted).originHashMode
  exact DbTxBase.admitted_iff.mpr
    ⟨numbers, texts, mode ▸ isSmallint_hashMode _, validPayload_of_extracted extracted⟩

end Extracted

/-- A record that is made of a parsed transaction, whose numbers are in the ranges of
their columns and whose texts have no character with code zero, is inserted and read
back as it was, up to the case of its hexadecimal texts. -/
theorem createdRecords_readBack (nonempty : NonemptyTexts addresses) :
    (∀ (msg : CoreNodeParsedTxMessage CV) (record : DbTx String) (db : Db),
      getTxSponsorAddress addresses msg.parsedTx = .ok msg.sponsorAddress →
      createDbTxFromCoreMsg addresses msg = .ok record →
      record.numbersFit = true → record.textsFit = true → record.HexTexts →
      NotOutranked db record →
      ∃ db', updateTx db record = .ok db' ∧
        ∀ scanned, Scan db' scanned → getTx scanned record.txId = .ok (some record.lowerCase)) ∧
    ∀ (msg : DecodedMempoolTx CV) (receiptDate : Int) (record : DbMempoolTx String) (db : Db),
      getTxSponsorAddress addresses msg.txData = .ok msg.sponsorAddress →
      createDbMempoolTxFromCoreMsg addresses msg receiptDate = .ok record →
      record.numbersFit = true → record.textsFit = true → isHexText record.txId = true →
      (∀ stored ∈ db.mempoolTxs, hexToBuffer record.txId ≠ .ok stored.txId) →
      ∃ db' events, updateMempoolTx db record = .ok (db', events) ∧
        ∀ scanned, Scan db' scanned →
          getMempoolTx scanned record.txId = .ok (some record.lowerCase) := by
  constructor
  · intro msg record db sponsor created numbers texts hex top
    obtain ⟨status, -, created⟩ := Except.bind_eq_ok.mp created
    obtain ⟨columns, extracted, same⟩ := Except.bind_eq_ok.mp created
    cases same
    simp only [DbTx.numbersFit, Bool.and_eq_true] at numbers
    obtain ⟨⟨⟨columnsFit, txIndex⟩, height⟩, burnTime⟩ := numbers
    have admitted : columns.admitted = true := admitted_of_extracted extracted columnsFit texts
    apply getTx_updateTx hex
    · exact ownColumns_of_extracted extracted (nonempty.sponsor sponsor)
    · simp only [DbTx.admitted, Bool.and_eq_true]
      exact ⟨⟨⟨admitted, txIndex⟩, height⟩, burnTime⟩
    · rfl
    · exact top
  · intro msg receiptDate record db sponsor created numbers texts hex fresh
    obtain ⟨columns, extracted, same⟩ := Except.bind_eq_ok.mp created
    cases same
    simp only [DbMempoolTx.numbersFit, Bool.and_eq_true] at numbers
    obtain ⟨columnsFit, receiptTime⟩ := numbers
    have admitted : columns.admitted = true := admitted_of_extracted extracted columnsFit texts
    apply getMempoolTx_updateMempoolTx hex
    · exact ownColumns_of_extracted extracted (nonempty.sponsor sponsor)
    · simp only [DbMempoolTx.admitted, Bool.and_eq_true]
      exact ⟨admitted, receiptTime⟩
    · exact fresh

theorem nonemptyTexts_zeroHash : NonemptyTexts AddressLibrary.zeroHash := by
  intro version hash text ok
  simp only [AddressLibrary.zeroHash] at ok
  split at ok
  · cases ok
  · split at ok
    · cases ok
      decide
    · split at ok
      · cases ok
        decide
      · cases ok

/-- The transfer as a mined and as a pending transaction, in the empty store. -/
theorem createdRecords_readBack_sampleTransfer :
    (∃ db', updateTx Db.empty sampleEntry.tx = .ok db' ∧
      ∀ scanned, Scan db' scanned →
        getTx scanned sampleEntry.tx.txId = .ok (some sampleEntry.tx.lowerCase)) ∧
    ∃ record : DbMempoolTx String, ∃ db' events,
      updateMempoolTx Db.empty record = .ok (db', events) ∧
        ∀ scanned, Scan db' scanned →
          getMempoolTx scanned record.txId = .ok (some record.lowerCase) := by
  obtain ⟨mined, pending⟩ := @createdRecords_readBack Bool _ nonemptyTexts_zeroHash
  constructor
  · refine mined sampleParsed sampleEntry.tx Db.empty rfl rfl (by decide) (by decide) ?_ ?_
    · refine ⟨by decide +kernel, by decide, by decide, ?_⟩
      intro rawResult same
      cases same
      exact Or.inr (by decide)
    · exact ⟨List.forall_mem_nil _, List.forall_mem_nil _⟩
  · refine ⟨_, pending sampleDecoded 1594647997 _ Db.empty rfl rfl (by decide) (by decide)
      (by decide +kernel) (List.forall_mem_nil _)⟩

/-! ## A character that no text column holds -/

/-- A contract whose code is the one character with code zero. -/
def nulContract : Transaction Bool :=
  { sampleTransfer 1 with payload := .smartContract "c" (String.ofList [Char.ofNat 0]) }

/-- The encoding of the deployment. -/
def nulBuffer : Buffer :=
  encodeTransaction ClarityLibrary.booleans nulContract

/-- What is parsed of the contract in a block. -/
def nulParsed : CoreNodeParsedTxMessage Bool :=
  { sampleParsed with
    parsedTx := nulContract.asRead ClarityLibrary.booleans
    rawTx := nulBuffer }

/-- The record of the contract. -/
def nulRecord : DbTx String :=
  { sampleEntry.tx with
    rawTx := nulBuffer
    typeId := .smartContract
    tokenTransferRecipientAddress := none
    tokenTransferAmount := none
    tokenTransferMemo := none
    smartContractContractId := some "ST000000000000000000002AMW42H.c"
    smartContractSourceCode := some (String.ofList [Char.ofNat 0]) }

theorem isCodeBody_nul : IsCodeBody (String.ofList [Char.ofNat 0]) where
  ascii char mem := by
    rw [String.toList_ofList] at mem
    rw [List.mem_singleton.mp mem]
    decide
  short := by decide

/-- The code of a contract can have a character with code zero: the transaction is
accepted by `readTransaction` and its numbers fit, but the insertion of its record into
the empty store fails. -/
theorem updateTx_nulRecord :
    readBufferTransaction sampleLibraries nulBuffer =
      .ok (nulContract.asRead ClarityLibrary.booleans) ∧
    getTxSponsorAddress AddressLibrary.zeroHash nulParsed.parsedTx =
      .ok nulParsed.sponsorAddress ∧
    createDbTxFromCoreMsg AddressLibrary.zeroHash nulParsed = .ok nulRecord ∧
    nulRecord.numbersFit = true ∧ nulRecord.HexTexts ∧ NotOutranked Db.empty nulRecord ∧
    updateTx Db.empty nulRecord = .error (.database "txs") := by
  have wellFormed : nulContract.WellFormed :=
    { sampleTransfer_wellFormed (show IsU64 1 from ⟨by decide, by decide⟩) with
      payload := ⟨isName_of_toList (show "c".toList = ['c'] from rfl) (by decide), isCodeBody_nul⟩ }
  refine ⟨readBufferTransaction_encode sampleLibraries ClarityLibrary.booleans_roundTrips
    wellFormed, rfl, by decide +kernel, by decide, ⟨by decide +kernel, by decide, by decide, ?_⟩,
    ⟨List.forall_mem_nil _, List.forall_mem_nil _⟩, by decide +kernel⟩
  intro rawResult same
  cases same
  exact Or.inr (by decide)

end StacksApi.EventStream
