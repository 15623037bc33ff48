import StacksApi.EventStream.Accepts
import StacksApi.P2p.Ranges

/-!
# Mempool transactions out of range

A mempool message is handled to its end exactly when each of its transactions can be
rendered and stored.  Of the numbers in its columns only the fee can be out of range,
as it is read as an unsigned number of 64 bits and stored as a signed one.
-/

namespace StacksApi.EventStream

open StacksApi.Binary
open StacksApi.P2p
open StacksApi.Datastore
open StacksApi.Transition

variable {CV : Type} (libraries : Libraries CV)

/-- The loop of insertions, with the error that ends it. -/
def insertEachMempoolTx (receiptDate : Int) (db : Db) (txs : List (DecodedMempoolTx CV)) :
    Except ApiError Db :=
  txs.foldlM (fun db tx => (insertMempoolTx libraries receiptDate db tx).map Prod.fst) db

/-- The message is handled without an error, and the mempool has a row of each of its
transactions afterwards. -/
structure InsertsEvery (receiptDate : Int) (db : Db) (rawTxs : List String) : Prop where
  completes : Succeeds (decodeMempoolTxs libraries rawTxs >>=
    insertEachMempoolTx libraries receiptDate db)
  stored : ∀ rawTx ∈ rawTxs, ∀ buffer, hexToBuffer rawTx = .ok buffer →
    ∃ row ∈ (handleMempoolTxsMessage libraries receiptDate db rawTxs).mempoolTxs,
      row.txId = libraries.digestSha512_256 buffer

/-- The raw transactions of a message, where `readTransaction` accepts them all. -/
def readTransactions (rawTxs : List String) : Except ApiError (List (Transaction CV)) := do
  let rawTxBuffers ← rawTxs.mapM hexToBuffer
  rawTxBuffers.mapM (readBufferTransaction libraries)

/-- The addresses of the transaction have texts. -/
structure Rendered (addresses : AddressLibrary) (tx : Transaction CV) : Prop where
  sender : Succeeds (getTxSenderAddress addresses tx)
  sponsor : Succeeds (getTxSponsorAddress addresses tx)
  payload : ∀ address ∈ payloadAddresses tx.payload, Succeeds (addressText addresses address)

/-- The columns of the mempool admit what the transaction holds. -/
structure MempoolFits (tx : Transaction CV) : Prop where
  feeRate : tx.auth.originCondition.feeRate < 2 ^ 63
  texts : ∀ text ∈ payloadTexts tx.payload, isText text = true

variable {libraries}

/-! ## One transaction -/

theorem succeeds_extractTransactionPayload_iff {addresses : AddressLibrary} {tx : Transaction CV}
    {columns : DbTxBase String} (sender : Succeeds (getTxSenderAddress addresses tx)) :
    Succeeds (extractTransactionPayload addresses tx columns) ↔
      ∀ address ∈ payloadAddresses tx.payload, Succeeds (addressText addresses address) := by
  refine ⟨fun extracts => ?_, succeeds_extractTransactionPayload sender⟩
  rw [extractTransactionPayload] at extracts
  cases kind : tx.payload with
  | tokenTransfer recipient amount memo =>
      rw [kind] at extracts
      rw [payloadAddresses, List.forall_mem_singleton, ← succeeds_recipientText_iff]
      exact (succeeds_bind_of_total fun _ => succeeds_pure _).mp extracts
  | contractCall address contractName functionName functionArgs rawFunctionArgs =>
      rw [kind] at extracts
      rw [payloadAddresses, List.forall_mem_singleton]
      exact (succeeds_bind_of_total fun _ => succeeds_pure _).mp extracts
  | _ => exact List.forall_mem_nil _

/-- The digest of what is read is a text of hexadecimal digits, so only the other
columns can be refused. -/
theorem succeeds_updateMempoolTx_iff {mempoolTx : DbMempoolTx String} {txId : Buffer}
    (decoded : hexToBuffer mempoolTx.txId = .ok txId) (db : Db) :
    Succeeds (updateMempoolTx db mempoolTx) ↔
      mempoolTx.toDbTxBase.admitted = true ∧ isInteger mempoolTx.receiptTime = true := by
  rw [succeeds_updateMempoolTx, mempoolTxRow, succeeds_bind_of_ok decoded, succeeds_admitRow_iff,
    DbMempoolTx.admitted, Bool.and_eq_true]
  rfl

/-- A transaction that was read is inserted when its addresses have texts and its fee,
its texts and the time of its receipt fit their columns. -/
theorem succeeds_insertMempoolTx_iff (plain : PlainTexts libraries.addresses) {buffer : Buffer}
    {decoded : DecodedMempoolTx CV} (decodedOk : decodeMempoolTx libraries buffer = .ok decoded)
    (receiptDate : Int) (db : Db) :
    Succeeds (insertMempoolTx libraries receiptDate db decoded) ↔
      (∀ address ∈ payloadAddresses decoded.txData.payload,
        Succeeds (addressText libraries.addresses address)) ∧
      MempoolFits decoded.txData ∧ isInteger receiptDate = true := by
  obtain ⟨tx, readOk, decodedOk⟩ := Except.bind_eq_ok.mp decodedOk
  obtain ⟨sender, senderOk, decodedOk⟩ := Except.bind_eq_ok.mp decodedOk
  obtain ⟨sponsor, sponsorOk, same⟩ := Except.bind_eq_ok.mp decodedOk
  cases same
  obtain ⟨feeRange, amountRange⟩ :
      IsU64 tx.auth.originCondition.feeRate ∧ SignedAmount tx.payload := by
    obtain ⟨⟨_, final⟩, ran, rfl⟩ := Except.map_eq_ok.mp readOk
    exact returns_transaction libraries.clarity _ _ final ran
  have amountFits : ∀ recipient amount memo, tx.payload = .tokenTransfer recipient amount memo →
      isBigint amount = true :=
    fun recipient amount memo kind => decide_eq_true (amountRange recipient amount memo kind)
  have stored : ∀ {columns : DbTxBase String}, extractTransactionPayload libraries.addresses tx
      (transactionColumns (bufferToHexPrefixString (libraries.digestSha512_256 buffer)) buffer
        .pending sender sponsor tx) = .ok columns →
      (Succeeds (updateMempoolTx db { toDbTxBase := columns, receiptTime := receiptDate }) ↔
        MempoolFits tx ∧ isInteger receiptDate = true) := by
    intro columns extracted
    have txId : columns.txId = bufferToHexPrefixString (libraries.digestSha512_256 buffer) :=
      (extractTransactionPayload_ok extracted).txId
    have decodedId : hexToBuffer columns.txId = .ok (libraries.digestSha512_256 buffer) := by
      rw [txId, hexToBuffer_bufferToHexPrefixString]
    have admitted := admitted_extracted_iff plain extracted (plain.publicKeyHash senderOk)
      (plain.sponsor sponsorOk) feeRange.1 amountFits
    have inserted := @succeeds_updateMempoolTx_iff
      { toDbTxBase := columns, receiptTime := receiptDate } _ decodedId db
    rw [inserted, admitted]
    exact and_congr_left' ⟨fun ⟨fee, texts⟩ => ⟨fee, texts⟩, fun ⟨fee, texts⟩ => ⟨fee, texts⟩⟩
  have extracts := @succeeds_extractTransactionPayload_iff CV libraries.addresses tx
    (transactionColumns (bufferToHexPrefixString (libraries.digestSha512_256 buffer)) buffer
      .pending sender sponsor tx) ⟨sender, senderOk⟩
  refine Iff.trans ?_ (and_congr_left' extracts)
  constructor
  · intro inserted
    obtain ⟨mempoolTx, created, inserted⟩ := succeeds_bind_iff.mp inserted
    obtain ⟨columns, extracted, same⟩ := Except.bind_eq_ok.mp created
    cases same
    exact ⟨⟨columns, extracted⟩, (stored extracted).mp inserted⟩
  · rintro ⟨⟨columns, extracted⟩, fits⟩
    exact succeeds_bind_iff.mpr ⟨_, Except.bind_eq_ok.mpr ⟨columns, extracted, rfl⟩,
      (stored extracted).mpr fits⟩

/-! ## A whole message -/

/-- A transaction whose insertion does not fail has a row afterwards. -/
theorem insertMempoolTx_stores {receiptDate : Int} {db db' : Db} {tx : DecodedMempoolTx CV}
    {events : List DataStoreEvent}
    (ok : insertMempoolTx libraries receiptDate db tx = .ok (db', events)) :
    db.mempoolTxs ⊆ db'.mempoolTxs ∧
      ∃ row ∈ db'.mempoolTxs, hexToBuffer tx.txId = .ok row.txId := by
  obtain ⟨mempoolTx, created, ok⟩ := Except.bind_eq_ok.mp ok
  obtain ⟨columns, extracted, same⟩ := Except.bind_eq_ok.mp created
  cases same
  have sameId : columns.txId = tx.txId := (extractTransactionPayload_ok extracted).txId
  obtain ⟨row, decoded, outcome⟩ := updateMempoolTx_ok ok
  have rowId : hexToBuffer tx.txId = .ok row.txId := sameId ▸ (mempoolTxRow_ok decoded).txId
  rcases outcome with ⟨⟨stored, mem, same⟩, rfl, -⟩ | ⟨-, rfl, -⟩
  · exact ⟨List.Subset.refl _, stored, mem, same ▸ rowId⟩
  · exact ⟨List.subset_append_left _ _, row, List.mem_append_right _ (List.mem_singleton_self _),
      rowId⟩

/-- Insertions that are all made leave a row of each transaction. -/
theorem insertEachMempoolTx_ok {receiptDate : Int} {txs : List (DecodedMempoolTx CV)}
    {db after : Db} (inserted : insertEachMempoolTx libraries receiptDate db txs = .ok after) :
    insertMempoolTxs libraries receiptDate db txs = after ∧ db.mempoolTxs ⊆ after.mempoolTxs ∧
      ∀ tx ∈ txs, ∃ row ∈ after.mempoolTxs, hexToBuffer tx.txId = .ok row.txId := by
  induction txs generalizing db with
  | nil =>
      cases inserted
      exact ⟨rfl, List.Subset.refl _, List.forall_mem_nil _⟩
  | cons tx txs ih =>
      rw [insertEachMempoolTx, List.foldlM_cons] at inserted
      obtain ⟨next, first, rest⟩ := Except.bind_eq_ok.mp inserted
      obtain ⟨⟨_, events⟩, firstOk, rfl⟩ := Except.map_eq_ok.mp first
      obtain ⟨same, kept, rows⟩ := ih rest
      obtain ⟨firstKept, row, mem, rowId⟩ := insertMempoolTx_stores firstOk
      refine ⟨?_, List.Subset.trans firstKept kept, ?_⟩
      · rw [insertMempoolTxs, firstOk]
        exact same
      · exact List.forall_mem_cons.mpr ⟨⟨row, kept mem, rowId⟩, rows⟩

theorem decodeMempoolTx_ok {buffer : Buffer} {decoded : DecodedMempoolTx CV}
    (ok : decodeMempoolTx libraries buffer = .ok decoded) :
    readBufferTransaction libraries buffer = .ok decoded.txData ∧
      hexToBuffer decoded.txId = .ok (libraries.digestSha512_256 buffer) := by
  obtain ⟨tx, readOk, ok⟩ := Except.bind_eq_ok.mp ok
  obtain ⟨sender, -, ok⟩ := Except.bind_eq_ok.mp ok
  obtain ⟨sponsor, -, same⟩ := Except.bind_eq_ok.mp ok
  cases same
  exact ⟨readOk, hexToBuffer_bufferToHexPrefixString _⟩

/-- What is read is decoded when its signers have texts. -/
theorem succeeds_decodeMempoolTx_iff {buffer : Buffer} {tx : Transaction CV}
    (readOk : readBufferTransaction libraries buffer = .ok tx) :
    Succeeds (decodeMempoolTx libraries buffer) ↔
      Succeeds (getTxSenderAddress libraries.addresses tx) ∧
        Succeeds (getTxSponsorAddress libraries.addresses tx) := by
  rw [decodeMempoolTx, succeeds_bind_of_ok readOk]
  exact succeeds_bind_of_iff fun _ => succeeds_bind_of_total fun _ => succeeds_pure _

/-- The decoded transactions are those that were read. -/
theorem map_txData_of_decoded {rawTxs : List String} {txs : List (Transaction CV)}
    {decoded : List (DecodedMempoolTx CV)} (accepted : readTransactions libraries rawTxs = .ok txs)
    (decodedOk : decodeMempoolTxs libraries rawTxs = .ok decoded) :
    decoded.map (fun tx => tx.txData) = txs := by
  obtain ⟨buffers, buffersOk, readOk⟩ := Except.bind_eq_ok.mp accepted
  obtain ⟨buffers', buffersOk', decodedOk⟩ := Except.bind_eq_ok.mp decodedOk
  rw [buffersOk] at buffersOk'
  cases buffersOk'
  have reads : buffers.mapM (readBufferTransaction libraries) =
      .ok (decoded.map fun tx => tx.txData) := by
    rw [mapM_eq_ok_iff, List.forall₂_map_right_iff]
    exact (mapM_eq_ok_iff.mp decodedOk).imp fun _ _ ok => (decodeMempoolTx_ok ok).1
  rw [reads] at readOk
  exact Except.ok.inj readOk

theorem succeeds_decodeMempoolTxs_iff {rawTxs : List String} {txs : List (Transaction CV)}
    (accepted : readTransactions libraries rawTxs = .ok txs) :
    Succeeds (decodeMempoolTxs libraries rawTxs) ↔
      ∀ tx ∈ txs, Succeeds (getTxSenderAddress libraries.addresses tx) ∧
        Succeeds (getTxSponsorAddress libraries.addresses tx) := by
  obtain ⟨buffers, buffersOk, readOk⟩ := Except.bind_eq_ok.mp accepted
  rw [decodeMempoolTxs, succeeds_bind_of_ok buffersOk, succeeds_mapM_iff]
  constructor
  · intro decodes tx mem
    obtain ⟨buffer, bufferMem, ok⟩ := mem_of_mapM_ok readOk mem
    exact (succeeds_decodeMempoolTx_iff ok).mp (decodes buffer bufferMem)
  · intro signers buffer mem
    obtain ⟨tx, txMem, ok⟩ := exists_of_mapM_ok readOk mem
    exact (succeeds_decodeMempoolTx_iff ok).mpr (signers tx txMem)

/-- A message of transactions that `readTransaction` accepts is handled to its end,
with a row for each of them, if and only if no fee is out of the signed range, no text
has a character with code zero, the addresses have texts and the clock is in range. -/
theorem insertsEvery_iff (plain : PlainTexts libraries.addresses) {rawTxs : List String}
    {txs : List (Transaction CV)} (accepted : readTransactions libraries rawTxs = .ok txs)
    (receiptDate : Int) (db : Db) :
    InsertsEvery libraries receiptDate db rawTxs ↔
      ∀ tx ∈ txs, Rendered libraries.addresses tx ∧ MempoolFits tx ∧
        isInteger receiptDate = true := by
  have inserts : ∀ decoded, decodeMempoolTxs libraries rawTxs = .ok decoded →
      (Succeeds (insertEachMempoolTx libraries receiptDate db decoded) ↔
        ∀ tx ∈ txs, (∀ address ∈ payloadAddresses tx.payload,
          Succeeds (addressText libraries.addresses address)) ∧
          MempoolFits tx ∧ isInteger receiptDate = true) := by
    intro decoded decodedOk
    rw [← map_txData_of_decoded accepted decodedOk, List.forall_mem_map]
    apply succeeds_foldlM_of_iff
    intro tx mem state
    obtain ⟨buffers, -, decodedOk⟩ := Except.bind_eq_ok.mp decodedOk
    obtain ⟨buffer, -, ok⟩ := mem_of_mapM_ok decodedOk mem
    rw [succeeds_map_iff]
    exact succeeds_insertMempoolTx_iff plain ok receiptDate state
  constructor
  · rintro ⟨completes, -⟩ tx mem
    obtain ⟨decoded, decodedOk, inserted⟩ := succeeds_bind_iff.mp completes
    obtain ⟨sender, sponsor⟩ := (succeeds_decodeMempoolTxs_iff accepted).mp ⟨_, decodedOk⟩ tx mem
    obtain ⟨payload, fits⟩ := (inserts decoded decodedOk).mp inserted tx mem
    exact ⟨⟨sender, sponsor, payload⟩, fits⟩
  · intro fits
    have decodes : Succeeds (decodeMempoolTxs libraries rawTxs) :=
      (succeeds_decodeMempoolTxs_iff accepted).mpr fun tx mem =>
        ⟨(fits tx mem).1.sender, (fits tx mem).1.sponsor⟩
    obtain ⟨decoded, decodedOk⟩ := decodes
    have completes : Succeeds (insertEachMempoolTx libraries receiptDate db decoded) :=
      (inserts decoded decodedOk).mpr fun tx mem => ⟨(fits tx mem).1.payload, (fits tx mem).2⟩
    obtain ⟨after, inserted⟩ := completes
    refine ⟨succeeds_bind_iff.mpr ⟨decoded, decodedOk, after, inserted⟩, ?_⟩
    intro rawTx mem buffer bufferOk
    obtain ⟨same, -, rows⟩ := insertEachMempoolTx_ok inserted
    have handled : handleMempoolTxsMessage libraries receiptDate db rawTxs = after := by
      rw [handleMempoolTxsMessage, decodedOk]
      exact same
    obtain ⟨buffers, buffersOk, decodedOk⟩ := Except.bind_eq_ok.mp decodedOk
    obtain ⟨buffer', bufferMem, bufferOk'⟩ := exists_of_mapM_ok buffersOk mem
    rw [bufferOk] at bufferOk'
    cases bufferOk'
    obtain ⟨tx, txMem, txOk⟩ := exists_of_mapM_ok decodedOk bufferMem
    obtain ⟨row, rowMem, rowId⟩ := rows tx txMem
    rw [(decodeMempoolTx_ok txOk).2] at rowId
    exact ⟨row, handled.symm ▸ rowMem, (Except.ok.inj rowId).symm⟩

/-- A transfer of a greater amount. -/
def greaterBuffer : Buffer :=
  encodeTransaction ClarityLibrary.booleans (sampleTransfer 2)

/-- Its digest. -/
def greaterTxId : Buffer :=
  [0xe1, 0xee, 0xa8, 0x03, 0x03, 0xfe, 0x49, 0xa8, 0xdf, 0xde, 0x73, 0xd2, 0x0c, 0x11, 0xc6, 0x7b,
    0xa7, 0xad, 0x2b, 0x54, 0x2c, 0x4b, 0xc0, 0x79, 0xdd, 0xda, 0x9b, 0x69, 0x67, 0x4b, 0x24, 0xcd]

/-- The digest at both transfers. -/
@[irreducible]
def transfersDigest (buffer : Buffer) : Buffer :=
  if buffer = greaterBuffer then greaterTxId else sampleDigest buffer

/-- The libraries at both transfers. -/
def transfersLibraries : Libraries Bool where
  clarity := ClarityLibrary.booleans
  addresses := AddressLibrary.zeroHash
  digestSha512_256 := transfersDigest

theorem readTransactions_transfers :
    readTransactions transfersLibraries
        [bufferToHexPrefixString sampleBuffer, bufferToHexPrefixString greaterBuffer] =
      .ok [(sampleTransfer 1).asRead ClarityLibrary.booleans,
        (sampleTransfer 2).asRead ClarityLibrary.booleans] := by
  have read : ∀ amount, IsU64 amount → readBufferTransaction transfersLibraries
      (encodeTransaction ClarityLibrary.booleans (sampleTransfer amount)) =
        .ok ((sampleTransfer amount).asRead ClarityLibrary.booleans) := fun amount range =>
    readBufferTransaction_encode transfersLibraries ClarityLibrary.booleans_roundTrips
      (sampleTransfer_wellFormed range)
  exact Except.bind_eq_ok.mpr ⟨[sampleBuffer, greaterBuffer],
    mapM_hexToBuffer_bufferToHexPrefixString [sampleBuffer, greaterBuffer],
    mapM_eq_ok_iff.mpr (.cons (read 1 ⟨by decide, by decide⟩)
      (.cons (read 2 ⟨by decide, by decide⟩) .nil))⟩

/-- Both transfers of a message are inserted. -/
theorem insertsEvery_transfers :
    InsertsEvery transfersLibraries 1594647997 Db.empty
      [bufferToHexPrefixString sampleBuffer, bufferToHexPrefixString greaterBuffer] := by
  have fits : ∀ amount, Rendered AddressLibrary.zeroHash
      ((sampleTransfer amount).asRead ClarityLibrary.booleans) ∧
        MempoolFits ((sampleTransfer amount).asRead ClarityLibrary.booleans) := by
    intro amount
    refine ⟨⟨⟨_, rfl⟩, ⟨_, rfl⟩, ?_⟩, (by decide : (180 : Int) < 2 ^ 63), List.forall_mem_nil _⟩
    intro address mem
    rw [List.mem_singleton.mp mem]
    exact ⟨_, rfl⟩
  refine (@insertsEvery_iff Bool transfersLibraries plainTexts_zeroHash _ _
    readTransactions_transfers 1594647997 Db.empty).mpr ?_
  simp only [List.forall_mem_cons]
  exact ⟨⟨(fits 1).1, (fits 1).2, by decide⟩, ⟨(fits 2).1, (fits 2).2, by decide⟩,
    List.forall_mem_nil _⟩

/-! ## A fee out of the signed range -/

/-- The transfer with a fee of `2 ^ 63` micro-STX. -/
def largeFeeTransfer : Transaction Bool :=
  { sampleTransfer 1 with
    auth := .standard (.singleSig
      { hashMode := .p2pkh, signer := List.replicate 20 0, nonce := 0, feeRate := 2 ^ 63,
        keyEncoding := 0, signature := List.replicate 65 0 }) }

/-- The encoding of the transfer. -/
def largeFeeBuffer : Buffer :=
  encodeTransaction ClarityLibrary.booleans largeFeeTransfer

/-- The digest of the transfer with the large fee. -/
def largeFeeTxId : Buffer :=
  [0xc6, 0x7a, 0xa6, 0x3b, 0x91, 0x10, 0x9c, 0x42, 0x3f, 0x09, 0x37, 0xc7, 0xa8, 0x5b, 0x30, 0xed,
    0x2c, 0x52, 0xbe, 0x8f, 0xd6, 0x53, 0xa4, 0x0f, 0xdf, 0xf6, 0x28, 0x1b, 0x73, 0x39, 0xb8, 0x32]

/-- The digest at both transfers. -/
@[irreducible]
def largeFeeDigest (buffer : Buffer) : Buffer :=
  if buffer = largeFeeBuffer then largeFeeTxId else sampleDigest buffer

/-- The libraries with the digests of both transfers. -/
def largeFeeLibraries : Libraries Bool where
  clarity := ClarityLibrary.booleans
  addresses := AddressLibrary.zeroHash
  digestSha512_256 := largeFeeDigest

theorem largeFeeTransfer_wellFormed : largeFeeTransfer.WellFormed :=
  { sampleTransfer_wellFormed (show IsU64 1 from ⟨by decide, by decide⟩) with
    auth := ⟨List.length_replicate, ⟨by decide, by decide⟩, ⟨by decide, by decide⟩, by decide,
      List.length_replicate⟩ }

theorem readBufferTransaction_largeFeeBuffer :
    readBufferTransaction largeFeeLibraries largeFeeBuffer =
      .ok (largeFeeTransfer.asRead ClarityLibrary.booleans) :=
  readBufferTransaction_encode largeFeeLibraries ClarityLibrary.booleans_roundTrips
    largeFeeTransfer_wellFormed

/-- The transfer with the large fee as decoded. -/
def largeFeeDecoded : DecodedMempoolTx Bool where
  txId := bufferToHexPrefixString (largeFeeDigest largeFeeBuffer)
  sender := "ST000000000000000000002AMW42H"
  sponsorAddress := none
  txData := largeFeeTransfer.asRead ClarityLibrary.booleans
  rawTx := largeFeeBuffer

/-- The transfer after it in the message. -/
def laterDecoded : DecodedMempoolTx Bool :=
  { sampleDecoded with txId := bufferToHexPrefixString (largeFeeDigest sampleBuffer) }

theorem decodeMempoolTx_largeFee :
    decodeMempoolTx largeFeeLibraries largeFeeBuffer = .ok largeFeeDecoded ∧
      decodeMempoolTx largeFeeLibraries sampleBuffer = .ok laterDecoded := by
  constructor
  · rw [decodeMempoolTx, readBufferTransaction_largeFeeBuffer]
    rfl
  · have read : readBufferTransaction largeFeeLibraries sampleBuffer =
        .ok ((sampleTransfer 1).asRead ClarityLibrary.booleans) :=
      readBufferTransaction_sampleBuffer
    rw [decodeMempoolTx, read]
    rfl

/-- `readTransaction` accepts a transfer with a large fee and one with a small fee.  When
both are in a message, in this order, the insertion of the first fails, as its fee is out
of range, and the second is dropped, which a message of its own would have inserted. -/
theorem handleMempoolTxsMessage_largeFee :
    readTransactions largeFeeLibraries
        [bufferToHexPrefixString largeFeeBuffer, bufferToHexPrefixString sampleBuffer] =
      .ok [largeFeeTransfer.asRead ClarityLibrary.booleans,
        (sampleTransfer 1).asRead ClarityLibrary.booleans] ∧
    isBigint largeFeeTransfer.auth.originCondition.feeRate = false ∧
    handleMempoolTxsMessage largeFeeLibraries 1594647997 Db.empty
        [bufferToHexPrefixString largeFeeBuffer, bufferToHexPrefixString sampleBuffer] = Db.empty ∧
    handleMempoolTxsMessage largeFeeLibraries 1594647997 Db.empty
        [bufferToHexPrefixString sampleBuffer] =
      { Db.empty with mempoolTxs := [sampleMempoolRow] } ∧
    ¬InsertsEvery largeFeeLibraries 1594647997 Db.empty
      [bufferToHexPrefixString largeFeeBuffer, bufferToHexPrefixString sampleBuffer] := by
  obtain ⟨largeFee, later⟩ := decodeMempoolTx_largeFee
  have accepted : readTransactions largeFeeLibraries
      [bufferToHexPrefixString largeFeeBuffer, bufferToHexPrefixString sampleBuffer] =
        .ok [largeFeeTransfer.asRead ClarityLibrary.booleans,
          (sampleTransfer 1).asRead ClarityLibrary.booleans] :=
    Except.bind_eq_ok.mpr ⟨[largeFeeBuffer, sampleBuffer],
      mapM_hexToBuffer_bufferToHexPrefixString [largeFeeBuffer, sampleBuffer],
      mapM_eq_ok_iff.mpr (.cons readBufferTransaction_largeFeeBuffer
        (.cons (decodeMempoolTx_ok later).1 .nil))⟩
  have both : decodeMempoolTxs largeFeeLibraries
      [bufferToHexPrefixString largeFeeBuffer, bufferToHexPrefixString sampleBuffer] =
        .ok [largeFeeDecoded, laterDecoded] :=
    decodeMempoolTxs_map [largeFeeBuffer, sampleBuffer] (.cons largeFee (.cons later .nil))
  have alone : decodeMempoolTxs largeFeeLibraries [bufferToHexPrefixString sampleBuffer] =
      .ok [laterDecoded] := decodeMempoolTxs_map [sampleBuffer] (.cons later .nil)
  have dropped : handleMempoolTxsMessage largeFeeLibraries 1594647997 Db.empty
      [bufferToHexPrefixString largeFeeBuffer, bufferToHexPrefixString sampleBuffer] =
        Db.empty := by
    rw [handleMempoolTxsMessage, both]
    decide +kernel
  refine ⟨accepted, by decide, dropped, ?_, ?_⟩
  · rw [handleMempoolTxsMessage, alone]
    decide +kernel
  · rintro ⟨-, stored⟩
    obtain ⟨row, mem, -⟩ := stored _ List.mem_cons_self largeFeeBuffer
      (hexToBuffer_bufferToHexPrefixString _)
    rw [dropped] at mem
    exact List.not_mem_nil mem

end StacksApi.EventStream
