import StacksApi.Controllers.DbController
import StacksApi.Datastore.Mempool
import StacksApi.EventStream.Handed

/-!
# Pending and mined transactions

Runs of the event server in which no message brings an id to both sides at once:
no coinbase transaction of a new tip is pending, and no mempool transaction is
mined on the canonical chain already.  In such a run nothing that is mined on the
canonical chain is reported as pending.
-/

namespace StacksApi.EventStream

open StacksApi.Binary
open StacksApi.P2p
open StacksApi.Relational
open StacksApi.Datastore
open StacksApi.Controllers
open StacksApi.Transition

variable {CV : Type} {libraries : Libraries CV}

/-! ## Statuses -/

/-- Transactions in blocks are not pending. -/
def MinedSettled (db : Db) : Prop :=
  ∀ tx ∈ db.txs, tx.status ≠ .pending

theorem getTxDbStatus_ne_pending {txCoreStatus : String} {status : DbTxStatus}
    (known : getTxDbStatus txCoreStatus = .ok status) : status ≠ .pending := by
  rw [getTxDbStatus] at known
  split at known
  · cases known
    decide
  · split at known
    · cases known
      decide
    · split at known
      · cases known
        decide
      · cases known

theorem EntryOf.status_ne_pending {msg : CoreNodeMessage} {coreTx : CoreNodeTxMessage}
    {entry : TxEntry} (entryOf : EntryOf libraries msg coreTx entry) :
    entry.tx.status ≠ .pending := by
  obtain ⟨tx, recordOf, -, -⟩ := entryOf
  obtain ⟨status, known, shared⟩ := recordOf.shared
  rw [shared.status]
  exact getTxDbStatus_ne_pending known

theorem MinedSettled.update {db reorged pruned db' : Db} {msg : CoreNodeMessage}
    {data : DataStoreUpdateData} {row : DbBlock Buffer} (settled : MinedSettled db)
    (handed : messageData libraries msg = .ok data)
    (accepted : Accepted db data reorged pruned row db') : MinedSettled db' := by
  intro tx mem
  rcases accepted.tx_cases mem with ⟨original, originalMem, same⟩ | ⟨entry, entryMem, recorded⟩
  · have sameStatus : original.status = tx.status := congrArg (fun tx => tx.status) same
    rw [← sameStatus]
    exact settled original originalMem
  · obtain ⟨coreTx, -, entryOf⟩ := exists_entryOf handed entryMem
    rw [recorded.status]
    exact entryOf.status_ne_pending

/-! ## Messages -/

/-- The id of a decoded mempool transaction is its digest. -/
theorem decodeMempoolTx_txId {buffer : Buffer} {tx : DecodedMempoolTx CV}
    (decoded : decodeMempoolTx libraries buffer = .ok tx) :
    tx.txId = bufferToHexPrefixString (libraries.digestSha512_256 tx.rawTx) := by
  obtain ⟨parsedTx, -, decoded⟩ := Except.bind_eq_ok.mp decoded
  obtain ⟨txSender, -, decoded⟩ := Except.bind_eq_ok.mp decoded
  obtain ⟨sponsorAddress, -, decoded⟩ := Except.bind_eq_ok.mp decoded
  cases decoded
  rfl

theorem insertMempoolTx_txId {receiptDate : Int} {db db' : Db} {tx : DecodedMempoolTx CV}
    {events : List DataStoreEvent}
    (ok : insertMempoolTx libraries receiptDate db tx = .ok (db', events)) :
    ∃ row, hexToBuffer tx.txId = .ok row.txId ∧
      (db' = db ∨ db' = { db with mempoolTxs := db.mempoolTxs ++ [row] }) := by
  obtain ⟨mempoolTx, row, created, decoded, outcome⟩ := insertMempoolTx_ok libraries ok
  obtain ⟨columns, extracted, same⟩ := Except.bind_eq_ok.mp created
  cases same
  have txId := (mempoolTxRow_ok decoded).txId
  have sameId : columns.txId = tx.txId := (extractTransactionPayload_ok extracted).txId
  exact ⟨row, sameId ▸ txId, outcome⟩

/-- What keeps the mempool apart from the canonical chain: a block that becomes
the tip has no coinbase transaction that is pending, and a mempool message whose
transactions can all be decoded has none that is mined on the canonical chain. -/
def KeepsApart (libraries : Libraries CV) (db : Db) : ServerMessage → Prop
  | .newBlock msg => (getChainTipHeight db).blockHeight < msg.blockHeight →
      ∀ coreTx ∈ msg.transactions, ∀ tx, readBufferTransaction libraries coreTx.txBuffer = .ok tx →
        tx.payload.typeId = .coinbase →
          ∀ pending ∈ db.mempoolTxs, hexToBuffer coreTx.txid ≠ .ok pending.txId
  | .newMempoolTx _ rawTxs => ∀ txs, decodeMempoolTxs libraries rawTxs = .ok txs → ∀ tx ∈ txs,
      ∀ mined ∈ db.txs, mined.canonical = true →
        libraries.digestSha512_256 tx.rawTx ≠ mined.txId

theorem coinbasesNotPending {db : Db} {msg : CoreNodeMessage} {data : DataStoreUpdateData}
    (handed : messageData libraries msg = .ok data)
    (apart : KeepsApart libraries db (.newBlock msg)) : CoinbasesNotPending db data := by
  intro high entry mem isCoinbase
  obtain ⟨coreTx, coreMem, tx, recordOf, -, -⟩ := exists_entryOf handed mem
  obtain ⟨status, -, shared⟩ := recordOf.shared
  have block := (messageData_ok handed).1
  have sameType : dbTxTypeId tx.payload.typeId = .coinbase := shared.typeId.symm.trans isCoinbase
  have isCoinbase' : tx.payload.typeId = .coinbase := by
    cases payload : tx.payload.typeId <;> rw [payload] at sameType <;> first | rfl | cases sameType
  rw [shared.txId]
  rw [Heightens, block] at high
  exact apart high coreTx coreMem tx recordOf.read isCoinbase'

theorem receive_mempoolDisjoint {db : Db} {message : ServerMessage}
    (holds : MempoolDisjoint db ∧ MinedSettled db) (apart : KeepsApart libraries db message) :
    MempoolDisjoint (receive libraries db message) ∧
      MinedSettled (receive libraries db message) := by
  apply receive_invariant (P := fun after => MempoolDisjoint after ∧ MinedSettled after) libraries
    holds
  · rintro msg rfl data handed db' events accepted
    obtain ⟨-, reorged, pruned, row, accepted⟩ := update_ok accepted
    exact ⟨holds.1.update accepted (coinbasesNotPending handed apart),
      holds.2.update handed accepted⟩
  · rintro receiptDate rawTxs rfl txs decoded tx mem pool after events ⟨disjoint, settled⟩ inserted
    obtain ⟨row, rowId, rfl | rfl⟩ := insertMempoolTx_txId inserted
    · exact ⟨disjoint, settled⟩
    · refine ⟨disjoint.insert ?_, settled⟩
      obtain ⟨buffers, -, decodedAll⟩ := Except.bind_eq_ok.mp decoded
      obtain ⟨buffer, -, decodedTx⟩ := mem_of_mapM_ok decodedAll mem
      rw [decodeMempoolTx_txId decodedTx, hexToBuffer_bufferToHexPrefixString] at rowId
      rw [← Except.ok.inj rowId]
      exact apart txs decoded tx mem

/-! ## Runs -/

/-- The store reports nothing as pending that is mined on the canonical chain. -/
def MinedNotPending (libraries : Libraries CV) (db : Db) : Prop :=
  ∀ (Ty : Type) (abis : AbiLibrary Ty) txId tx reported, tx ∈ db.txs → tx.canonical = true →
    hexToBuffer txId = .ok tx.txId →
      getTxFromDataStore libraries.clarity libraries.addresses abis txId db = .ok (some reported) →
        reported.txStatus ≠ "pending"

theorem minedNotPending {db : Db} (disjoint : MempoolDisjoint db) (settled : MinedSettled db) :
    MinedNotPending libraries db := by
  intro Ty abis txId tx reported mem canonical txIdOk ok
  obtain ⟨buffer, status, decoded, found, txStatus⟩ := getTxFromDataStore_ok ok
  rw [txIdOk] at decoded
  cases decoded
  have notPending : status ≠ .pending := by
    rcases found with ⟨pending, pendingMem, same, -⟩ | ⟨-, row, foundRow, rfl⟩
    · exact absurd same (disjoint tx mem canonical pending pendingMem)
    · exact settled row foundRow.mem
  rw [txStatus]
  exact fun same => notPending (getTxStatusString_injective same)

/-- After every message of a run whose messages keep the mempool apart, no id is
both pending and mined on the canonical chain. -/
theorem runServer_mempoolDisjoint {messages past : List ServerMessage}
    (apart : ∀ earlier message, earlier ++ [message] <+: messages →
      KeepsApart libraries (runServer libraries earlier) message)
    (isPrefix : past <+: messages) :
    MempoolDisjoint (runServer libraries past) ∧
      MinedNotPending libraries (runServer libraries past) := by
  have holds : MempoolDisjoint (runServer libraries past) ∧
      MinedSettled (runServer libraries past) := by
    apply runServer_invariant (P := fun db => MempoolDisjoint db ∧ MinedSettled db)
      (Q := KeepsApart libraries) libraries
    · exact ⟨MempoolDisjoint.empty, fun tx mem => nomatch mem⟩
    · exact fun db message holds apart => receive_mempoolDisjoint holds apart
    · exact fun earlier message earlierPrefix =>
        apart earlier message (earlierPrefix.trans isPrefix)
  exact ⟨holds.1, minedNotPending holds.1 holds.2⟩

/-! ## A transfer in both tables -/

/-- The digest of the encoded transfer of one micro-STX. -/
def sampleTxId : Buffer :=
  [0x93, 0x18, 0x4e, 0x6f, 0xea, 0x03, 0xa9, 0x4e, 0x97, 0xf6, 0x35, 0x6f, 0x30, 0xbe, 0xd9, 0x09,
    0x9c, 0x50, 0x9d, 0xd8, 0x11, 0xd5, 0x2f, 0x81, 0x4e, 0x84, 0xf2, 0x4b, 0x03, 0x79, 0x2e, 0x9d]

/-- The encoding of the transfer. -/
def sampleBuffer : Buffer :=
  encodeTransaction ClarityLibrary.booleans (sampleTransfer 1)

/-- The digest at the encoded transfer. -/
@[irreducible]
def sampleDigest (buffer : Buffer) : Buffer :=
  if buffer = sampleBuffer then sampleTxId else []

/-- The libraries with the digest of the transfer. -/
def sampleLibraries : Libraries Bool where
  clarity := ClarityLibrary.booleans
  addresses := AddressLibrary.zeroHash
  digestSha512_256 := sampleDigest

/-- The transfer in a block message. -/
def sampleCoreTx : CoreNodeTxMessage where
  rawTx := bufferToHexPrefixString sampleBuffer
  status := "success"
  rawResult := "0x03"
  txid := bufferToHexPrefixString sampleTxId
  txIndex := 0
  contractAbi := "null"

/-- A block message with the transfer. -/
def sampleBlock : CoreNodeMessage where
  blockHash := "0x11"
  blockHeight := 1
  burnBlockTime := 1594647996
  indexBlockHash := "0x11"
  parentIndexBlockHash := "0x00"
  parentBlockHash := "0x00"
  parentMicroblock := "0x"
  events := []
  transactions := [sampleCoreTx]

/-- The transfer in a mempool message. -/
def sampleMempoolMessage : ServerMessage :=
  .newMempoolTx 1594647997 [bufferToHexPrefixString sampleBuffer]

theorem readBufferTransaction_sampleBuffer : readBufferTransaction sampleLibraries sampleBuffer =
    .ok ((sampleTransfer 1).asRead ClarityLibrary.booleans) :=
  readBufferTransaction_encode sampleLibraries ClarityLibrary.booleans_roundTrips
    (sampleTransfer_wellFormed ⟨by decide, by decide⟩)

theorem txBuffer_sampleCoreTx : sampleCoreTx.txBuffer = sampleBuffer :=
  (show sampleCoreTx.Encodes sampleLibraries (sampleTransfer 1) from rfl).txBuffer

/-- First pending, then mined: the run of a transaction as it should be. -/
theorem runServer_pendingThenMined :
    MempoolDisjoint (runServer sampleLibraries [sampleMempoolMessage, .newBlock sampleBlock]) ∧
      MinedNotPending sampleLibraries
        (runServer sampleLibraries [sampleMempoolMessage, .newBlock sampleBlock]) := by
  refine runServer_mempoolDisjoint ?_ (List.prefix_refl _)
  intro earlier message isPrefix
  rcases append_singleton_prefix_cons.mp isPrefix with ⟨rfl, rfl⟩ | ⟨later, rfl, second⟩
  · exact fun txs decoded tx mem mined minedMem => nomatch minedMem
  · rcases append_singleton_prefix_cons.mp second with ⟨rfl, rfl⟩ | ⟨last, rfl, third⟩
    · intro _ coreTx mem tx read isCoinbase
      obtain rfl : coreTx = sampleCoreTx := List.mem_singleton.mp mem
      rw [txBuffer_sampleCoreTx, readBufferTransaction_sampleBuffer] at read
      cases read
      cases isCoinbase
    · simp at third

/-- The columns of the transfer in both tables. -/
def sampleColumns {ι : Type} (txId : ι) (status : DbTxStatus) : DbTxBase ι where
  txId := txId
  rawTx := sampleBuffer
  typeId := .tokenTransfer
  status := status
  postConditions := [2, 0, 0, 0, 0]
  feeRate := 180
  senderAddress := "ST000000000000000000002AMW42H"
  originHashMode := 0
  sponsored := false
  sponsorAddress := none
  tokenTransferRecipientAddress := some "ST000000000000000000002AMW42H"
  tokenTransferAmount := some 1
  tokenTransferMemo := some (List.replicate 34 0)

/-- What is parsed of the transfer in the block. -/
def sampleParsed : CoreNodeParsedTxMessage Bool where
  coreTx := sampleCoreTx
  parsedTx := (sampleTransfer 1).asRead ClarityLibrary.booleans
  rawTx := sampleBuffer
  senderAddress := "ST000000000000000000002AMW42H"
  sponsorAddress := none
  blockHash := "0x11"
  indexBlockHash := "0x11"
  blockHeight := 1
  burnBlockTime := 1594647996

/-- The entry of the transfer. -/
def sampleEntry : TxEntry where
  tx :=
    { toDbTxBase := sampleColumns (bufferToHexPrefixString sampleTxId) .success
      indexBlockHash := "0x11"
      blockHash := "0x11"
      blockHeight := 1
      burnBlockTime := 1594647996
      txIndex := 0
      rawResult := some "0x03"
      canonical := true }
  stxEvents := []
  ftEvents := []
  nftEvents := []
  contractLogEvents := []
  smartContracts := []

theorem messageData_sampleBlock : messageData sampleLibraries sampleBlock =
    .ok { block := messageBlock sampleBlock, txs := [sampleEntry] } := by
  have parsed : parseMessageTransaction sampleLibraries sampleBlock sampleCoreTx =
      .ok sampleParsed := by
    rw [parseMessageTransaction, txBuffer_sampleCoreTx, readBufferTransaction_sampleBuffer]
    rfl
  have all : parseMessageTransactions sampleLibraries sampleBlock = .ok [sampleParsed] :=
    mapM_eq_ok_iff.mpr (.cons parsed .nil)
  rw [messageData, all]
  rfl

/-- The row of the block. -/
def sampleBlockRow : DbBlock Buffer where
  blockHash := [0x11]
  burnBlockTime := 1594647996
  indexBlockHash := [0x11]
  parentIndexBlockHash := [0x00]
  parentBlockHash := [0x00]
  parentMicroblock := []
  blockHeight := 1
  canonical := true

/-- The row of the mined transfer. -/
def sampleTxRow : DbTx Buffer :=
  { toDbTxBase := sampleColumns sampleTxId .success
    indexBlockHash := [0x11]
    blockHash := [0x11]
    blockHeight := 1
    burnBlockTime := 1594647996
    txIndex := 0
    rawResult := some [0x03]
    canonical := true }

/-- The row of the pending transfer. -/
def sampleMempoolRow : DbMempoolTx Buffer :=
  { toDbTxBase := sampleColumns sampleTxId .pending
    receiptTime := 1594647997 }

/-- The transfer as decoded from the mempool message. -/
def sampleDecoded : DecodedMempoolTx Bool where
  txId := bufferToHexPrefixString (sampleDigest sampleBuffer)
  sender := "ST000000000000000000002AMW42H"
  sponsorAddress := none
  txData := (sampleTransfer 1).asRead ClarityLibrary.booleans
  rawTx := sampleBuffer

/-- The tables with the transfer on both sides. -/
def minedAndPending : Db :=
  { Db.empty with
    blocks := [sampleBlockRow]
    txs := [sampleTxRow]
    mempoolTxs := [sampleMempoolRow] }

/-- The tables after a block message whose update is accepted. -/
theorem receive_of_update {db after : Db} {msg : CoreNodeMessage} {data : DataStoreUpdateData}
    (handed : messageData libraries msg = .ok data)
    (updated : (update db data).map Prod.fst = .ok after) :
    receive libraries db (.newBlock msg) = after := by
  obtain ⟨⟨after', events⟩, accepted, same⟩ := Except.map_eq_ok.mp updated
  have handled : handleClientMessage libraries db msg = .ok (after', events) :=
    Except.bind_eq_ok.mpr ⟨_, handed, accepted⟩
  exact (commit_of_ok handled).trans same

theorem receive_sampleBlock : receive sampleLibraries Db.empty (.newBlock sampleBlock) =
    { Db.empty with blocks := [sampleBlockRow], txs := [sampleTxRow] } :=
  receive_of_update messageData_sampleBlock (by decide +kernel)

/-- First mined, then pending: the transaction stands in both tables. -/
theorem runServer_minedThenPending :
    runServer sampleLibraries [.newBlock sampleBlock, sampleMempoolMessage] =
      minedAndPending := by
  have single : decodeMempoolTx sampleLibraries sampleBuffer = .ok sampleDecoded := by
    rw [decodeMempoolTx, readBufferTransaction_sampleBuffer]
    rfl
  have decoded : decodeMempoolTxs sampleLibraries [bufferToHexPrefixString sampleBuffer] =
      .ok [sampleDecoded] := decodeMempoolTxs_map [sampleBuffer] (.cons single .nil)
  rw [runServer, List.foldl_cons, List.foldl_cons, List.foldl_nil, receive_sampleBlock,
    sampleMempoolMessage, receive, handleMempoolTxsMessage, decoded]
  decide +kernel

/-- The transfer as the interface shows it. -/
def sampleReported : Controllers.Transaction where
  txId := bufferToHexPrefixString sampleTxId
  txType := "token_transfer"
  feeRate := "180"
  senderAddress := "ST000000000000000000002AMW42H"
  sponsored := false
  sponsorAddress := none
  postConditionMode := .deny
  txStatus := "pending"
  inclusion := none
  receipt := some (1594647997, "2020-07-13T13:46:37.000Z")
  details := .tokenTransfer "ST000000000000000000002AMW42H" "1"
    "0x00000000000000000000000000000000000000000000000000000000000000000000"
  events := some []

/-- The mined transfer is reported as pending. -/
theorem minedThenPending_reported :
    runServer sampleLibraries [.newBlock sampleBlock, sampleMempoolMessage] = minedAndPending ∧
      ¬MempoolDisjoint minedAndPending ∧ ¬MinedNotPending sampleLibraries minedAndPending := by
  refine ⟨runServer_minedThenPending, ?_, ?_⟩
  · intro disjoint
    exact disjoint sampleTxRow (List.mem_singleton_self _) rfl sampleMempoolRow
      (List.mem_singleton_self _) rfl
  · intro settled
    have reported : getTxFromDataStore ClarityLibrary.booleans AddressLibrary.zeroHash
      AbiLibrary.null
        (bufferToHexPrefixString sampleTxId) minedAndPending = .ok (some sampleReported) := by
      decide +kernel
    exact settled Unit AbiLibrary.null (bufferToHexPrefixString sampleTxId) sampleTxRow
      sampleReported
      (List.mem_singleton_self _) rfl (hexToBuffer_bufferToHexPrefixString _) reported rfl

end StacksApi.EventStream
