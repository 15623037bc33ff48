import StacksApi.EventStream.MempoolRun
import StacksApi.P2p.Truncated

/-!
# Truncated transactions in messages

When the transaction that a message carries was cut short, the message is
rejected as a whole, unless the cut stands in the field at the end of the payload,
which is then stored shortened.
-/

namespace StacksApi.EventStream

open StacksApi.Binary
open StacksApi.P2p
open StacksApi.Datastore
open StacksApi.Transition

variable {CV : Type} {libraries : Libraries CV}

/-- `readTransaction` throws on the bytes, so that no message that contains them is
stored. -/
structure Rejected (libraries : Libraries CV) (bytes : Buffer) : Prop where
  read : ∃ error, (readTransaction libraries.clarity).run (BufferReader.fromBuffer bytes) =
    .error error
  mempool : ∀ receiptDate db rawTxs, (∃ rawTx ∈ rawTxs, hexToBuffer rawTx = .ok bytes) →
    handleMempoolTxsMessage libraries receiptDate db rawTxs = db
  block : ∀ msg : CoreNodeMessage, (∃ coreTx ∈ msg.transactions, coreTx.txBuffer = bytes) →
    ¬Succeeds (parseMessageTransactions libraries msg)

/-- What `readTransaction` throws on is stored by no message. -/
theorem rejected_iff {bytes : Buffer} :
    Rejected libraries bytes ↔
      ∃ error, (readTransaction libraries.clarity).run (BufferReader.fromBuffer bytes) =
        .error error := by
  refine ⟨Rejected.read, fun refused => ⟨refused, ?_, ?_⟩⟩
  all_goals
    obtain ⟨error, refused⟩ := refused
    have unread : readBufferTransaction libraries bytes = .error error := by
      rw [readBufferTransaction, refused]
      rfl
  · rintro receiptDate db rawTxs ⟨rawTx, mem, decoded⟩
    have undecoded : ¬Succeeds (decodeMempoolTxs libraries rawTxs) := by
      rintro ⟨txs, ok⟩
      obtain ⟨buffers, buffersOk, ok⟩ := Except.bind_eq_ok.mp ok
      obtain ⟨buffer, bufferMem, bufferOk⟩ := exists_of_mapM_ok buffersOk mem
      rw [decoded] at bufferOk
      cases bufferOk
      obtain ⟨tx, -, txOk⟩ := exists_of_mapM_ok ok bufferMem
      rw [decodeMempoolTx, unread] at txOk
      cases txOk
    rw [handleMempoolTxsMessage]
    split
    · next txs ok => exact absurd ⟨txs, ok⟩ undecoded
    · rfl
  · rintro msg ⟨coreTx, mem, rfl⟩ ⟨parsed, ok⟩
    obtain ⟨parsedTx, -, txOk⟩ := exists_of_mapM_ok ok mem
    rw [parseMessageTransaction, unread] at txOk
    cases txOk

/-- A proper prefix of the encoding of a well-formed transaction is rejected if and
only if more is missing than the field at the end of the payload. -/
theorem rejected_truncated_iff (inverts : libraries.clarity.RoundTrips)
    (truncated : RefusesTruncated libraries.clarity) {tx : Transaction CV} (valid : tx.WellFormed)
    {length : Nat} (proper : length < (encodeTransaction libraries.clarity tx).length) :
    Rejected libraries ((encodeTransaction libraries.clarity tx).take length) ↔
      length + tx.payload.trailing.length < (encodeTransaction libraries.clarity tx).length :=
  rejected_iff.trans (readTransaction_take_error_iff inverts truncated valid proper)

theorem length_sampleBuffer : sampleBuffer.length = 180 := by
  decide +kernel

/-- The transfer without its last hundred bytes. -/
theorem rejected_sampleBuffer : Rejected sampleLibraries (sampleBuffer.take 80) := by
  have proper : 80 < sampleBuffer.length := by
    rw [length_sampleBuffer]
    decide
  have before : 80 + (sampleTransfer 1).payload.trailing.length < sampleBuffer.length := by
    rw [length_sampleBuffer]
    decide
  exact (@rejected_truncated_iff Bool sampleLibraries ClarityLibrary.booleans_roundTrips
    booleans_refusesTruncated _ (sampleTransfer_wellFormed ⟨by decide, by decide⟩) _ proper).mpr
      before

/-! ## A shortened memo -/

/-- The transfer without its last byte. -/
def cutBuffer : Buffer :=
  sampleBuffer.take 179

/-- The digest of the transfer without its last byte. -/
def cutTxId : Buffer :=
  [0xca, 0x2e, 0xfd, 0x2b, 0x4b, 0xd1, 0xf9, 0x0b, 0xe0, 0x56, 0xb2, 0x4d, 0xac, 0xb8, 0x30, 0xbf,
    0x03, 0xed, 0xbf, 0x89, 0x3c, 0x26, 0x82, 0x76, 0x95, 0x84, 0xfa, 0xd9, 0x78, 0x78, 0xd2, 0x04]

/-- The digest at the encoding that is cut. -/
@[irreducible]
def cutDigest (buffer : Buffer) : Buffer :=
  if buffer = cutBuffer then cutTxId else []

/-- The libraries with that digest. -/
def cutLibraries : Libraries Bool where
  clarity := ClarityLibrary.booleans
  addresses := AddressLibrary.zeroHash
  digestSha512_256 := cutDigest

/-- The mempool row of the transfer without its last byte. -/
def cutMempoolRow : DbMempoolTx Buffer :=
  { toDbTxBase :=
      { sampleColumns cutTxId .pending with
        rawTx := cutBuffer
        tokenTransferMemo := some (List.replicate 33 0) }
    receiptTime := 1594647997 }

/-- What the transfer without its last byte is read as. -/
def cutTransfer : Transaction Bool :=
  { (sampleTransfer 1).withRawBytes ClarityLibrary.booleans with
    payload := .tokenTransfer (.standard { version := 26, bytes := List.replicate 20 0 }) 1
      (List.replicate 33 0) }

theorem readTransaction_cutBuffer :
    readBufferTransaction cutLibraries cutBuffer = .ok cutTransfer := by
  decide +kernel

/-- A transfer whose last byte was cut off is not rejected but stored, with a memo of
33 bytes. -/
theorem handleMempoolTxsMessage_cutBuffer :
    (sampleTransfer 1).WellFormed ∧ ClarityLibrary.booleans.RoundTrips ∧
      RefusesTruncated ClarityLibrary.booleans ∧
      179 < (encodeTransaction ClarityLibrary.booleans (sampleTransfer 1)).length ∧
      ¬Rejected cutLibraries
        ((encodeTransaction ClarityLibrary.booleans (sampleTransfer 1)).take 179) ∧
      handleMempoolTxsMessage cutLibraries 1594647997 Db.empty
          [bufferToHexPrefixString
            ((encodeTransaction ClarityLibrary.booleans (sampleTransfer 1)).take 179)] =
        { Db.empty with mempoolTxs := [cutMempoolRow] } := by
  have decoded : decodeMempoolTxs cutLibraries [bufferToHexPrefixString cutBuffer] =
      .ok [{ txId := bufferToHexPrefixString (cutDigest cutBuffer)
             sender := "ST000000000000000000002AMW42H"
             sponsorAddress := none
             txData := cutTransfer
             rawTx := cutBuffer }] := by
    refine decodeMempoolTxs_map [cutBuffer] (.cons ?_ .nil)
    rw [decodeMempoolTx, readTransaction_cutBuffer]
    rfl
  have stored : handleMempoolTxsMessage cutLibraries 1594647997 Db.empty
      [bufferToHexPrefixString cutBuffer] = { Db.empty with mempoolTxs := [cutMempoolRow] } := by
    rw [handleMempoolTxsMessage, decoded]
    decide +kernel
  refine ⟨sampleTransfer_wellFormed ⟨by decide, by decide⟩, ClarityLibrary.booleans_roundTrips,
    booleans_refusesTruncated, by decide +kernel, ?_, stored⟩
  intro rejected
  have kept := rejected.mempool 1594647997 Db.empty [bufferToHexPrefixString cutBuffer]
    ⟨_, List.mem_singleton_self _, hexToBuffer_bufferToHexPrefixString _⟩
  rw [stored] at kept
  cases kept

end StacksApi.EventStream
