import StacksApi.Datastore.MempoolList
import StacksApi.EventStream.Shown

/-!
# The mempool page by page after every run

The transactions of a mempool message are stored with one time of receipt, in seconds, and
that is all that `getMempoolTxList` sorts by.  After every run the pages list the whole
mempool exactly when no page parts the transactions of one time.
-/

namespace StacksApi.EventStream

open StacksApi.Binary
open StacksApi.P2p
open StacksApi.Relational
open StacksApi.Datastore
open StacksApi.Controllers
open StacksApi.Transition

variable {CV : Type} {libraries : Libraries CV}

/-- Every pending transaction can be parsed. -/
theorem runServer_parsesPending (messages : List ServerMessage) :
    ∀ row ∈ (runServer libraries messages).mempoolTxs,
      Succeeds (parseMempoolTxQueryResult row) := by
  have parsed : TablesParsed libraries (runServer libraries messages) :=
    runServer_tablesParsed messages
  exact fun row mem => parsed.succeeds_parseMempoolTx mem

/-- After every run, and for every size of the pages, the mempool is listed page by page
exactly when the transactions of each time of receipt are on one page. -/
theorem runServer_mempoolListed_iff (messages : List ServerMessage) {limit : Nat}
    (positive : 0 < limit) :
    MempoolListed (runServer libraries messages) limit ↔
      TiesOnOnePage DbMempoolTx.receiptTime limit (runServer libraries messages).mempoolTxs :=
  mempoolListed_iff positive (runServer_tablesParsed messages).nodup
    (runServer_parsesPending messages)

/-- In a run in which no two transactions are received in the same second, the mempool is
always listed page by page. -/
theorem runServer_mempoolListed_of_nodup {messages : List ServerMessage}
    (distinct : ((runServer libraries messages).mempoolTxs.map DbMempoolTx.receiptTime).Nodup)
    {limit : Nat} (positive : 0 < limit) :
    MempoolListed (runServer libraries messages) limit :=
  (mempoolListed_iff positive (runServer_tablesParsed messages).nodup
    (runServer_parsesPending messages)).mpr (tiesOnOnePage_of_nodup positive distinct)

/-! ## Two transactions of one message -/

/-- The digests of the transfer and of the call. -/
@[irreducible]
def pairDigest (buffer : Buffer) : Buffer :=
  if buffer = sampleBuffer then sampleTxId
  else if buffer = callBuffer then callTxId
  else []

/-- The libraries with the digests of both transactions. -/
def pairLibraries : Libraries Bool where
  clarity := ClarityLibrary.booleans
  addresses := AddressLibrary.zeroHash
  digestSha512_256 := pairDigest

/-- One message with both transactions. -/
def pairMempoolMessage : ServerMessage :=
  .newMempoolTx 1594647997
    [bufferToHexPrefixString sampleBuffer, bufferToHexPrefixString callBuffer]

/-- The transactions of the message as decoded. -/
def pairDecoded : List (DecodedMempoolTx Bool) :=
  [{ sampleDecoded with txId := bufferToHexPrefixString (pairDigest sampleBuffer) },
    { callDecoded with txId := bufferToHexPrefixString (pairDigest callBuffer) }]

theorem runServer_pairMempoolMessage : runServer pairLibraries [pairMempoolMessage] =
    { Db.empty with mempoolTxs := [sampleMempoolRow, callMempoolRow] } := by
  have readTransfer : readBufferTransaction pairLibraries sampleBuffer =
      .ok ((sampleTransfer 1).asRead ClarityLibrary.booleans) :=
    readBufferTransaction_encode pairLibraries ClarityLibrary.booleans_roundTrips
      (sampleTransfer_wellFormed ⟨by decide, by decide⟩)
  have transfer : decodeMempoolTx pairLibraries sampleBuffer =
      .ok { sampleDecoded with txId := bufferToHexPrefixString (pairDigest sampleBuffer) } := by
    rw [decodeMempoolTx, readTransfer]
    rfl
  have readCall : readBufferTransaction pairLibraries callBuffer =
      .ok (sampleCall.asRead ClarityLibrary.booleans) :=
    readBufferTransaction_encode pairLibraries ClarityLibrary.booleans_roundTrips
      sampleCall_wellFormed
  have call : decodeMempoolTx pairLibraries callBuffer =
      .ok { callDecoded with txId := bufferToHexPrefixString (pairDigest callBuffer) } := by
    rw [decodeMempoolTx, readCall]
    rfl
  have decoded : decodeMempoolTxs pairLibraries
      [bufferToHexPrefixString sampleBuffer, bufferToHexPrefixString callBuffer] =
        .ok pairDecoded :=
    decodeMempoolTxs_map [sampleBuffer, callBuffer] (.cons transfer (.cons call .nil))
  rw [runServer, List.foldl_cons, List.foldl_nil, pairMempoolMessage, receive,
    handleMempoolTxsMessage, decoded]
  decide +kernel

/-- On one page of two, both transactions of the message are listed. -/
theorem runServer_pairMempoolMessage_listed :
    MempoolListed (runServer pairLibraries [pairMempoolMessage]) 2 := by
  refine (runServer_mempoolListed_iff [pairMempoolMessage] Nat.two_pos).mpr ?_
  rw [runServer_pairMempoolMessage]
  exact tiesOnOnePage_of_length_le (le_refl 2)

/-- On two pages of one, a transaction of the message may be listed twice and the other not
at all. -/
theorem runServer_pairMempoolMessage_notListed :
    ¬MempoolListed (runServer pairLibraries [pairMempoolMessage]) 1 := by
  rw [mempoolListed_iff Nat.one_pos (runServer_tablesParsed [pairMempoolMessage]).nodup
    (runServer_parsesPending [pairMempoolMessage]), runServer_pairMempoolMessage]
  intro ties
  obtain ⟨number, start, stop⟩ := ties 1594647997
  have none : [sampleMempoolRow, callMempoolRow].countP
      (fun row => 1594647997 < row.receiptTime) = 0 := by decide
  have both : [sampleMempoolRow, callMempoolRow].countP
      (fun row => 1594647997 ≤ row.receiptTime) = 2 := by decide
  rw [none] at start
  rw [both] at stop
  omega

end StacksApi.EventStream
