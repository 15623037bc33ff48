import StacksApi.Datastore.Common
import StacksApi.EventStream.Reader

/-!
# Records of parsed transactions

`createDbTxFromCoreMsg` and `createDbMempoolTxFromCoreMsg`, which make a record
of a parsed transaction.  Fee and sender of a record are those of the origin
condition, whether or not the transaction is sponsored.
-/

namespace StacksApi.Datastore

open StacksApi.Binary
open StacksApi.P2p
open StacksApi.EventStream

variable {CV : Type}

/-- `parseEnum(DbTxTypeId, payload.typeId)`; both enumerations use the same numbers. -/
def dbTxTypeId : TransactionPayloadTypeID → DbTxTypeId
  | .tokenTransfer => .tokenTransfer
  | .smartContract => .smartContract
  | .contractCall => .contractCall
  | .poisonMicroblock => .poisonMicroblock
  | .coinbase => .coinbase

/-- The status that the node reports, as it is stored. -/
def getTxDbStatus (txCoreStatus : String) : Except ApiError DbTxStatus :=
  if txCoreStatus = "success" then .ok .success
  else if txCoreStatus = "abort_by_response" then .ok .abortByResponse
  else if txCoreStatus = "abort_by_post_condition" then .ok .abortByPostCondition
  else .error (.failure s!"Unexpected tx status: {txCoreStatus}")

/-- Set the columns of the type of the transaction. -/
def extractTransactionPayload (addresses : AddressLibrary) (txData : Transaction CV)
    (dbTx : DbTxBase String) : Except ApiError (DbTxBase String) :=
  match txData.payload with
  | .tokenTransfer recipient amount memo => do
      let recipientPrincipal ← recipientText addresses recipient
      return { dbTx with
        tokenTransferRecipientAddress := some recipientPrincipal
        tokenTransferAmount := some amount
        tokenTransferMemo := some memo }
  | .smartContract name codeBody => do
      let senderAddress ← getTxSenderAddress addresses txData
      return { dbTx with
        smartContractContractId := some (senderAddress ++ "." ++ name)
        smartContractSourceCode := some codeBody }
  | .contractCall address contractName functionName _ rawFunctionArgs => do
      let contractAddress ← addressText addresses address
      return { dbTx with
        contractCallContractId := some s!"{contractAddress}.{contractName}"
        contractCallFunctionName := some functionName
        contractCallFunctionArgs := rawFunctionArgs }
  | .poisonMicroblock microblockHeader1 microblockHeader2 =>
      .ok { dbTx with
        poisonMicroblockHeader1 := some microblockHeader1
        poisonMicroblockHeader2 := some microblockHeader2 }
  | .coinbase payload => .ok { dbTx with coinbasePayload := some payload }

/-- The fields that do not depend on the type of the transaction. -/
def transactionColumns (txId : String) (rawTx : Buffer) (status : DbTxStatus)
    (senderAddress : String) (sponsorAddress : Option String) (txData : Transaction CV) :
    DbTxBase String where
  txId := txId
  rawTx := rawTx
  typeId := dbTxTypeId txData.payload.typeId
  status := status
  postConditions := txData.rawPostConditions
  feeRate := txData.auth.originCondition.feeRate
  senderAddress := senderAddress
  originHashMode := ByteEnum.toNat txData.auth.originCondition.hashMode
  sponsored := decide (txData.auth.typeId = .sponsored)
  sponsorAddress := sponsorAddress

/-- A mempool transaction that was read from a buffer. -/
structure DecodedMempoolTx (CV : Type) where
  txId : String
  sender : String
  sponsorAddress : Option String
  txData : Transaction CV
  rawTx : Buffer

/-- The record of a pending transaction. -/
def createDbMempoolTxFromCoreMsg (addresses : AddressLibrary) (msg : DecodedMempoolTx CV)
    (receiptDate : Int) : Except ApiError (DbMempoolTx String) := do
  let dbTx ← extractTransactionPayload addresses msg.txData
    (transactionColumns msg.txId msg.rawTx .pending msg.sender msg.sponsorAddress msg.txData)
  return { toDbTxBase := dbTx, receiptTime := receiptDate }

/-- The record of a mined transaction. -/
def createDbTxFromCoreMsg (addresses : AddressLibrary) (msg : CoreNodeParsedTxMessage CV) :
    Except ApiError (DbTx String) := do
  let status ← getTxDbStatus msg.coreTx.status
  let dbTx ← extractTransactionPayload addresses msg.parsedTx
    (transactionColumns msg.coreTx.txid msg.rawTx status msg.senderAddress msg.sponsorAddress
      msg.parsedTx)
  return {
    toDbTxBase := dbTx
    indexBlockHash := msg.indexBlockHash
    blockHash := msg.blockHash
    blockHeight := msg.blockHeight
    burnBlockTime := msg.burnBlockTime
    txIndex := msg.coreTx.txIndex
    rawResult := some msg.coreTx.rawResult
    canonical := true }

end StacksApi.Datastore
