import StacksApi.Helpers
import StacksApi.P2p.Read

/-!
# Messages of the core node

The messages of `core-node-message.ts` and their parsing in `reader.ts`.  The
application binary interface of a contract is only passed on as the text that
`JSON.stringify` makes of it.
-/

namespace StacksApi.EventStream

open StacksApi.Binary
open StacksApi.Text
open StacksApi.P2p

/-! ## Messages -/

/-- An event, or a message of a type that is not known. -/
inductive CoreNodeEvent
  | contractEvent (txid contractIdentifier topic rawValue : String)
  | stxTransferEvent (txid sender recipient amount : String)
  | stxMintEvent (txid recipient amount : String)
  | stxBurnEvent (txid sender amount : String)
  | ftTransferEvent (txid assetIdentifier sender recipient amount : String)
  | ftMintEvent (txid assetIdentifier recipient amount : String)
  | nftTransferEvent (txid assetIdentifier sender recipient rawValue : String)
  | nftMintEvent (txid assetIdentifier recipient rawValue : String)
  | unknown (txid inspected : String)
  deriving DecidableEq

/-- The transaction that the event names. -/
def CoreNodeEvent.txid : CoreNodeEvent → String
  | contractEvent txid _ _ _ => txid
  | stxTransferEvent txid _ _ _ => txid
  | stxMintEvent txid _ _ => txid
  | stxBurnEvent txid _ _ => txid
  | ftTransferEvent txid _ _ _ _ => txid
  | ftMintEvent txid _ _ _ => txid
  | nftTransferEvent txid _ _ _ _ => txid
  | nftMintEvent txid _ _ _ => txid
  | unknown txid _ => txid

/-- A transaction in a block message. -/
structure CoreNodeTxMessage where
  rawTx : String
  status : String
  rawResult : String
  txid : String
  txIndex : Int
  /-- The text of the interface, `null` when there is none. -/
  contractAbi : String
  deriving DecidableEq

/-- The body of a block message. -/
structure CoreNodeMessage where
  blockHash : String
  blockHeight : Nat
  burnBlockTime : Int
  indexBlockHash : String
  parentIndexBlockHash : String
  parentBlockHash : String
  parentMicroblock : String
  events : List CoreNodeEvent
  transactions : List CoreNodeTxMessage
  deriving DecidableEq

/-- A transaction of a block message with what is parsed of its bytes. -/
structure CoreNodeParsedTxMessage (CV : Type) where
  coreTx : CoreNodeTxMessage
  parsedTx : Transaction CV
  rawTx : Buffer
  senderAddress : String
  sponsorAddress : Option String
  blockHash : String
  indexBlockHash : String
  blockHeight : Nat
  burnBlockTime : Int

/-! ## Addresses -/

variable {CV : Type}

section Addresses

variable (addresses : AddressLibrary)

/-- The digits that `buffer.toString('hex')` yields. -/
def hexDigits (buffer : Buffer) : String :=
  String.ofList (toHex buffer)

/-- The text of the address of a hash. -/
def getAddressFromPublicKeyHash (publicKeyHash : Buffer) (hashMode : SigHashMode)
    (transactionVersion : TransactionVersion) : Except ApiError String :=
  let addrVer := addresses.addressHashModeToVersion hashMode transactionVersion
  if publicKeyHash.length ≠ 20 then .error (.failure "expected 20-byte pubkeyhash")
  else addresses.c32address addrVer (hexDigits publicKeyHash)

/-- The address of the origin condition. -/
def getTxSenderAddress (tx : Transaction CV) : Except ApiError String :=
  getAddressFromPublicKeyHash addresses tx.auth.originCondition.signer
    tx.auth.originCondition.hashMode tx.version

/-- The address of the sponsor condition, if there is one. -/
def getTxSponsorAddress (tx : Transaction CV) : Except ApiError (Option String) :=
  match tx.auth with
  | .standard _ => .ok none
  | .sponsored _ sponsorCondition =>
      (getAddressFromPublicKeyHash addresses sponsorCondition.signer sponsorCondition.hashMode
        tx.version).map some

/-- `c32address` of an address inside a payload. -/
def addressText (address : StacksAddress) : Except ApiError String :=
  addresses.c32address address.version (hexDigits address.bytes)

/-- The recipient of a token transfer as text. -/
def recipientText (recipient : RecipientPrincipal) : Except ApiError String := do
  let address ← addressText addresses recipient.address
  match recipient with
  | .standard _ => return address
  | .contract _ contractName => return address ++ "." ++ contractName

end Addresses

/-! ## Parsing -/

variable (libraries : Libraries CV)

/-- What `parseMessageTransactions` computes of a payload, for its log only. -/
def checkPayload : TransactionPayload CV → Except ApiError Unit
  | .coinbase _ => .ok ()
  | .smartContract _ _ => .ok ()
  | .contractCall address _ _ _ _ => do
      let _ ← addressText libraries.addresses address
  | .tokenTransfer recipient _ _ => do
      let _ ← recipientText libraries.addresses recipient
  | .poisonMicroblock _ _ =>
      .error (.notImplemented "extracting data for tx type: 3 'PoisonMicroblock'")

/-- The transaction at the start of a buffer. -/
def readBufferTransaction (buffer : Buffer) : Except ApiError (Transaction CV) :=
  ((readTransaction libraries.clarity).run (BufferReader.fromBuffer buffer)).map Prod.fst

/-- `Buffer.from(coreTx.raw_tx.substring(2), 'hex')` -/
def CoreNodeTxMessage.txBuffer (coreTx : CoreNodeTxMessage) : Buffer :=
  fromHex (dropUnits 2 coreTx.rawTx.toList)

/-- One turn of the loop of `parseMessageTransactions`. -/
def parseMessageTransaction (msg : CoreNodeMessage) (coreTx : CoreNodeTxMessage) :
    Except ApiError (CoreNodeParsedTxMessage CV) := do
  let rawTx ← readBufferTransaction libraries coreTx.txBuffer
  let txSender ← getTxSenderAddress libraries.addresses rawTx
  let sponsorAddress ← getTxSponsorAddress libraries.addresses rawTx
  checkPayload libraries rawTx.payload
  return {
    coreTx
    parsedTx := rawTx
    rawTx := coreTx.txBuffer
    senderAddress := txSender
    sponsorAddress
    blockHash := msg.blockHash
    indexBlockHash := msg.indexBlockHash
    blockHeight := msg.blockHeight
    burnBlockTime := msg.burnBlockTime }

/-- The transactions of a block message with what is parsed of them. -/
def parseMessageTransactions (msg : CoreNodeMessage) :
    Except ApiError (List (CoreNodeParsedTxMessage CV)) :=
  msg.transactions.mapM (parseMessageTransaction libraries msg)

end StacksApi.EventStream
