import StacksApi.Dependencies

/-!
# Reading transactions

The readers of `p2p/tx.ts`, one definition for each function of the source and
in its order of reads.  Amounts of token transfers and of STX post-conditions go
through the signed 64-bit read, all other 64-bit fields through the unsigned one.
-/

namespace StacksApi.P2p

open StacksApi.Binary

/-- The error of a byte outside its enumeration. -/
def unexpected (subject : String) (value : Nat) : ApiError :=
  .messageParsing s!"unexpected {subject}: {value}"

/-- Read a name with its length in one byte. -/
def readContractName : ReadM ApiError String := do
  let length ← readUInt8
  readString length

/-- Read a name with its length in one byte. -/
def readClarityName : ReadM ApiError String := do
  let length ← readUInt8
  readString length

/-- The source's `readString`, a text with a 32-bit length. -/
def readLongString : ReadM ApiError String := do
  let length ← readUInt32BE
  readString length

/-- Read the version and the hash of an address. -/
def readStacksAddress : ReadM ApiError StacksAddress := do
  let version ← readUInt8
  let bytes ← readBuffer 20
  pure { version, bytes }

/-- Read an asset with its contract. -/
def readAssetInfo : ReadM ApiError AssetInfo := do
  let contractAddress ← readStacksAddress
  let contractName ← readContractName
  let assetName ← readClarityName
  pure { contractAddress, contractName, assetName }

/-- Read a public key or a signature. -/
def readTransactionAuthField : ReadM ApiError TransactionAuthField := do
  let authType ← readUInt8Enum TransactionAuthFieldTypeID (unexpected "tx auth field type")
  match authType with
  | .publicKeyCompressed => return .publicKey .compressed (← readBuffer 33)
  | .publicKeyUncompressed => return .publicKey .uncompressed (← readBuffer 33)
  | .signatureCompressed => return .signature .compressed (← readBuffer 65)
  | .signatureUncompressed => return .signature .uncompressed (← readBuffer 65)

/-- The fields of a single-signature condition after its hash mode. -/
def readSingleSig (hashMode : SingleSigHashMode) : ReadM ApiError TransactionSpendingCondition := do
  let signer ← readBuffer 20
  let nonce ← readBigUInt64BE
  let feeRate ← readBigUInt64BE
  let keyEncoding ← readUInt8
  let signature ← readBuffer 65
  return .singleSig { hashMode, signer, nonce, feeRate, keyEncoding, signature }

/-- The fields of a multi-signature condition after its hash mode. -/
def readMultiSig (hashMode : MultiSigHashMode) : ReadM ApiError TransactionSpendingCondition := do
  let signer ← readBuffer 20
  let nonce ← readBigUInt64BE
  let feeRate ← readBigUInt64BE
  let fieldCount ← readUInt32BE
  let authFields ← readMany readTransactionAuthField fieldCount
  let signatureCount ← readUInt16BE
  return .multiSig { hashMode, signer, nonce, feeRate, authFields, signatureCount }

/-- Read a spending condition by its hash mode. -/
def readTransactionSpendingCondition : ReadM ApiError TransactionSpendingCondition := do
  let conditionType ← readUInt8Enum SigHashMode (unexpected "tx spend condition hash mode")
  match conditionType with
  | .p2pkh => readSingleSig .p2pkh
  | .p2wpkh => readSingleSig .p2wpkh
  | .p2sh => readMultiSig .p2sh
  | .p2wsh => readMultiSig .p2wsh

/-- Read whom a post-condition is about. -/
def readTransactionPostConditionPrincipal : ReadM ApiError PostConditionPrincipal := do
  let typeId ← readUInt8Enum PostConditionPrincipalTypeID
    (unexpected "tx post condition principal type")
  match typeId with
  | .origin => return .origin
  | .standard => return .standard (← readStacksAddress)
  | .contract => do
      let address ← readStacksAddress
      let contractName ← readContractName
      return .contract address contractName

/-- The auth type byte and the conditions it announces. -/
def readTransactionAuth : ReadM ApiError TransactionAuth := do
  let authType ← readUInt8Enum TransactionAuthTypeID (unexpected "transaction auth type")
  match authType with
  | .standard => return .standard (← readTransactionSpendingCondition)
  | .sponsored => do
      let originCondition ← readTransactionSpendingCondition
      let sponsorCondition ← readTransactionSpendingCondition
      return .sponsored originCondition sponsorCondition

/-- The recipient of a token transfer. -/
def readRecipientPrincipal : ReadM ApiError RecipientPrincipal := do
  let recipientTypeId ← readUInt8
  if recipientTypeId = 0x05 then
    return .standard (← readStacksAddress)
  else if recipientTypeId = 0x06 then do
    let address ← readStacksAddress
    let contractName ← readContractName
    return .contract address contractName
  else
    throw (.failure s!"Unexpected recipient principal type ID {recipientTypeId}")

variable {CV : Type} (clarity : ClarityLibrary CV)

/-- One Clarity value, read by the library from the bytes that are left. -/
def readClarityValue : ReadM ApiError CV :=
  withRemaining clarity.deserializeCV

/-- Read a count and so many values. -/
def readClarityValueArray : ReadM ApiError (List CV) := do
  let valueCount ← readUInt32BE
  withRemaining (readMany clarity.deserializeCV valueCount)

/-- One turn of the loop of `readTransactionPostConditions`. -/
def readTransactionPostCondition : ReadM ApiError (TransactionPostCondition CV) := do
  let typeId ← readUInt8Enum AssetInfoTypeID (unexpected "tx asset info type")
  let principal ← readTransactionPostConditionPrincipal
  match typeId with
  | .stx => do
      let conditionCode ← readUInt8Enum FungibleConditionCode (unexpected "condition code")
      let amount ← readBigInt64BE
      return .stx principal conditionCode amount
  | .fungibleAsset => do
      let asset ← readAssetInfo
      let conditionCode ← readUInt8Enum FungibleConditionCode (unexpected "condition code")
      let amount ← readBigUInt64BE
      return .fungible principal asset conditionCode amount
  | .nonfungibleAsset => do
      let asset ← readAssetInfo
      let assetValue ← readClarityValue clarity
      let conditionCode ← readUInt8Enum NonfungibleConditionCode
        (unexpected "nonfungible condition code")
      return .nonfungible principal asset assetValue conditionCode

/-- Read a count and so many post-conditions. -/
def readTransactionPostConditions : ReadM ApiError (List (TransactionPostCondition CV)) := do
  let conditionCount ← readUInt32BE
  readMany (readTransactionPostCondition clarity) conditionCount

/-- Read a payload by its type. -/
def readTransactionPayload : ReadM ApiError (TransactionPayload CV) := do
  let txPayloadType ← readUInt8Enum TransactionPayloadTypeID (unexpected "tx payload type")
  match txPayloadType with
  | .coinbase => return .coinbase (← readBuffer 32)
  | .tokenTransfer => do
      let recipient ← readRecipientPrincipal
      let amount ← readBigInt64BE
      let memo ← readBuffer 34
      return .tokenTransfer recipient amount memo
  | .smartContract => do
      let name ← readContractName
      let codeBody ← readLongString
      return .smartContract name codeBody
  | .contractCall => do
      let address ← readStacksAddress
      let contractName ← readContractName
      let functionName ← readClarityName
      let (functionArgs, rawArgs) ← capture (readClarityValueArray clarity)
      let rawFunctionArgs := if functionArgs.length > 0 then some rawArgs else none
      return .contractCall address contractName functionName functionArgs rawFunctionArgs
  | .poisonMicroblock => do
      let microblockHeader1 ← readBuffer microblockHeaderSize
      let microblockHeader2 ← readBuffer microblockHeaderSize
      return .poisonMicroblock microblockHeader1 microblockHeader2

/-- The post-condition mode and list, whose bytes are kept as read. -/
def readPostConditionSection :
    ReadM ApiError (TransactionPostConditionMode × List (TransactionPostCondition CV)) := do
  let postConditionMode ← readUInt8Enum TransactionPostConditionMode
    (unexpected "tx post condition mode")
  let postConditions ← readTransactionPostConditions clarity
  return (postConditionMode, postConditions)

/-- Read a transaction, and keep the bytes of its post-conditions. -/
def readTransaction : ReadM ApiError (Transaction CV) := do
  let version ← readUInt8Enum TransactionVersion (unexpected "transactions version")
  let chainId ← readUInt32BE
  let auth ← readTransactionAuth
  let anchorMode ← readUInt8Enum TransactionAnchorMode
    (unexpected "tx post condition anchor mode")
  let ((postConditionMode, postConditions), rawPostConditions) ←
    capture (readPostConditionSection clarity)
  let payload ← readTransactionPayload clarity
  return { version, chainId, auth, anchorMode, postConditionMode, postConditions,
           rawPostConditions, payload }

end StacksApi.P2p
