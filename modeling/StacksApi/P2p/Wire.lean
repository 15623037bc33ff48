import StacksApi.P2p.Read

/-!
# The wire format of transactions

The big-endian encoding that the readers undo, field by field in their order,
and the values it is defined on: names, buffers and counts that fit their
length fields, and 64-bit fields in the unsigned range that the source
documents.
-/

namespace StacksApi.P2p

open StacksApi.Binary

/-! ## Well-formed values -/

/-- The range of a field documented as `u64`. -/
def IsU64 (value : Int) : Prop :=
  0 ≤ value ∧ value < 2 ^ 64

/-- Seven-bit text whose length fits a byte. -/
structure IsName (name : String) : Prop where
  ascii : ∀ char ∈ name.toList, char.toNat < 128
  short : (encodeAscii name).length < 256

/-- Seven-bit text whose length fits 32 bits. -/
structure IsCodeBody (codeBody : String) : Prop where
  ascii : ∀ char ∈ codeBody.toList, char.toNat < 128
  short : (encodeAscii codeBody).length < 2 ^ 32

/-- The version is a byte, and the hash has 20. -/
structure StacksAddress.WellFormed (address : StacksAddress) : Prop where
  version : address.version < 256
  bytes : address.bytes.length = 20

/-- The address and the names fit their places. -/
structure AssetInfo.WellFormed (asset : AssetInfo) : Prop where
  contractAddress : asset.contractAddress.WellFormed
  contractName : IsName asset.contractName
  assetName : IsName asset.assetName

/-- Keys and signatures have their lengths. -/
def TransactionAuthField.WellFormed : TransactionAuthField → Prop
  | publicKey _ key => key.length = 33
  | signature _ bytes => bytes.length = 65

/-- The fields of the condition fit their places. -/
structure TransactionSpendingConditionSingleSig.WellFormed
    (condition : TransactionSpendingConditionSingleSig) : Prop where
  signer : condition.signer.length = 20
  nonce : IsU64 condition.nonce
  feeRate : IsU64 condition.feeRate
  keyEncoding : condition.keyEncoding < 256
  signature : condition.signature.length = 65

/-- The fields of the condition fit their places. -/
structure TransactionSpendingConditionMultiSig.WellFormed
    (condition : TransactionSpendingConditionMultiSig) : Prop where
  signer : condition.signer.length = 20
  nonce : IsU64 condition.nonce
  feeRate : IsU64 condition.feeRate
  fieldCount : condition.authFields.length < 2 ^ 32
  authFields : ∀ field ∈ condition.authFields, field.WellFormed
  signatureCount : condition.signatureCount < 2 ^ 16

/-- The condition of either kind is well-formed. -/
def TransactionSpendingCondition.WellFormed : TransactionSpendingCondition → Prop
  | singleSig condition => condition.WellFormed
  | multiSig condition => condition.WellFormed

/-- The conditions of the authorization are well-formed. -/
def TransactionAuth.WellFormed : TransactionAuth → Prop
  | standard origin => origin.WellFormed
  | sponsored origin sponsor => origin.WellFormed ∧ sponsor.WellFormed

/-- The address and the name of the principal fit their places. -/
def PostConditionPrincipal.WellFormed : PostConditionPrincipal → Prop
  | origin => True
  | standard address => address.WellFormed
  | contract address contractName => address.WellFormed ∧ IsName contractName

/-- The address and the name of the recipient fit their places. -/
def RecipientPrincipal.WellFormed : RecipientPrincipal → Prop
  | standard address => address.WellFormed
  | contract address contractName => address.WellFormed ∧ IsName contractName

variable {CV : Type}

/-- The principal, the asset and the amount fit their places. -/
def TransactionPostCondition.WellFormed : TransactionPostCondition CV → Prop
  | stx principal _ amount => principal.WellFormed ∧ IsU64 amount
  | fungible principal asset _ amount => principal.WellFormed ∧ asset.WellFormed ∧ IsU64 amount
  | nonfungible principal asset _ _ => principal.WellFormed ∧ asset.WellFormed

/-- The fields of the payload fit their places. -/
def TransactionPayload.WellFormed : TransactionPayload CV → Prop
  | tokenTransfer recipient amount memo =>
      recipient.WellFormed ∧ IsU64 amount ∧ memo.length = 34
  | smartContract name codeBody => IsName name ∧ IsCodeBody codeBody
  | contractCall address contractName functionName functionArgs _ =>
      address.WellFormed ∧ IsName contractName ∧ IsName functionName ∧
        functionArgs.length < 2 ^ 32
  | poisonMicroblock header1 header2 =>
      header1.length = microblockHeaderSize ∧ header2.length = microblockHeaderSize
  | coinbase payload => payload.length = 32

/-- Every field has the width of the wire format.  The raw byte fields are not
constrained: they are computed from the others. -/
structure Transaction.WellFormed (tx : Transaction CV) : Prop where
  chainId : tx.chainId < 2 ^ 32
  auth : tx.auth.WellFormed
  conditionCount : tx.postConditions.length < 2 ^ 32
  postConditions : ∀ condition ∈ tx.postConditions, condition.WellFormed
  payload : tx.payload.WellFormed

/-! ## Encoding -/

/-- An unsigned number in eight bytes. -/
def encodeU64 (value : Int) : Buffer :=
  bigEndian 8 value.toNat

/-- A member of an enumeration in one byte. -/
def encodeEnum {α : Type} [ByteEnum α] (member : α) : Buffer :=
  bigEndian 1 (ByteEnum.toNat member)

/-- A name behind its length in one byte. -/
def encodeName (name : String) : Buffer :=
  bigEndian 1 (encodeAscii name).length ++ encodeAscii name

/-- A source code behind its length in four bytes. -/
def encodeCodeBody (codeBody : String) : Buffer :=
  bigEndian 4 (encodeAscii codeBody).length ++ encodeAscii codeBody

/-- The bytes of an address. -/
def encodeStacksAddress (address : StacksAddress) : Buffer :=
  bigEndian 1 address.version ++ address.bytes

/-- The bytes of an asset. -/
def encodeAssetInfo (asset : AssetInfo) : Buffer :=
  encodeStacksAddress asset.contractAddress ++
    (encodeName asset.contractName ++ encodeName asset.assetName)

/-- The bytes of a field. -/
def encodeAuthField (field : TransactionAuthField) : Buffer :=
  encodeEnum field.typeId ++
    match field with
    | .publicKey _ key => key
    | .signature _ signature => signature

/-- The bytes of a spending condition. -/
def encodeSpendingCondition (condition : TransactionSpendingCondition) : Buffer :=
  encodeEnum condition.hashMode ++ (condition.signer ++ (encodeU64 condition.nonce ++
    (encodeU64 condition.feeRate ++
      match condition with
      | .singleSig condition => bigEndian 1 condition.keyEncoding ++ condition.signature
      | .multiSig condition =>
          bigEndian 4 condition.authFields.length ++
            (condition.authFields.flatMap encodeAuthField ++
              bigEndian 2 condition.signatureCount))))

/-- The bytes of an authorization. -/
def encodeAuth (auth : TransactionAuth) : Buffer :=
  encodeEnum auth.typeId ++
    match auth with
    | .standard origin => encodeSpendingCondition origin
    | .sponsored origin sponsor =>
        encodeSpendingCondition origin ++ encodeSpendingCondition sponsor

/-- The bytes of a principal. -/
def encodePostConditionPrincipal (principal : PostConditionPrincipal) : Buffer :=
  encodeEnum principal.typeId ++
    match principal with
    | .origin => []
    | .standard address => encodeStacksAddress address
    | .contract address contractName => encodeStacksAddress address ++ encodeName contractName

/-- The bytes of a recipient. -/
def encodeRecipientPrincipal (recipient : RecipientPrincipal) : Buffer :=
  bigEndian 1 recipient.typeId ++
    match recipient with
    | .standard address => encodeStacksAddress address
    | .contract address contractName => encodeStacksAddress address ++ encodeName contractName

variable (clarity : ClarityLibrary CV)

/-- The bytes of a post-condition. -/
def encodePostCondition (condition : TransactionPostCondition CV) : Buffer :=
  encodeEnum condition.assetInfoId ++
    match condition with
    | .stx principal conditionCode amount =>
        encodePostConditionPrincipal principal ++ (encodeEnum conditionCode ++ encodeU64 amount)
    | .fungible principal asset conditionCode amount =>
        encodePostConditionPrincipal principal ++
          (encodeAssetInfo asset ++ (encodeEnum conditionCode ++ encodeU64 amount))
    | .nonfungible principal asset assetValue conditionCode =>
        encodePostConditionPrincipal principal ++
          (encodeAssetInfo asset ++ (clarity.serializeCV assetValue ++ encodeEnum conditionCode))

/-- The bytes of a list of post-conditions. -/
def encodePostConditions (conditions : List (TransactionPostCondition CV)) : Buffer :=
  bigEndian 4 conditions.length ++ conditions.flatMap (encodePostCondition clarity)

/-- The bytes of the arguments of a call. -/
def encodeFunctionArgs (functionArgs : List CV) : Buffer :=
  bigEndian 4 functionArgs.length ++ functionArgs.flatMap clarity.serializeCV

/-- The bytes of a payload. -/
def encodePayload (payload : TransactionPayload CV) : Buffer :=
  encodeEnum payload.typeId ++
    match payload with
    | .tokenTransfer recipient amount memo =>
        encodeRecipientPrincipal recipient ++ (encodeU64 amount ++ memo)
    | .smartContract name codeBody => encodeName name ++ encodeCodeBody codeBody
    | .contractCall address contractName functionName functionArgs _ =>
        encodeStacksAddress address ++ (encodeName contractName ++
          (encodeName functionName ++ encodeFunctionArgs clarity functionArgs))
    | .poisonMicroblock header1 header2 => header1 ++ header2
    | .coinbase payload => payload

/-- The mode byte and the condition list. -/
def encodePostConditionSection (tx : Transaction CV) : Buffer :=
  encodeEnum tx.postConditionMode ++ encodePostConditions clarity tx.postConditions

/-- The bytes of a transaction. -/
def encodeTransaction (tx : Transaction CV) : Buffer :=
  encodeEnum tx.version ++ (bigEndian 4 tx.chainId ++ (encodeAuth tx.auth ++
    (encodeEnum tx.anchorMode ++ (encodePostConditionSection clarity tx ++
      encodePayload clarity tx.payload))))

/-! ## The raw byte fields -/

/-- The argument array as encoded, absent when there are no arguments. -/
def TransactionPayload.withRawBytes : TransactionPayload CV → TransactionPayload CV
  | contractCall address contractName functionName functionArgs _ =>
      contractCall address contractName functionName functionArgs
        (if functionArgs.length > 0 then some (encodeFunctionArgs clarity functionArgs) else none)
  | payload => payload

/-- The transaction with its raw byte fields cut from its encoding. -/
def Transaction.withRawBytes (tx : Transaction CV) : Transaction CV :=
  { tx with
    rawPostConditions := encodePostConditionSection clarity tx
    payload := tx.payload.withRawBytes clarity }

end StacksApi.P2p
