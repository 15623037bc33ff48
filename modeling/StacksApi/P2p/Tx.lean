import StacksApi.Errors

/-!
# Transactions

The data model of `p2p/tx.ts`.  Enumerations carry their wire bytes.  A spending
condition, a principal and a payload are sums whose alternatives hold exactly
the fields of that alternative, so that a multi-signature condition with a
single-signature hash mode, say, cannot be written down.  Clarity values belong
to a library outside the repository and stay a type parameter.
-/

namespace StacksApi.P2p

open StacksApi.Binary

/-- Bytes of a microblock header: version, sequence number, parent hash, Merkle
root and signature. -/
def microblockHeaderSize : Nat := 1 + 2 + 32 + 32 + 65

/-- How the hash of a signer is made. -/
inductive SigHashMode
  | p2pkh
  | p2sh
  | p2wpkh
  | p2wsh
  deriving DecidableEq

instance : ByteEnum SigHashMode where
  toNat
    | .p2pkh => 0x00
    | .p2wpkh => 0x02
    | .p2sh => 0x01
    | .p2wsh => 0x03
  ofNat?
    | 0x00 => some .p2pkh
    | 0x02 => some .p2wpkh
    | 0x01 => some .p2sh
    | 0x03 => some .p2wsh
    | _ => none
  ofNat?_toNat member := by cases member <;> rfl
  toNat_lt member := by cases member <;> decide

/-- The single-signature hash modes. -/
inductive SingleSigHashMode
  | p2pkh
  | p2wpkh
  deriving DecidableEq

/-- The multi-signature hash modes. -/
inductive MultiSigHashMode
  | p2sh
  | p2wsh
  deriving DecidableEq

/-- The hash modes of one signer among all. -/
def SingleSigHashMode.toSigHashMode : SingleSigHashMode → SigHashMode
  | p2pkh => .p2pkh
  | p2wpkh => .p2wpkh

/-- The hash modes of several signers among all. -/
def MultiSigHashMode.toSigHashMode : MultiSigHashMode → SigHashMode
  | p2sh => .p2sh
  | p2wsh => .p2wsh

/-- Types of fields in a condition of several signers. -/
inductive TransactionAuthFieldTypeID
  | publicKeyCompressed
  | publicKeyUncompressed
  | signatureCompressed
  | signatureUncompressed
  deriving DecidableEq

instance : ByteEnum TransactionAuthFieldTypeID where
  toNat
    | .publicKeyCompressed => 0x00
    | .publicKeyUncompressed => 0x01
    | .signatureCompressed => 0x02
    | .signatureUncompressed => 0x03
  ofNat?
    | 0x00 => some .publicKeyCompressed
    | 0x01 => some .publicKeyUncompressed
    | 0x02 => some .signatureCompressed
    | 0x03 => some .signatureUncompressed
    | _ => none
  ofNat?_toNat member := by cases member <;> rfl
  toNat_lt member := by cases member <;> decide

/-- Encodings of public keys. -/
inductive TransactionPublicKeyEncoding
  | compressed
  | uncompressed
  deriving DecidableEq

/-- A public key or a signature, with the encoding its type byte names. -/
inductive TransactionAuthField
  | publicKey (encoding : TransactionPublicKeyEncoding) (publicKey : Buffer)
  | signature (encoding : TransactionPublicKeyEncoding) (signature : Buffer)
  deriving DecidableEq

/-- The type of a field. -/
def TransactionAuthField.typeId : TransactionAuthField → TransactionAuthFieldTypeID
  | publicKey .compressed _ => .publicKeyCompressed
  | publicKey .uncompressed _ => .publicKeyUncompressed
  | signature .compressed _ => .signatureCompressed
  | signature .uncompressed _ => .signatureUncompressed

/-- A spending condition with one signer. -/
structure TransactionSpendingConditionSingleSig where
  hashMode : SingleSigHashMode
  signer : Buffer
  nonce : Int
  feeRate : Int
  keyEncoding : Nat
  signature : Buffer
  deriving DecidableEq

/-- A spending condition with several signers. -/
structure TransactionSpendingConditionMultiSig where
  hashMode : MultiSigHashMode
  signer : Buffer
  nonce : Int
  feeRate : Int
  authFields : List TransactionAuthField
  signatureCount : Nat
  deriving DecidableEq

/-- Who spends, and what is paid for the transaction. -/
inductive TransactionSpendingCondition
  | singleSig (condition : TransactionSpendingConditionSingleSig)
  | multiSig (condition : TransactionSpendingConditionMultiSig)
  deriving DecidableEq

namespace TransactionSpendingCondition

/-- The hash mode of the condition. -/
def hashMode : TransactionSpendingCondition → SigHashMode
  | singleSig condition => condition.hashMode.toSigHashMode
  | multiSig condition => condition.hashMode.toSigHashMode

/-- The hash of the signer. -/
def signer : TransactionSpendingCondition → Buffer
  | singleSig condition => condition.signer
  | multiSig condition => condition.signer

/-- The nonce of the account. -/
def nonce : TransactionSpendingCondition → Int
  | singleSig condition => condition.nonce
  | multiSig condition => condition.nonce

/-- The fee of the condition. -/
def feeRate : TransactionSpendingCondition → Int
  | singleSig condition => condition.feeRate
  | multiSig condition => condition.feeRate

end TransactionSpendingCondition

/-- Types of authorizations. -/
inductive TransactionAuthTypeID
  | standard
  | sponsored
  deriving DecidableEq

instance : ByteEnum TransactionAuthTypeID where
  toNat
    | .standard => 0x04
    | .sponsored => 0x05
  ofNat?
    | 0x04 => some .standard
    | 0x05 => some .sponsored
    | _ => none
  ofNat?_toNat member := by cases member <;> rfl
  toNat_lt member := by cases member <;> decide

/-- Who authorizes a transaction: its origin, and a sponsor if there is one. -/
inductive TransactionAuth
  | standard (originCondition : TransactionSpendingCondition)
  | sponsored (originCondition sponsorCondition : TransactionSpendingCondition)
  deriving DecidableEq

namespace TransactionAuth

/-- The type of the authorization. -/
def typeId : TransactionAuth → TransactionAuthTypeID
  | standard _ => .standard
  | sponsored _ _ => .sponsored

/-- The condition of the origin. -/
def originCondition : TransactionAuth → TransactionSpendingCondition
  | standard origin => origin
  | sponsored origin _ => origin

end TransactionAuth

/-- Where a transaction may be included. -/
inductive TransactionAnchorMode
  | onChainOnly
  | offChainOnly
  | any
  deriving DecidableEq

instance : ByteEnum TransactionAnchorMode where
  toNat
    | .onChainOnly => 1
    | .offChainOnly => 2
    | .any => 3
  ofNat?
    | 1 => some .onChainOnly
    | 2 => some .offChainOnly
    | 3 => some .any
    | _ => none
  ofNat?_toNat member := by cases member <;> rfl
  toNat_lt member := by cases member <;> decide

/-- Whether movements without a post-condition are allowed. -/
inductive TransactionPostConditionMode
  | allow
  | deny
  deriving DecidableEq

instance : ByteEnum TransactionPostConditionMode where
  toNat
    | .allow => 0x01
    | .deny => 0x02
  ofNat?
    | 0x01 => some .allow
    | 0x02 => some .deny
    | _ => none
  ofNat?_toNat member := by cases member <;> rfl
  toNat_lt member := by cases member <;> decide

/-- The network of a transaction. -/
inductive TransactionVersion
  | mainnet
  | testnet
  deriving DecidableEq

instance : ByteEnum TransactionVersion where
  toNat
    | .mainnet => 0x00
    | .testnet => 0x80
  ofNat?
    | 0x00 => some .mainnet
    | 0x80 => some .testnet
    | _ => none
  ofNat?_toNat member := by cases member <;> rfl
  toNat_lt member := by cases member <;> decide

/-- Types of assets. -/
inductive AssetInfoTypeID
  | stx
  | fungibleAsset
  | nonfungibleAsset
  deriving DecidableEq

instance : ByteEnum AssetInfoTypeID where
  toNat
    | .stx => 0
    | .fungibleAsset => 1
    | .nonfungibleAsset => 2
  ofNat?
    | 0 => some .stx
    | 1 => some .fungibleAsset
    | 2 => some .nonfungibleAsset
    | _ => none
  ofNat?_toNat member := by cases member <;> rfl
  toNat_lt member := by cases member <;> decide

/-- An address as a version and a hash. -/
structure StacksAddress where
  version : Nat
  bytes : Buffer
  deriving DecidableEq

/-- Types of principals in post-conditions. -/
inductive PostConditionPrincipalTypeID
  | origin
  | standard
  | contract
  deriving DecidableEq

instance : ByteEnum PostConditionPrincipalTypeID where
  toNat
    | .origin => 0x01
    | .standard => 0x02
    | .contract => 0x03
  ofNat?
    | 0x01 => some .origin
    | 0x02 => some .standard
    | 0x03 => some .contract
    | _ => none
  ofNat?_toNat member := by cases member <;> rfl
  toNat_lt member := by cases member <;> decide

/-- Whom a post-condition is about. -/
inductive PostConditionPrincipal
  | origin
  | standard (address : StacksAddress)
  | contract (address : StacksAddress) (contractName : String)
  deriving DecidableEq

/-- The type of the principal. -/
def PostConditionPrincipal.typeId : PostConditionPrincipal → PostConditionPrincipalTypeID
  | origin => .origin
  | standard _ => .standard
  | contract _ _ => .contract

/-- To whom a transfer goes. -/
inductive RecipientPrincipal
  | standard (address : StacksAddress)
  | contract (address : StacksAddress) (contractName : String)
  deriving DecidableEq

namespace RecipientPrincipal

/-- `RecipientPrincipalTypeId` -/
def typeId : RecipientPrincipal → Nat
  | standard _ => 0x05
  | contract _ _ => 0x06

/-- The address part of either kind of recipient. -/
def address : RecipientPrincipal → StacksAddress
  | standard address => address
  | contract address _ => address

end RecipientPrincipal

/-- How an amount that is sent compares with that of a post-condition. -/
inductive FungibleConditionCode
  | sentEq
  | sentGt
  | sentGe
  | sentLt
  | sentLe
  deriving DecidableEq

instance : ByteEnum FungibleConditionCode where
  toNat
    | .sentEq => 0x01
    | .sentGt => 0x02
    | .sentGe => 0x03
    | .sentLt => 0x04
    | .sentLe => 0x05
  ofNat?
    | 0x01 => some .sentEq
    | 0x02 => some .sentGt
    | 0x03 => some .sentGe
    | 0x04 => some .sentLt
    | 0x05 => some .sentLe
    | _ => none
  ofNat?_toNat member := by cases member <;> rfl
  toNat_lt member := by cases member <;> decide

/-- Whether a token is sent. -/
inductive NonfungibleConditionCode
  | sent
  | notSent
  deriving DecidableEq

instance : ByteEnum NonfungibleConditionCode where
  toNat
    | .sent => 0x10
    | .notSent => 0x11
  ofNat?
    | 0x10 => some .sent
    | 0x11 => some .notSent
    | _ => none
  ofNat?_toNat member := by cases member <;> rfl
  toNat_lt member := by cases member <;> decide

/-- An asset of a contract. -/
structure AssetInfo where
  contractAddress : StacksAddress
  contractName : String
  assetName : String
  deriving DecidableEq

/-- A post-condition on STX, on a fungible or on a non-fungible asset. -/
inductive TransactionPostCondition (CV : Type)
  | stx (principal : PostConditionPrincipal) (conditionCode : FungibleConditionCode)
      (amount : Int)
  | fungible (principal : PostConditionPrincipal) (asset : AssetInfo)
      (conditionCode : FungibleConditionCode) (amount : Int)
  | nonfungible (principal : PostConditionPrincipal) (asset : AssetInfo) (assetValue : CV)
      (conditionCode : NonfungibleConditionCode)
  deriving DecidableEq

/-- The type of the asset. -/
def TransactionPostCondition.assetInfoId {CV : Type} :
    TransactionPostCondition CV → AssetInfoTypeID
  | stx _ _ _ => .stx
  | fungible _ _ _ _ => .fungibleAsset
  | nonfungible _ _ _ _ => .nonfungibleAsset

/-- Types of payloads. -/
inductive TransactionPayloadTypeID
  | tokenTransfer
  | smartContract
  | contractCall
  | poisonMicroblock
  | coinbase
  deriving DecidableEq

instance : ByteEnum TransactionPayloadTypeID where
  toNat
    | .tokenTransfer => 0
    | .smartContract => 1
    | .contractCall => 2
    | .poisonMicroblock => 3
    | .coinbase => 4
  ofNat?
    | 0 => some .tokenTransfer
    | 1 => some .smartContract
    | 2 => some .contractCall
    | 3 => some .poisonMicroblock
    | 4 => some .coinbase
    | _ => none
  ofNat?_toNat member := by cases member <;> rfl
  toNat_lt member := by cases member <;> decide

/-- The five kinds of payload. -/
inductive TransactionPayload (CV : Type)
  | tokenTransfer (recipient : RecipientPrincipal) (amount : Int) (memo : Buffer)
  | smartContract (name codeBody : String)
  | contractCall (address : StacksAddress) (contractName functionName : String)
      (functionArgs : List CV) (rawFunctionArgs : Option Buffer)
  | poisonMicroblock (microblockHeader1 microblockHeader2 : Buffer)
  | coinbase (payload : Buffer)
  deriving DecidableEq

/-- The type of the payload. -/
def TransactionPayload.typeId {CV : Type} : TransactionPayload CV → TransactionPayloadTypeID
  | tokenTransfer _ _ _ => .tokenTransfer
  | smartContract _ _ => .smartContract
  | contractCall _ _ _ _ _ => .contractCall
  | poisonMicroblock _ _ => .poisonMicroblock
  | coinbase _ => .coinbase

/-- A transaction; the raw post-conditions are the bytes from which they were read. -/
structure Transaction (CV : Type) where
  version : TransactionVersion
  chainId : Nat
  auth : TransactionAuth
  anchorMode : TransactionAnchorMode
  postConditionMode : TransactionPostConditionMode
  postConditions : List (TransactionPostCondition CV)
  rawPostConditions : Buffer
  payload : TransactionPayload CV
  deriving DecidableEq

end StacksApi.P2p
