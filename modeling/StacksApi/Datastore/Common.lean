import StacksApi.Helpers

/-!
# Records of the data store

The record types of `datastore/common.ts`.  A record holds byte strings as `0x`
prefixed text, a row of a table holds them as buffers; both are the same type at
two values of the parameter `ι`, so that a row has exactly the fields of its
record.  Heights and event positions are natural numbers, other numbers are
integers.
-/

namespace StacksApi.Datastore

open StacksApi.Binary

/-- A block; its hashes are texts outside the database and bytes in it. -/
structure DbBlock (ι : Type) where
  blockHash : ι
  burnBlockTime : Int
  indexBlockHash : ι
  parentIndexBlockHash : ι
  parentBlockHash : ι
  parentMicroblock : ι
  blockHeight : Nat
  /-- Set to `true` if entry corresponds to the canonical chain tip. -/
  canonical : Bool
  deriving DecidableEq

/-- Types of transactions. -/
inductive DbTxTypeId
  | tokenTransfer
  | smartContract
  | contractCall
  | poisonMicroblock
  | coinbase
  deriving DecidableEq

/-- What has become of a transaction. -/
inductive DbTxStatus
  | pending
  | success
  | abortByResponse
  | abortByPostCondition
  deriving DecidableEq

/-- The fields that `DbTx` and `DbMempoolTx` share.  The optional ones from
`tokenTransferRecipientAddress` on belong to one type of transaction each. -/
structure DbTxBase (ι : Type) where
  txId : ι
  rawTx : Buffer
  typeId : DbTxTypeId
  status : DbTxStatus
  postConditions : Buffer
  feeRate : Int
  senderAddress : String
  originHashMode : Nat
  sponsored : Bool
  sponsorAddress : Option String
  tokenTransferRecipientAddress : Option String := none
  tokenTransferAmount : Option Int := none
  tokenTransferMemo : Option Buffer := none
  contractCallContractId : Option String := none
  contractCallFunctionName : Option String := none
  contractCallFunctionArgs : Option Buffer := none
  smartContractContractId : Option String := none
  smartContractSourceCode : Option String := none
  poisonMicroblockHeader1 : Option Buffer := none
  poisonMicroblockHeader2 : Option Buffer := none
  coinbasePayload : Option Buffer := none
  deriving DecidableEq

/-- A transaction in a block. -/
structure DbTx (ι : Type) extends DbTxBase ι where
  indexBlockHash : ι
  blockHash : ι
  blockHeight : Nat
  burnBlockTime : Int
  txIndex : Int
  rawResult : Option ι
  canonical : Bool
  deriving DecidableEq

/-- A pending transaction. -/
structure DbMempoolTx (ι : Type) extends DbTxBase ι where
  receiptTime : Int
  deriving DecidableEq

/-- A deployed contract with its interface as text. -/
structure DbSmartContract (ι : Type) where
  txId : ι
  canonical : Bool
  contractId : String
  blockHeight : Nat
  sourceCode : String
  abi : String
  deriving DecidableEq

/-- What all events have: the transaction and the place in it. -/
structure DbEventBase (ι : Type) where
  eventIndex : Nat
  txId : ι
  txIndex : Int
  blockHeight : Nat
  canonical : Bool
  deriving DecidableEq

/-- What a contract logs. -/
structure DbSmartContractEvent (ι : Type) extends DbEventBase ι where
  contractIdentifier : String
  topic : String
  value : Buffer
  deriving DecidableEq

/-- What an asset event does. -/
inductive DbAssetEventTypeId
  | transfer
  | mint
  | burn
  deriving DecidableEq

/-- What the events of all assets have: the parties. -/
structure DbAssetEvent (ι : Type) extends DbEventBase ι where
  assetEventTypeId : DbAssetEventTypeId
  sender : Option String
  recipient : Option String
  deriving DecidableEq

/-- An amount of STX is moved. -/
structure DbStxEvent (ι : Type) extends DbAssetEvent ι where
  amount : Int
  deriving DecidableEq

/-- What the events of assets of contracts have: the asset. -/
structure DbContractAssetEvent (ι : Type) extends DbAssetEvent ι where
  assetIdentifier : String
  deriving DecidableEq

/-- An amount of a fungible token is moved. -/
structure DbFtEvent (ι : Type) extends DbContractAssetEvent ι where
  amount : Int
  deriving DecidableEq

/-- A non-fungible token is moved. -/
structure DbNftEvent (ι : Type) extends DbContractAssetEvent ι where
  value : Buffer
  deriving DecidableEq

/-- An entry of `DataStoreUpdateData.txs`: a transaction with what it did. -/
structure TxEntry where
  tx : DbTx String
  stxEvents : List (DbStxEvent String)
  ftEvents : List (DbFtEvent String)
  nftEvents : List (DbNftEvent String)
  contractLogEvents : List (DbSmartContractEvent String)
  smartContracts : List (DbSmartContract String)
  deriving DecidableEq

/-- What `update` is handed: a block with its transactions. -/
structure DataStoreUpdateData where
  block : DbBlock String
  txs : List TxEntry
  deriving DecidableEq

/-- The transactions of an update that concern an address. -/
structure AddressTxUpdateInfo where
  address : String
  txs : List (DbTx String)
  deriving DecidableEq

/-- What the data store announces to its listeners. -/
inductive DataStoreEvent
  | blockUpdate (block : DbBlock String)
  | txUpdate (tx : DbTx String)
  | mempoolTxUpdate (tx : DbMempoolTx String)
  | addressUpdate (info : AddressTxUpdateInfo)
  deriving DecidableEq

/-! ## The canonical flag -/

/-- Records with a canonical flag that can be replaced. -/
class CanonicalEntity (α : Type) where
  canonical : α → Bool
  withCanonical : Bool → α → α
  canonical_withCanonical : ∀ value entity, canonical (withCanonical value entity) = value := by
    intros; rfl
  withCanonical_withCanonical : ∀ value value' entity,
    withCanonical value (withCanonical value' entity) = withCanonical value entity := by
    intros; rfl
  withCanonical_canonical : ∀ entity, withCanonical (canonical entity) entity = entity := by
    intros; rfl

open CanonicalEntity

attribute [simp] canonical_withCanonical withCanonical_withCanonical withCanonical_canonical

variable {ι : Type}

instance : CanonicalEntity (DbBlock ι) where
  canonical := DbBlock.canonical
  withCanonical value block := { block with canonical := value }

instance : CanonicalEntity (DbTx ι) where
  canonical := DbTx.canonical
  withCanonical value tx := { tx with canonical := value }

instance : CanonicalEntity (DbSmartContract ι) where
  canonical := DbSmartContract.canonical
  withCanonical value contract := { contract with canonical := value }

instance : CanonicalEntity (DbSmartContractEvent ι) where
  canonical event := event.canonical
  withCanonical value event := { event with canonical := value }

instance : CanonicalEntity (DbStxEvent ι) where
  canonical event := event.canonical
  withCanonical value event := { event with canonical := value }

instance : CanonicalEntity (DbFtEvent ι) where
  canonical event := event.canonical
  withCanonical value event := { event with canonical := value }

instance : CanonicalEntity (DbNftEvent ι) where
  canonical event := event.canonical
  withCanonical value event := { event with canonical := value }

/-- `{ ...entry, canonical: false }` throughout an entry. -/
def TxEntry.markNonCanonical (entry : TxEntry) : TxEntry where
  tx := withCanonical false entry.tx
  stxEvents := entry.stxEvents.map (withCanonical false)
  ftEvents := entry.ftEvents.map (withCanonical false)
  nftEvents := entry.nftEvents.map (withCanonical false)
  contractLogEvents := entry.contractLogEvents.map (withCanonical false)
  smartContracts := entry.smartContracts.map (withCanonical false)

/-- The block and all its entries off the canonical chain. -/
def DataStoreUpdateData.markNonCanonical (data : DataStoreUpdateData) : DataStoreUpdateData where
  block := withCanonical false data.block
  txs := data.txs.map TxEntry.markNonCanonical

end StacksApi.Datastore
