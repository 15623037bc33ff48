import StacksApi.Datastore.Common
import StacksApi.Relational.Table

/-!
# Tables of the data store

The rows of the tables that `migrations/` creates, and which rows the column
types and the `CHECK` constraints admit.  A row of an event or contract table is
the record with the index hash of its block beside it.  The serial `id` columns
are the positions of the rows.
-/

namespace StacksApi.Datastore

open StacksApi.Binary
open StacksApi.Relational
open CanonicalEntity

/-! ## Column types -/

/-- The range of a `smallint` column. -/
def isSmallint (value : Int) : Bool :=
  decide (-2 ^ 15 ≤ value ∧ value < 2 ^ 15)

/-- The range of an `integer` column. -/
def isInteger (value : Int) : Bool :=
  decide (-2 ^ 31 ≤ value ∧ value < 2 ^ 31)

/-- The range of a `bigint` column. -/
def isBigint (value : Int) : Bool :=
  decide (-2 ^ 63 ≤ value ∧ value < 2 ^ 63)

/-- `numeric(78, 0)` -/
def isNumeric78 (value : Int) : Bool :=
  decide (-10 ^ 78 < value ∧ value < 10 ^ 78)

/-- A `text` column holds no character with code zero. -/
def isText (value : String) : Bool :=
  value.toList.all fun char => char != Char.ofNat 0

/-! ## Admitted rows -/

variable {ι : Type}

/-- The columns of `blocks` take the values. -/
def DbBlock.admitted (block : DbBlock ι) : Bool :=
  isInteger block.blockHeight && isInteger block.burnBlockTime

/-- The constraints `valid_token_transfer` … `valid_coinbase`: `NOT (…) IS NULL`
holds of a group of columns as soon as one of them is set. -/
def DbTxBase.validPayload (tx : DbTxBase ι) : Bool :=
  match tx.typeId with
  | .tokenTransfer => tx.tokenTransferRecipientAddress.isSome || tx.tokenTransferAmount.isSome ||
      tx.tokenTransferMemo.isSome
  | .smartContract => tx.smartContractContractId.isSome || tx.smartContractSourceCode.isSome
  | .contractCall => tx.contractCallContractId.isSome || tx.contractCallFunctionName.isSome ||
      tx.contractCallFunctionArgs.isSome
  | .poisonMicroblock => tx.poisonMicroblockHeader1.isSome || tx.poisonMicroblockHeader2.isSome
  | .coinbase => tx.coinbasePayload.isSome

/-- The columns that `txs` and `mempool_txs` share. -/
def DbTxBase.admitted (tx : DbTxBase ι) : Bool :=
  isBigint tx.feeRate && isText tx.senderAddress && isSmallint tx.originHashMode &&
    tx.sponsorAddress.all isText && tx.tokenTransferRecipientAddress.all isText &&
    tx.tokenTransferAmount.all isBigint && tx.contractCallContractId.all isText &&
    tx.contractCallFunctionName.all isText && tx.smartContractContractId.all isText &&
    tx.smartContractSourceCode.all isText && tx.validPayload

/-- The columns of `txs` take the values. -/
def DbTx.admitted (tx : DbTx ι) : Bool :=
  tx.toDbTxBase.admitted && isSmallint tx.txIndex && isInteger tx.blockHeight &&
    isInteger tx.burnBlockTime

/-- The columns of `mempool_txs` take the values. -/
def DbMempoolTx.admitted (tx : DbMempoolTx ι) : Bool :=
  tx.toDbTxBase.admitted && isInteger tx.receiptTime

/-- The columns that all tables of events have take the values. -/
def DbEventBase.admitted (event : DbEventBase ι) : Bool :=
  isInteger event.eventIndex && isSmallint event.txIndex && isInteger event.blockHeight

/-- The constraints `valid_asset_transfer`, `valid_asset_mint` and `valid_asset_burn`. -/
def DbAssetEvent.admitted (event : DbAssetEvent ι) : Bool :=
  event.toDbEventBase.admitted && event.sender.all isText && event.recipient.all isText &&
    match event.assetEventTypeId with
    | .transfer => event.sender.isSome || event.recipient.isSome
    | .mint => event.sender.isNone && event.recipient.isSome
    | .burn => event.recipient.isNone && event.sender.isSome

/-- The columns of `stx_events` take the values. -/
def DbStxEvent.admitted (event : DbStxEvent ι) : Bool :=
  event.toDbAssetEvent.admitted && isBigint event.amount

/-- The columns that the tables of tokens have take the values. -/
def DbContractAssetEvent.admitted (event : DbContractAssetEvent ι) : Bool :=
  event.toDbAssetEvent.admitted && isText event.assetIdentifier

/-- The columns of `ft_events` take the values. -/
def DbFtEvent.admitted (event : DbFtEvent ι) : Bool :=
  event.toDbContractAssetEvent.admitted && isNumeric78 event.amount

/-- The columns of `nft_events` take the values. -/
def DbNftEvent.admitted (event : DbNftEvent ι) : Bool :=
  event.toDbContractAssetEvent.admitted

/-- The columns of `contract_logs` take the values. -/
def DbSmartContractEvent.admitted (event : DbSmartContractEvent ι) : Bool :=
  event.toDbEventBase.admitted && isText event.contractIdentifier && isText event.topic

/-- The columns of `smart_contracts` take the values. -/
def DbSmartContract.admitted (contract : DbSmartContract ι) : Bool :=
  isText contract.contractId && isInteger contract.blockHeight && isText contract.sourceCode &&
    isText contract.abi

/-! ## Rows -/

/-- A row of a table whose records do not name their block themselves. -/
structure InBlock (α : Type) where
  indexBlockHash : Buffer
  entity : α
  deriving DecidableEq

instance : Flagged (DbBlock Buffer) Buffer where
  key := DbBlock.indexBlockHash
  flag := canonical
  withFlag := withCanonical
  key_withFlag _ _ := rfl
  flag_withFlag := canonical_withCanonical
  withFlag_withFlag := withCanonical_withCanonical
  withFlag_flag := withCanonical_canonical

instance : Flagged (DbTx Buffer) Buffer where
  key := DbTx.indexBlockHash
  flag := canonical
  withFlag := withCanonical
  key_withFlag _ _ := rfl
  flag_withFlag := canonical_withCanonical
  withFlag_withFlag := withCanonical_withCanonical
  withFlag_flag := withCanonical_canonical

instance {α : Type} [CanonicalEntity α] : Flagged (InBlock α) Buffer where
  key := InBlock.indexBlockHash
  flag row := canonical row.entity
  withFlag value row := { row with entity := withCanonical value row.entity }
  key_withFlag _ _ := rfl
  flag_withFlag value row := canonical_withCanonical value row.entity
  withFlag_withFlag value value' row := by simp
  withFlag_flag row := by simp

/-- The tables. -/
structure Db where
  blocks : List (DbBlock Buffer)
  txs : List (DbTx Buffer)
  stxEvents : List (InBlock (DbStxEvent Buffer))
  ftEvents : List (InBlock (DbFtEvent Buffer))
  nftEvents : List (InBlock (DbNftEvent Buffer))
  contractLogs : List (InBlock (DbSmartContractEvent Buffer))
  smartContracts : List (InBlock (DbSmartContract Buffer))
  mempoolTxs : List (DbMempoolTx Buffer)
  deriving DecidableEq

/-- The tables after the migrations. -/
def Db.empty : Db where
  blocks := []
  txs := []
  stxEvents := []
  ftEvents := []
  nftEvents := []
  contractLogs := []
  smartContracts := []
  mempoolTxs := []

end StacksApi.Datastore
