import StacksApi.Datastore.Balance
import StacksApi.EventStream.MempoolRun

/-!
# Who pays a fee

The fee of a transaction is paid by the signer of the sponsor condition when it
is sponsored.  The store keeps sender and fee of the origin condition and charges
these, so that its balances are right as long as no sponsored transaction sets
the two conditions apart.
-/

namespace StacksApi.EventStream

open StacksApi.Binary
open StacksApi.P2p
open StacksApi.Relational
open StacksApi.Datastore
open StacksApi.Transition

variable {CV : Type}

/-! ## Payments -/

/-- The condition whose signer pays the fee that it names. -/
def payingCondition : TransactionAuth → TransactionSpendingCondition
  | .standard originCondition => originCondition
  | .sponsored _ sponsorCondition => sponsorCondition

/-- The address of the condition that pays. -/
def payerAddress (addresses : AddressLibrary) (tx : Transaction CV) : Except ApiError String :=
  getAddressFromPublicKeyHash addresses (payingCondition tx.auth).signer
    (payingCondition tx.auth).hashMode tx.version

/-- Payer and fee of the raw transaction of a row. -/
def payment (libraries : Libraries CV) (row : DbTx Buffer) : Except ApiError (String × Int) := do
  let tx ← readBufferTransaction libraries row.rawTx
  let payer ← payerAddress libraries.addresses tx
  return (payer, (payingCondition tx.auth).feeRate)

/-- The row is paid by the address. -/
def paidBy (libraries : Libraries CV) (address : String) (row : DbTx Buffer) : Bool :=
  match payment libraries row with
  | .ok (payer, _) => decide (payer = address)
  | .error _ => false

/-- The fee of a row, as its raw transaction has it. -/
def paidFee (libraries : Libraries CV) (row : DbTx Buffer) : Int :=
  match payment libraries row with
  | .ok (_, fee) => fee
  | .error _ => 0

/-- The fees of the canonical transactions that the address pays. -/
def paidSum (libraries : Libraries CV) (db : Db) (address : String) : Int :=
  ((db.txs.filter fun row => row.canonical && paidBy libraries address row).map
    (paidFee libraries)).sum

/-- The balance of every address is what it received, less what it sent and the
fees that it pays. -/
def BalancesPaid (libraries : Libraries CV) (db : Db) : Prop :=
  ∀ address, (getStxBalance db address).balance =
    receivedSum db address - sentSum db address - paidSum libraries db address

/-! ## Rows -/

/-- Charging the sender with the origin fee charges the payer: there is no fee,
or the two conditions have one address and one fee. -/
def ChargesPayer (addresses : AddressLibrary) (tx : Transaction CV) : Prop :=
  tx.auth.originCondition.feeRate = 0 ∧ (payingCondition tx.auth).feeRate = 0 ∨
    tx.auth.originCondition.feeRate = (payingCondition tx.auth).feeRate ∧
      payerAddress addresses tx = getTxSenderAddress addresses tx

theorem chargesPayer_standard (addresses : AddressLibrary) {tx : Transaction CV}
    {originCondition : TransactionSpendingCondition}
    (standard : tx.auth = .standard originCondition) :
    ChargesPayer addresses tx := by
  right
  simp only [payerAddress, getTxSenderAddress, payingCondition, TransactionAuth.originCondition,
    standard, and_self]

/-- Sender and fee of the row are those of its raw transaction. -/
structure RowOf (libraries : Libraries CV) (row : DbTx Buffer) (tx : Transaction CV) : Prop where
  read : readBufferTransaction libraries row.rawTx = .ok tx
  sender : getTxSenderAddress libraries.addresses tx = .ok row.senderAddress
  feeRate : row.feeRate = tx.auth.originCondition.feeRate
  payer : ∃ payer, payerAddress libraries.addresses tx = .ok payer

/-- Every row is parsed from a transaction for which the payer is charged. -/
def RowsCharged (libraries : Libraries CV) (db : Db) : Prop :=
  ∀ row ∈ db.txs, ∃ tx, RowOf libraries row tx ∧ ChargesPayer libraries.addresses tx

variable {libraries : Libraries CV}

theorem RecordOf.exists_payer {msg : CoreNodeMessage} {coreTx : CoreNodeTxMessage}
    {tx : Transaction CV} {record : DbTx String}
    (recordOf : RecordOf libraries msg coreTx tx record) :
    ∃ payer, payerAddress libraries.addresses tx = .ok payer := by
  have sender := recordOf.sender
  have sponsor := recordOf.sponsor
  rw [getTxSenderAddress] at sender
  rw [getTxSponsorAddress] at sponsor
  rw [payerAddress]
  cases auth : tx.auth with
  | standard originCondition =>
      rw [auth] at sender
      exact ⟨_, sender⟩
  | sponsored originCondition sponsorCondition =>
      rw [auth] at sponsor
      obtain ⟨payer, payerOk, -⟩ := Except.map_eq_ok.mp sponsor
      exact ⟨payer, payerOk⟩

theorem RowsCharged.update {db reorged pruned db' : Db} {msg : CoreNodeMessage}
    {data : DataStoreUpdateData} {row : DbBlock Buffer} (charged : RowsCharged libraries db)
    (handed : messageData libraries msg = .ok data)
    (charges : ∀ coreTx ∈ msg.transactions, ∀ tx,
      readBufferTransaction libraries coreTx.txBuffer = .ok tx →
        ChargesPayer libraries.addresses tx)
    (accepted : Accepted db data reorged pruned row db') : RowsCharged libraries db' := by
  intro tx mem
  rcases accepted.tx_cases mem with ⟨original, originalMem, same⟩ | ⟨entry, entryMem, recorded⟩
  · obtain ⟨parsed, rowOf, chargesPayer⟩ := charged original originalMem
    have rawTx : original.rawTx = tx.rawTx := congrArg (fun tx => tx.rawTx) same
    have sender : original.senderAddress = tx.senderAddress :=
      congrArg (fun tx => tx.senderAddress) same
    have feeRate : original.feeRate = tx.feeRate := congrArg (fun tx => tx.feeRate) same
    exact ⟨parsed, ⟨rawTx ▸ rowOf.read, sender ▸ rowOf.sender, feeRate ▸ rowOf.feeRate,
      rowOf.payer⟩, chargesPayer⟩
  · obtain ⟨coreTx, coreMem, parsed, recordOf, -, -⟩ := exists_entryOf handed entryMem
    obtain ⟨status, -, shared⟩ := recordOf.shared
    have rawTx : tx.rawTx = coreTx.txBuffer :=
      (congrArg DbTxBase.rawTx recorded.columns).trans shared.rawTx
    have sender : tx.senderAddress = entry.tx.senderAddress :=
      congrArg DbTxBase.senderAddress recorded.columns
    have feeRate : tx.feeRate = parsed.auth.originCondition.feeRate :=
      (congrArg DbTxBase.feeRate recorded.columns).trans shared.feeRate
    exact ⟨parsed,
      { read := by rw [rawTx]; exact recordOf.read
        sender := by rw [sender]; exact recordOf.sender
        feeRate
        payer := recordOf.exists_payer },
      charges coreTx coreMem parsed recordOf.read⟩

/-- A charged row counts the same for sender and origin fee as for the payment. -/
theorem fee_eq_payment {row : DbTx Buffer} {tx : Transaction CV} (rowOf : RowOf libraries row tx)
    (charges : ChargesPayer libraries.addresses tx) (address : String) :
    (if row.canonical && decide (row.senderAddress = address) then row.feeRate else 0) =
      if row.canonical && paidBy libraries address row then paidFee libraries row else 0 := by
  obtain ⟨payer, payerOk⟩ := rowOf.payer
  have paid : payment libraries row = .ok (payer, (payingCondition tx.auth).feeRate) :=
    Except.bind_eq_ok.mpr ⟨tx, rowOf.read, Except.bind_eq_ok.mpr ⟨payer, payerOk, rfl⟩⟩
  rw [paidBy, paidFee, paid, rowOf.feeRate]
  rcases charges with ⟨noFee, noPayment⟩ | ⟨sameFee, sameAddress⟩
  · simp [noFee, noPayment]
  · rw [payerOk, rowOf.sender] at sameAddress
    rw [sameFee, Except.ok.inj sameAddress]

theorem RowsCharged.balancesPaid {db : Db} (charged : RowsCharged libraries db) :
    BalancesPaid libraries db := by
  intro address
  have fees : feeSum db address = paidSum libraries db address := by
    apply sum_filter_congr
    intro row mem
    obtain ⟨tx, rowOf, charges⟩ := charged row mem
    exact fee_eq_payment rowOf charges address
  rw [balance_getStxBalance, fees]

/-! ## Runs -/

/-- The payer is charged for every transaction of a block message. -/
def MessageCharges (libraries : Libraries CV) : ServerMessage → Prop
  | .newBlock msg => ∀ coreTx ∈ msg.transactions, ∀ tx,
      readBufferTransaction libraries coreTx.txBuffer = .ok tx →
        ChargesPayer libraries.addresses tx
  | .newMempoolTx _ _ => True

/-- Balances are right after every run in which sponsored transactions do not set
payer and sender apart. -/
theorem runServer_balancesPaid {messages past : List ServerMessage}
    (charges : ∀ message ∈ messages, MessageCharges libraries message)
    (isPrefix : past <+: messages) : BalancesPaid libraries (runServer libraries past) := by
  apply RowsCharged.balancesPaid
  apply runServer_invariant (P := RowsCharged libraries)
    (Q := fun _ message => MessageCharges libraries message) libraries
  · rintro row ⟨⟩
  · intro db message charged charges
    apply receive_invariant (P := RowsCharged libraries) libraries charged
    · rintro msg rfl data handed db' events accepted
      obtain ⟨-, reorged, pruned, row, accepted⟩ := update_ok accepted
      exact charged.update handed charges accepted
    · rintro receiptDate rawTxs rfl txs decoded tx mem pool after events holds inserted
      obtain ⟨row, -, rfl | rfl⟩ := insertMempoolTx_txId inserted
      · exact holds
      · exact holds
  · intro earlier message earlierPrefix
    apply charges
    exact (earlierPrefix.trans isPrefix).subset
      (List.mem_append_right _ (List.mem_singleton_self message))

/-- A transfer that its sender sponsors as well. -/
def ownSponsoredTransfer : Transaction Bool :=
  { sampleTransfer 1 with
    auth := .sponsored
      (.singleSig
        { hashMode := .p2pkh, signer := List.replicate 20 0, nonce := 0, feeRate := 180,
          keyEncoding := 0, signature := List.replicate 65 0 })
      (.singleSig
        { hashMode := .p2pkh, signer := List.replicate 20 0, nonce := 0, feeRate := 180,
          keyEncoding := 0, signature := List.replicate 65 0 }) }

theorem ownSponsoredTransfer_wellFormed : ownSponsoredTransfer.WellFormed :=
  { sampleTransfer_wellFormed (show IsU64 1 from ⟨by decide, by decide⟩) with
    auth := ⟨⟨List.length_replicate, ⟨by decide, by decide⟩, ⟨by decide, by decide⟩, by decide,
        List.length_replicate⟩,
      ⟨List.length_replicate, ⟨by decide, by decide⟩, ⟨by decide, by decide⟩, by decide,
        List.length_replicate⟩⟩ }

/-- The encoding of the transfer. -/
def ownSponsoredBuffer : Buffer :=
  encodeTransaction ClarityLibrary.booleans ownSponsoredTransfer

/-- The digest of its encoding. -/
def ownSponsoredTxId : Buffer :=
  [0xa6, 0x72, 0x76, 0xa9, 0x86, 0x9c, 0x45, 0x1c, 0xea, 0x71, 0x20, 0x69, 0xc6, 0x53, 0xf6, 0x57,
    0xd2, 0xf2, 0x74, 0x5c, 0xa4, 0x0d, 0x1b, 0x8f, 0xd2, 0x2e, 0x1e, 0x36, 0xbb, 0xe6, 0x34, 0x3a]

/-- The transfer in a block message, behind the other one. -/
def ownSponsoredCoreTx : CoreNodeTxMessage :=
  { sampleCoreTx with
    rawTx := bufferToHexPrefixString ownSponsoredBuffer
    txid := bufferToHexPrefixString ownSponsoredTxId
    txIndex := 1 }

/-- The sample transfer and the sponsored one in a block. -/
def paidBlock : CoreNodeMessage :=
  { sampleBlock with transactions := [sampleCoreTx, ownSponsoredCoreTx] }

/-- What is parsed of it. -/
def ownSponsoredParsed : CoreNodeParsedTxMessage Bool :=
  { sampleParsed with
    coreTx := ownSponsoredCoreTx
    parsedTx := ownSponsoredTransfer.asRead ClarityLibrary.booleans
    rawTx := ownSponsoredBuffer
    sponsorAddress := some "ST000000000000000000002AMW42H" }

theorem readBufferTransaction_ownSponsoredBuffer :
    readBufferTransaction sampleLibraries ownSponsoredBuffer =
      .ok (ownSponsoredTransfer.asRead ClarityLibrary.booleans) :=
  readBufferTransaction_encode sampleLibraries ClarityLibrary.booleans_roundTrips
    ownSponsoredTransfer_wellFormed

theorem txBuffer_ownSponsoredCoreTx : ownSponsoredCoreTx.txBuffer = ownSponsoredBuffer :=
  (show ownSponsoredCoreTx.Encodes sampleLibraries ownSponsoredTransfer from rfl).txBuffer

/-- Both transactions are stored, and each costs their sender 180 micro-STX. -/
theorem exists_runServer_paidBlock :
    ∃ db, runServer sampleLibraries [.newBlock paidBlock] = db ∧
      db.txs.map (fun row => row.sponsored) = [false, true] ∧
      (getStxBalance db "ST000000000000000000002AMW42H").balance = -360 := by
  have parsed : parseMessageTransaction sampleLibraries paidBlock sampleCoreTx =
      .ok sampleParsed := by
    rw [parseMessageTransaction, txBuffer_sampleCoreTx, readBufferTransaction_sampleBuffer]
    rfl
  have sponsoredParsed : parseMessageTransaction sampleLibraries paidBlock ownSponsoredCoreTx =
      .ok ownSponsoredParsed := by
    rw [parseMessageTransaction, txBuffer_ownSponsoredCoreTx,
      readBufferTransaction_ownSponsoredBuffer]
    rfl
  have all : parseMessageTransactions sampleLibraries paidBlock =
      .ok [sampleParsed, ownSponsoredParsed] :=
    mapM_eq_ok_iff.mpr (.cons parsed (.cons sponsoredParsed .nil))
  have facts : ((messageData sampleLibraries paidBlock >>= update Db.empty).map fun result =>
      (result.1.txs.map (fun row => row.sponsored),
        (getStxBalance result.1 "ST000000000000000000002AMW42H").balance)) =
      .ok ([false, true], -360) := by
    rw [messageData, all]
    decide +kernel
  obtain ⟨⟨after, events⟩, accepted, same⟩ := Except.map_eq_ok.mp facts
  obtain ⟨data, handed, updated⟩ := Except.bind_eq_ok.mp accepted
  obtain ⟨rows, balance⟩ := Prod.mk.inj same
  refine ⟨after, ?_, rows, balance⟩
  rw [runServer, List.foldl_cons, List.foldl_nil]
  exact receive_of_update handed (by rw [updated]; rfl)

/-- The payer of the sponsored transaction is its sender, so that the balances are right. -/
theorem runServer_balancesPaid_paidBlock :
    BalancesPaid sampleLibraries (runServer sampleLibraries [.newBlock paidBlock]) ∧
      (runServer sampleLibraries [.newBlock paidBlock]).txs.map (fun row => row.sponsored) =
        [false, true] ∧
      (getStxBalance (runServer sampleLibraries [.newBlock paidBlock])
        "ST000000000000000000002AMW42H").balance = -360 := by
  obtain ⟨db, same, facts⟩ := exists_runServer_paidBlock
  refine ⟨?_, same ▸ facts⟩
  apply runServer_balancesPaid _ (List.prefix_refl _)
  intro message mem
  obtain rfl := List.mem_singleton.mp mem
  intro coreTx coreMem tx read
  rcases List.mem_pair.mp coreMem with rfl | rfl
  · rw [txBuffer_sampleCoreTx, readBufferTransaction_sampleBuffer] at read
    cases read
    exact chargesPayer_standard _ rfl
  · rw [txBuffer_ownSponsoredCoreTx, readBufferTransaction_ownSponsoredBuffer] at read
    cases read
    exact .inr ⟨rfl, rfl⟩

/-! ## A sponsored transfer -/

/-- A transfer without a fee of its own, whose sponsor pays 300 micro-STX. -/
def sponsoredTransfer : Transaction Bool :=
  { sampleTransfer 1 with
    auth := .sponsored
      (.singleSig
        { hashMode := .p2pkh, signer := List.replicate 20 0, nonce := 0, feeRate := 0,
          keyEncoding := 0, signature := List.replicate 65 0 })
      (.singleSig
        { hashMode := .p2wpkh, signer := List.replicate 20 0, nonce := 0, feeRate := 300,
          keyEncoding := 0, signature := List.replicate 65 0 }) }

theorem sponsoredTransfer_wellFormed : sponsoredTransfer.WellFormed :=
  { sampleTransfer_wellFormed (show IsU64 1 from ⟨by decide, by decide⟩) with
    auth := ⟨⟨List.length_replicate, ⟨by decide, by decide⟩, ⟨by decide, by decide⟩, by decide,
        List.length_replicate⟩,
      ⟨List.length_replicate, ⟨by decide, by decide⟩, ⟨by decide, by decide⟩, by decide,
        List.length_replicate⟩⟩ }

/-- The digest of its encoding. -/
def sponsoredTxId : Buffer :=
  [0x64, 0xb4, 0x47, 0x32, 0xb2, 0x45, 0xfb, 0x9c, 0xe1, 0x5b, 0xba, 0xb7, 0x23, 0xef, 0x06, 0x33,
    0x29, 0x57, 0x21, 0x14, 0x5d, 0x32, 0x20, 0xfc, 0x9e, 0xe3, 0x98, 0xb1, 0x42, 0x43, 0xbe, 0xb0]

/-- The encoding of the transfer. -/
def sponsoredBuffer : Buffer :=
  encodeTransaction ClarityLibrary.booleans sponsoredTransfer

/-- The transfer in a block message. -/
def sponsoredCoreTx : CoreNodeTxMessage :=
  { sampleCoreTx with
    rawTx := bufferToHexPrefixString sponsoredBuffer
    txid := bufferToHexPrefixString sponsoredTxId }

/-- A block message with the transfer. -/
def sponsoredBlock : CoreNodeMessage :=
  { sampleBlock with transactions := [sponsoredCoreTx] }

/-- The columns of the transfer. -/
def sponsoredColumns {ι : Type} (txId : ι) : DbTxBase ι where
  txId := txId
  rawTx := sponsoredBuffer
  typeId := .tokenTransfer
  status := .success
  postConditions := [2, 0, 0, 0, 0]
  feeRate := 0
  senderAddress := "ST000000000000000000002AMW42H"
  originHashMode := 0
  sponsored := true
  sponsorAddress := some "SN000000000000000000003YDHWKJ"
  tokenTransferRecipientAddress := some "ST000000000000000000002AMW42H"
  tokenTransferAmount := some 1
  tokenTransferMemo := some (List.replicate 34 0)

/-- What is parsed of it. -/
def sponsoredParsed : CoreNodeParsedTxMessage Bool where
  coreTx := sponsoredCoreTx
  parsedTx := sponsoredTransfer.asRead ClarityLibrary.booleans
  rawTx := sponsoredBuffer
  senderAddress := "ST000000000000000000002AMW42H"
  sponsorAddress := some "SN000000000000000000003YDHWKJ"
  blockHash := "0x11"
  indexBlockHash := "0x11"
  blockHeight := 1
  burnBlockTime := 1594647996

/-- The entry of the transfer. -/
def sponsoredEntry : TxEntry where
  tx :=
    { toDbTxBase := sponsoredColumns (bufferToHexPrefixString sponsoredTxId)
      indexBlockHash := "0x11"
      blockHash := "0x11"
      blockHeight := 1
      burnBlockTime := 1594647996
      txIndex := 0
      rawResult := some "0x03"
      canonical := true }
  stxEvents := []
  ftEvents := []
  nftEvents := []
  contractLogEvents := []
  smartContracts := []

/-- The row of the transfer. -/
def sponsoredRow : DbTx Buffer where
  toDbTxBase := sponsoredColumns sponsoredTxId
  indexBlockHash := [0x11]
  blockHash := [0x11]
  blockHeight := 1
  burnBlockTime := 1594647996
  txIndex := 0
  rawResult := some [0x03]
  canonical := true

/-- The tables with the sponsored transfer. -/
def sponsoredTables : Db :=
  { Db.empty with
    blocks := [sampleBlockRow]
    txs := [sponsoredRow] }

theorem readBufferTransaction_sponsoredBuffer :
    readBufferTransaction sampleLibraries sponsoredBuffer =
      .ok (sponsoredTransfer.asRead ClarityLibrary.booleans) :=
  readBufferTransaction_encode sampleLibraries ClarityLibrary.booleans_roundTrips
    sponsoredTransfer_wellFormed

theorem messageData_sponsoredBlock : messageData sampleLibraries sponsoredBlock =
    .ok { block := messageBlock sponsoredBlock, txs := [sponsoredEntry] } := by
  have buffer : sponsoredCoreTx.txBuffer = sponsoredBuffer :=
    (show sponsoredCoreTx.Encodes sampleLibraries sponsoredTransfer from rfl).txBuffer
  have parsed : parseMessageTransaction sampleLibraries sponsoredBlock sponsoredCoreTx =
      .ok sponsoredParsed := by
    rw [parseMessageTransaction, buffer, readBufferTransaction_sponsoredBuffer]
    rfl
  have all : parseMessageTransactions sampleLibraries sponsoredBlock = .ok [sponsoredParsed] :=
    mapM_eq_ok_iff.mpr (.cons parsed .nil)
  rw [messageData, all]
  rfl

theorem runServer_sponsoredBlock :
    runServer sampleLibraries [.newBlock sponsoredBlock] = sponsoredTables := by
  rw [runServer, List.foldl_cons, List.foldl_nil]
  exact receive_of_update messageData_sponsoredBlock (by decide +kernel)

/-- The sponsor of the transfer pays 300 micro-STX and is charged nothing. -/
theorem runServer_sponsoredBlock_unpaid :
    runServer sampleLibraries [.newBlock sponsoredBlock] = sponsoredTables ∧
      (getStxBalance sponsoredTables "SN000000000000000000003YDHWKJ").balance = 0 ∧
      paidSum sampleLibraries sponsoredTables "SN000000000000000000003YDHWKJ" = 300 ∧
      ¬BalancesPaid sampleLibraries sponsoredTables := by
  have balance :
      (getStxBalance sponsoredTables "SN000000000000000000003YDHWKJ").balance = 0 := by
    decide +kernel
  have paid :
      paidSum sampleLibraries sponsoredTables "SN000000000000000000003YDHWKJ" = 300 := by
    have single : payment sampleLibraries sponsoredRow =
        .ok ("SN000000000000000000003YDHWKJ", 300) := by
      rw [payment, show sponsoredRow.rawTx = sponsoredBuffer from rfl,
        readBufferTransaction_sponsoredBuffer]
      rfl
    have isCanonical : sponsoredRow.canonical = true := rfl
    simp [paidSum, sponsoredTables, paidBy, paidFee, single, isCanonical]
  refine ⟨runServer_sponsoredBlock, balance, paid, ?_⟩
  intro balances
  have same := balances "SN000000000000000000003YDHWKJ"
  rw [balance, paid] at same
  exact absurd same (by decide +kernel)

end StacksApi.EventStream
