import StacksApi.Controllers.DbController
import StacksApi.Datastore.FromCore
import StacksApi.Datastore.TxEvents
import StacksApi.P2p.Reparse

/-!
# Which transactions can be shown

A stored transaction is shown from its columns, which were parsed from its raw
bytes, and for a contract call also from the interface of the contract, which may
not be stored.  Showing it succeeds exactly when its post-conditions name addresses
with texts, the called function is in the interface with a parameter for every
argument, and there are no events of a type that cannot have any.
-/

namespace StacksApi.Controllers

open StacksApi.Binary
open StacksApi.P2p
open StacksApi.Datastore
open StacksApi.EventStream
open StacksApi.Relational
open StacksApi.Serializers
open StacksApi.Transition

variable {CV Ty : Type}

/-! ## Conditions -/

/-- The addresses of the condition have texts. -/
def HasTexts (addresses : AddressLibrary) : TransactionPostCondition CV → Prop
  | .stx principal _ _ => PrincipalHasText addresses principal
  | .fungible principal asset _ _ =>
      PrincipalHasText addresses principal ∧ HasText addresses asset.contractAddress
  | .nonfungible principal asset _ _ =>
      PrincipalHasText addresses principal ∧ HasText addresses asset.contractAddress

/-- The contract is stored, and its interface has the function, with a parameter for
each of so many arguments. -/
def Callable (abis : AbiLibrary Ty) (db : Db) (contractId functionName : String)
    (argCount : Nat) : Prop :=
  ∃ contract, getSmartContract db contractId = some contract ∧
    ∃ functions, abis.parseAbi contract.abi = .ok functions ∧
      ∃ function, functions.find? (fun fn => fn.name = functionName) = some function ∧
        Succeeds (abis.abiFunctionToString function) ∧ argCount ≤ function.args.length ∧
        ∀ arg ∈ function.args.take argCount, Succeeds (abis.getTypeString arg.type)

/-- What showing a transaction asks of it and of the stored contracts. -/
def Presentable (addresses : AddressLibrary) (abis : AbiLibrary Ty) (db : Db)
    (tx : P2p.Transaction CV) : Prop :=
  match tx.payload with
  | .smartContract _ _ => ∀ condition ∈ tx.postConditions, HasTexts addresses condition
  | .contractCall address contractName functionName functionArgs _ =>
      (∀ condition ∈ tx.postConditions, HasTexts addresses condition) ∧
        ∃ contractAddress, addressText addresses address = .ok contractAddress ∧
          Callable abis db s!"{contractAddress}.{contractName}" functionName functionArgs.length
  | _ => True

/-! ## Columns -/

/-- The columns of the type of the transaction are set from its payload. -/
def PayloadColumns {ι : Type} (addresses : AddressLibrary) (row : DbTxBase ι) :
    TransactionPayload CV → Prop
  | .tokenTransfer _ _ _ => row.tokenTransferRecipientAddress.isSome ∧
      row.tokenTransferAmount.isSome ∧ row.tokenTransferMemo.isSome
  | .smartContract _ _ => row.smartContractContractId.isSome ∧ row.smartContractSourceCode.isSome
  | .contractCall address contractName functionName _ rawFunctionArgs =>
      (∃ contractAddress, addressText addresses address = .ok contractAddress ∧
        row.contractCallContractId = some s!"{contractAddress}.{contractName}") ∧
      row.contractCallFunctionName = some functionName ∧
      row.contractCallFunctionArgs = rawFunctionArgs
  | .poisonMicroblock _ _ => row.poisonMicroblockHeader1.isSome ∧ row.poisonMicroblockHeader2.isSome
  | .coinbase _ => row.coinbasePayload.isSome

/-- The columns are those of the transaction in the raw bytes. -/
structure StoredFrom {ι : Type} (libraries : Libraries CV) (row : DbTxBase ι)
    (tx : P2p.Transaction CV) : Prop where
  read : readBufferTransaction libraries row.rawTx = .ok tx
  typeId : row.typeId = dbTxTypeId tx.payload.typeId
  postConditions : row.postConditions = tx.rawPostConditions
  payload : PayloadColumns libraries.addresses row tx.payload

variable {libraries : Libraries CV} {abis : AbiLibrary Ty} {db : Db} {tx : P2p.Transaction CV}

theorem StoredFrom.rereads {ι : Type} {row : DbTxBase ι}
    (localCV : Local libraries.clarity.deserializeCV) (storedFrom : StoredFrom libraries row tx) :
    Rereads libraries.clarity tx := by
  obtain ⟨⟨tx', final⟩, read, same⟩ := Except.map_eq_ok.mp storedFrom.read
  cases same
  exact rereads_of_readTransaction localCV read

/-- The record of a row has the columns of the type of the transaction. -/
theorem StoredFrom.of_parseTxColumns {row : DbTxBase Buffer} {parsed : DbTxBase String}
    (storedFrom : StoredFrom libraries row tx) (parsedOk : parseTxColumns row = .ok parsed) :
    StoredFrom libraries parsed tx := by
  obtain ⟨read, typeId, postConditions, payload⟩ := storedFrom
  rw [parseTxColumns, typeId] at parsedOk
  cases kind : tx.payload with
  | tokenTransfer recipient amount memo =>
      rw [kind] at payload typeId parsedOk
      obtain ⟨recipientSome, amountSome, memoSome⟩ := payload
      obtain ⟨value, amountOk, same⟩ := Except.bind_eq_ok.mp parsedOk
      cases same
      exact ⟨read, by rw [kind], postConditions, by rw [kind]; exact ⟨recipientSome, rfl, memoSome⟩⟩
  | smartContract name codeBody =>
      rw [kind] at payload typeId parsedOk
      cases parsedOk
      exact ⟨read, by rw [kind], postConditions, by rw [kind]; exact payload⟩
  | contractCall address contractName functionName functionArgs rawFunctionArgs =>
      rw [kind] at payload typeId parsedOk
      cases parsedOk
      exact ⟨read, by rw [kind], postConditions, by rw [kind]; exact payload⟩
  | poisonMicroblock header1 header2 =>
      rw [kind] at payload typeId parsedOk
      cases parsedOk
      exact ⟨read, by rw [kind], postConditions, by rw [kind]; exact payload⟩
  | coinbase payload' =>
      rw [kind] at payload typeId parsedOk
      cases parsedOk
      exact ⟨read, by rw [kind], postConditions, by rw [kind]; exact payload⟩

theorem StoredFrom.succeeds_parseTxColumns {row : DbTxBase Buffer}
    (storedFrom : StoredFrom libraries row tx) : Succeeds (parseTxColumns row) := by
  have payload := storedFrom.payload
  rw [parseTxColumns, storedFrom.typeId]
  cases kind : tx.payload with
  | tokenTransfer recipient amount memo =>
      rw [kind] at payload
      obtain ⟨-, amountSome, -⟩ := payload
      obtain ⟨value, amountOk⟩ := Option.isSome_iff_exists.mp amountSome
      rw [amountOk]
      exact ⟨_, rfl⟩
  | smartContract name codeBody => exact ⟨_, rfl⟩
  | contractCall address contractName functionName functionArgs rawFunctionArgs => exact ⟨_, rfl⟩
  | poisonMicroblock header1 header2 => exact ⟨_, rfl⟩
  | coinbase payload => exact ⟨_, rfl⟩

/-! ## Details -/

theorem succeeds_serializePostCondition_iff {addresses : AddressLibrary}
    {clarity : ClarityLibrary CV} {condition : TransactionPostCondition CV} :
    Succeeds (serializePostCondition addresses clarity condition) ↔
      HasTexts addresses condition := by
  have asset : ∀ asset : AssetInfo, Succeeds (serializePostConditionAsset addresses asset) ↔
      HasText addresses asset.contractAddress :=
    fun _ => succeeds_bind_of_total fun _ => succeeds_pure _
  cases condition with
  | stx principal conditionCode amount =>
      exact (succeeds_bind_of_total fun _ => succeeds_pure _).trans
        exists_serializePostConditionPrincipal_iff
  | fungible principal assetInfo conditionCode amount =>
      refine (succeeds_bind_of_iff fun _ => ?_).trans
        (and_congr exists_serializePostConditionPrincipal_iff Iff.rfl)
      exact (succeeds_bind_of_total fun _ => succeeds_pure _).trans (asset assetInfo)
  | nonfungible principal assetInfo assetValue conditionCode =>
      refine (succeeds_bind_of_iff fun _ => ?_).trans
        (and_congr exists_serializePostConditionPrincipal_iff Iff.rfl)
      exact (succeeds_bind_of_total fun _ => succeeds_pure _).trans (asset assetInfo)

theorem succeeds_parseFunctionArgs_iff {clarity : ClarityLibrary CV} {functionArgs : List CV}
    {args : List (ClarityAbiFunctionArg Ty)} :
    Succeeds (parseFunctionArgs clarity abis functionArgs args) ↔
      functionArgs.length ≤ args.length ∧
        ∀ arg ∈ args.take functionArgs.length, Succeeds (abis.getTypeString arg.type) := by
  induction functionArgs generalizing args with
  | nil => simp [parseFunctionArgs]
  | cons c functionArgs ih =>
      cases args with
      | nil => simp [parseFunctionArgs]
      | cons arg args =>
          rw [parseFunctionArgs, List.length_cons, List.length_cons, List.take_succ_cons,
            List.forall_mem_cons, Nat.add_le_add_iff_right]
          refine (succeeds_bind_of_iff fun _ =>
            (succeeds_bind_of_total fun _ => succeeds_pure _).trans ih).trans ?_
          tauto

theorem readStoredPostConditions_eq {clarity : ClarityLibrary CV} {dbTx : DbTxBase String}
    (rereads : Rereads clarity tx) (same : dbTx.postConditions = tx.rawPostConditions) :
    readStoredPostConditions clarity dbTx.postConditions = .ok tx.postConditions := by
  rw [readStoredPostConditions, same, rereads.postConditions]
  rfl

theorem succeeds_unwrapOptional_bind_iff {α β : Type} {val : Option α} {onNullish : String}
    {next : α → Except ApiError β} :
    Succeeds (unwrapOptional val onNullish >>= next) ↔
      ∃ value, val = some value ∧ Succeeds (next value) := by
  rw [succeeds_bind_iff]
  cases val with
  | none => simp [unwrapOptional]
  | some value => simp [unwrapOptional]

theorem succeeds_mapM_serializePostCondition_iff {addresses : AddressLibrary}
    {clarity : ClarityLibrary CV} {conditions : List (TransactionPostCondition CV)} :
    Succeeds (conditions.mapM (serializePostCondition addresses clarity)) ↔
      ∀ condition ∈ conditions, HasTexts addresses condition :=
  succeeds_mapM_iff.trans (forall₂_congr fun _ _ => succeeds_serializePostCondition_iff)

theorem succeeds_parseContractCall_iff {dbTx : DbTxBase String}
    (storedFrom : StoredFrom libraries dbTx tx) (rereads : Rereads libraries.clarity tx)
    {address : StacksAddress} {contractName functionName : String} {functionArgs : List CV}
    {rawFunctionArgs : Option Buffer}
    (kind : tx.payload =
      .contractCall address contractName functionName functionArgs rawFunctionArgs) :
    Succeeds (parseContractCall libraries.clarity libraries.addresses abis db dbTx) ↔
      Presentable libraries.addresses abis db tx := by
  have payload := storedFrom.payload
  rw [kind] at payload
  obtain ⟨⟨contractAddress, addressOk, contractId⟩, name, args⟩ := payload
  obtain ⟨noArgs, again⟩ := rereads.functionArgs _ _ _ _ _ kind
  rw [parseContractCall, contractId, name, args, Presentable, kind]
  simp only [addressOk, Except.ok.injEq, exists_eq_left']
  refine (succeeds_bind_of_ok
    (readStoredPostConditions_eq rereads storedFrom.postConditions)).trans ?_
  refine (succeeds_bind_of_ok rfl).trans ((succeeds_bind_of_ok rfl).trans ?_)
  refine (succeeds_bind_of_iff fun _ => ?_).trans
    (and_congr succeeds_mapM_serializePostCondition_iff Iff.rfl)
  refine succeeds_unwrapOptional_bind_iff.trans (exists_congr fun contract => and_congr Iff.rfl ?_)
  refine succeeds_bind_iff.trans (exists_congr fun functions => and_congr Iff.rfl ?_)
  refine succeeds_unwrapOptional_bind_iff.trans (exists_congr fun function => and_congr Iff.rfl ?_)
  refine succeeds_bind_of_iff fun signature => ?_
  cases rawFunctionArgs with
  | none =>
      rw [noArgs.mp rfl]
      simp
  | some buffer =>
      refine (succeeds_bind_of_ok (again buffer rfl)).trans ?_
      exact (succeeds_bind_of_total fun _ => succeeds_pure _).trans succeeds_parseFunctionArgs_iff

/-- The case for the type of the transaction succeeds when it is presentable. -/
theorem succeeds_parseDetails_iff {dbTx : DbTxBase String}
    (storedFrom : StoredFrom libraries dbTx tx) (rereads : Rereads libraries.clarity tx) :
    Succeeds (parseDetails libraries.clarity libraries.addresses abis db dbTx) ↔
      Presentable libraries.addresses abis db tx := by
  have payload := storedFrom.payload
  rw [parseDetails.eq_def, storedFrom.typeId]
  cases kind : tx.payload with
  | tokenTransfer recipient amount memo =>
      rw [kind] at payload
      obtain ⟨recipientSome, amountSome, memoSome⟩ := payload
      obtain ⟨recipientText, recipientOk⟩ := Option.isSome_iff_exists.mp recipientSome
      obtain ⟨value, amountOk⟩ := Option.isSome_iff_exists.mp amountSome
      obtain ⟨memoBuffer, memoOk⟩ := Option.isSome_iff_exists.mp memoSome
      rw [recipientOk, amountOk, memoOk, Presentable, kind]
      exact iff_of_true ⟨_, rfl⟩ trivial
  | smartContract name codeBody =>
      rw [kind] at payload
      obtain ⟨contractIdSome, sourceSome⟩ := payload
      obtain ⟨contractId, contractIdOk⟩ := Option.isSome_iff_exists.mp contractIdSome
      obtain ⟨sourceCode, sourceOk⟩ := Option.isSome_iff_exists.mp sourceSome
      rw [contractIdOk, sourceOk, Presentable, kind]
      refine (succeeds_bind_of_ok
        (readStoredPostConditions_eq rereads storedFrom.postConditions)).trans ?_
      exact (succeeds_bind_of_total fun _ => ⟨_, rfl⟩).trans
        succeeds_mapM_serializePostCondition_iff
  | contractCall address contractName functionName functionArgs rawFunctionArgs =>
      exact succeeds_parseContractCall_iff storedFrom rereads kind
  | poisonMicroblock header1 header2 =>
      rw [kind] at payload
      obtain ⟨header1Some, header2Some⟩ := payload
      obtain ⟨microblockHeader1, header1Ok⟩ := Option.isSome_iff_exists.mp header1Some
      obtain ⟨microblockHeader2, header2Ok⟩ := Option.isSome_iff_exists.mp header2Some
      rw [header1Ok, header2Ok, Presentable, kind]
      exact iff_of_true ⟨_, rfl⟩ trivial
  | coinbase data =>
      rw [kind] at payload
      obtain ⟨buffer, dataOk⟩ := Option.isSome_iff_exists.mp payload
      rw [dataOk, Presentable, kind]
      exact iff_of_true ⟨_, rfl⟩ trivial

/-! ## Clarity values -/

/-- The bytes start with a Clarity value. -/
def Deserializes (clarity : ClarityLibrary CV) (buffer : Buffer) : Prop :=
  Succeeds (clarity.deserializeCV.run (BufferReader.fromBuffer buffer))

/-- The results of transactions and the values of events are Clarity values. -/
structure ClarityValid (clarity : ClarityLibrary CV) (db : Db) : Prop where
  results : ∀ row ∈ db.txs, ∀ result, row.rawResult = some result → Deserializes clarity result
  nftEvents : ∀ row ∈ db.nftEvents, Deserializes clarity row.entity.value
  contractLogs : ∀ row ∈ db.contractLogs, Deserializes clarity row.entity.value

theorem succeeds_clarityRepr_iff {clarity : ClarityLibrary CV} {hex : String} {buffer : Buffer} :
    Succeeds (clarityRepr clarity hex buffer) ↔ Deserializes clarity buffer :=
  succeeds_bind_of_total fun _ => succeeds_pure _

theorem exists_row_of_mem_ofTx {α : Type} {txId : α → Buffer} {txIdBuffer blockHash : Buffer}
    {rows : List (InBlock α)} {entity : α} (mem : entity ∈ ofTx txId txIdBuffer blockHash rows) :
    ∃ row ∈ rows, row.entity = entity := by
  obtain ⟨row, rowMem, same⟩ := List.mem_map.mp mem
  exact ⟨row, (List.mem_filter.mp rowMem).1, same⟩

theorem ClarityValid.succeeds_parseDbEvent {clarity : ClarityLibrary CV}
    (valid : ClarityValid clarity db) {txId blockHash : Buffer} {event : DbEvent}
    (mem : event ∈ readTxEvents db txId blockHash) : Succeeds (parseDbEvent clarity event) := by
  simp only [readTxEvents, List.mem_append, List.mem_map] at mem
  rcases mem with ((⟨event, mem, rfl⟩ | ⟨event, mem, rfl⟩) | ⟨event, mem, rfl⟩) | ⟨event, mem, rfl⟩
  · exact succeeds_ok _
  · exact succeeds_ok _
  · obtain ⟨row, rowMem, rfl⟩ := exists_row_of_mem_ofTx mem
    refine (succeeds_bind_of_total fun _ => succeeds_pure _).mpr ?_
    exact succeeds_clarityRepr_iff.mpr (valid.nftEvents row rowMem)
  · obtain ⟨row, rowMem, rfl⟩ := exists_row_of_mem_ofTx mem
    refine (succeeds_bind_of_total fun _ => succeeds_pure _).mpr ?_
    exact succeeds_clarityRepr_iff.mpr (valid.contractLogs row rowMem)

/-- Events of which each can be shown are in the way of a transaction only if its
type has none. -/
theorem succeeds_parseEvents_iff {clarity : ClarityLibrary CV} {typeId : DbTxTypeId}
    {events : List DbEvent} (each : ∀ event ∈ events, Succeeds (parseDbEvent clarity event)) :
    Succeeds (parseEvents clarity typeId events) ↔ canHaveEvents typeId = true ∨ events = [] := by
  rw [parseEvents]
  by_cases eventful : canHaveEvents typeId = true
  · rw [if_pos eventful, succeeds_map_iff]
    exact iff_of_true (succeeds_mapM_iff.mpr each) (Or.inl eventful)
  · rw [if_neg eventful]
    cases events with
    | nil => exact iff_of_true (succeeds_ok _) (Or.inr rfl)
    | cons event events => simp [eventful]

/-! ## Times and modes -/

/-- Every number that fits the column is a time that has a text. -/
theorem succeeds_unixEpochToIso {timestamp : Int} (fits : isInteger timestamp = true) :
    Succeeds (unixEpochToIso timestamp) := by
  obtain ⟨low, high⟩ := of_decide_eq_true fits
  have inRange : ¬(timestamp * 1000).natAbs > 8640000000000000 := by omega
  rw [unixEpochToIso, if_neg inRange]
  exact succeeds_ok _

theorem exists_postConditionMode {clarity : ClarityLibrary CV} {dbTx : DbTxBase String}
    (rereads : Rereads clarity tx) (same : dbTx.postConditions = tx.rawPostConditions) :
    ∃ byte final mode,
      (readUInt8 : ReadM ApiError Nat).run (BufferReader.fromBuffer dbTx.postConditions) =
          .ok (byte, final) ∧
        serializePostConditionMode byte = .ok mode := by
  obtain ⟨rest, split⟩ := List.head?_eq_some_iff.mp rereads.mode
  rw [same, split]
  cases tx.postConditionMode with
  | allow => exact ⟨1, _, .allow, (Decodes.readUInt8 (show 1 < 256 by decide)) [] rest, rfl⟩
  | deny => exact ⟨2, _, .deny, (Decodes.readUInt8 (show 2 < 256 by decide)) [] rest, rfl⟩

/-! ## Transactions -/

theorem succeeds_parseStoredTx_iff {stored : StoredTx}
    (storedFrom : StoredFrom libraries stored.toDbTxBase tx)
    (rereads : Rereads libraries.clarity tx)
    (inclusion : Succeeds (parseInclusion libraries.clarity stored))
    (receipt : Succeeds (parseReceipt stored)) :
    Succeeds (parseStoredTx libraries.clarity libraries.addresses abis db stored) ↔
      Presentable libraries.addresses abis db tx ∧
        Succeeds (parseEvents libraries.clarity stored.toDbTxBase.typeId stored.events) := by
  obtain ⟨byte, final, mode, readOk, modeOk⟩ :=
    exists_postConditionMode rereads storedFrom.postConditions
  obtain ⟨shownInclusion, inclusionOk⟩ := inclusion
  obtain ⟨shownReceipt, receiptOk⟩ := receipt
  rw [parseStoredTx]
  refine (succeeds_bind_of_ok readOk).trans ((succeeds_bind_of_ok modeOk).trans ?_)
  refine (succeeds_bind_of_ok inclusionOk).trans ((succeeds_bind_of_ok receiptOk).trans ?_)
  refine (succeeds_bind_of_iff fun _ => succeeds_bind_of_total fun _ => succeeds_pure _).trans ?_
  exact and_congr (succeeds_parseDetails_iff storedFrom rereads) Iff.rfl

/-! ## Tables -/

/-- The row in a block was parsed from the transaction. -/
structure MinedFrom (libraries : Libraries CV) (row : DbTx Buffer) (tx : P2p.Transaction CV) :
    Prop where
  storedFrom : StoredFrom libraries row.toDbTxBase tx
  burnBlockTime : isInteger row.burnBlockTime = true

/-- The row of the mempool was parsed from the transaction. -/
structure PendingFrom (libraries : Libraries CV) (row : DbMempoolTx Buffer)
    (tx : P2p.Transaction CV) : Prop where
  storedFrom : StoredFrom libraries row.toDbTxBase tx
  status : row.status = .pending
  receiptTime : isInteger row.receiptTime = true

/-- The transactions of both tables were parsed from their raw bytes, and no id is
pending twice. -/
structure TablesParsed (libraries : Libraries CV) (db : Db) : Prop where
  mined : ∀ row ∈ db.txs, ∃ tx, MinedFrom libraries row tx
  pending : ∀ row ∈ db.mempoolTxs, ∃ tx, PendingFrom libraries row tx
  nodup : (db.mempoolTxs.map fun row => row.txId).Nodup

namespace TablesParsed

theorem succeeds_parseTx (parsed : TablesParsed libraries db) {row : DbTx Buffer}
    (mem : row ∈ db.txs) :
    Succeeds (parseTxQueryResult row) := by
  obtain ⟨tx, storedFrom, -⟩ := parsed.mined row mem
  exact (succeeds_bind_of_total fun _ => succeeds_pure _).mpr storedFrom.succeeds_parseTxColumns

theorem succeeds_parseMempoolTx (parsed : TablesParsed libraries db)
    {row : DbMempoolTx Buffer} (mem : row ∈ db.mempoolTxs) :
    Succeeds (parseMempoolTxQueryResult row) := by
  obtain ⟨tx, storedFrom, -⟩ := parsed.pending row mem
  exact (succeeds_bind_of_total fun _ => succeeds_pure _).mpr storedFrom.succeeds_parseTxColumns

end TablesParsed

/-- What stands for an id in `txs`: rows are preferred on the canonical chain, then
by height. -/
def preferredTx (db : Db) (buffer : Buffer) : Option (DbTx Buffer) :=
  (orderByDesc precedence (db.txs.filter fun row => row.txId = buffer)).head?

/-- The raw transaction of the row is presentable. -/
def RowPresentable {ι : Type} (libraries : Libraries CV) (abis : AbiLibrary Ty) (db : Db)
    (row : DbTxBase ι) : Prop :=
  ∀ tx, readBufferTransaction libraries row.rawTx = .ok tx →
    Presentable libraries.addresses abis db tx

/-- Events stand in the block of the row only if transactions of its type have some. -/
def EventsExpected (db : Db) (row : DbTx Buffer) : Prop :=
  canHaveEvents row.typeId = true ∨ readTxEvents db row.txId row.indexBlockHash = []

/-- The row that is found for the id is presentable: the pending row, or else the
preferred row of `txs`, whose events are expected. -/
structure Presents (libraries : Libraries CV) (abis : AbiLibrary Ty) (db : Db)
    (buffer : Buffer) : Prop where
  pending : ∀ row ∈ db.mempoolTxs, row.txId = buffer →
    RowPresentable libraries abis db row.toDbTxBase
  mined : (∀ row ∈ db.mempoolTxs, row.txId ≠ buffer) → ∀ row, preferredTx db buffer = some row →
    RowPresentable libraries abis db row.toDbTxBase ∧ EventsExpected db row

/-- The id stands in one of the tables. -/
def StoredId (db : Db) (buffer : Buffer) : Prop :=
  (∃ row ∈ db.txs, row.txId = buffer) ∨ ∃ row ∈ db.mempoolTxs, row.txId = buffer

theorem StoredFrom.rowPresentable_iff {ι : Type} {row : DbTxBase ι}
    (storedFrom : StoredFrom libraries row tx) :
    RowPresentable libraries abis db row ↔ Presentable libraries.addresses abis db tx := by
  constructor
  · intro presentable
    exact presentable tx storedFrom.read
  · intro presentable tx' read
    rw [storedFrom.read] at read
    cases read
    exact presentable

/-- A pending transaction is found first. -/
theorem lookupTx_pending (parsed : TablesParsed libraries db) {txId : String}
    {row : DbMempoolTx Buffer} (txIdOk : hexToBuffer txId = .ok row.txId)
    (mem : row ∈ db.mempoolTxs) {columns : DbTxBase String}
    (columnsOk : parseTxColumns row.toDbTxBase = .ok columns) :
    lookupTx txId db =
      .ok (some (.mempool { toDbTxBase := columns, receiptTime := row.receiptTime })) := by
  have single : db.mempoolTxs.filter (fun pending => pending.txId = row.txId) = [row] :=
    filter_eq_singleton parsed.nodup mem (decide_eq_true rfl) fun _ _ => of_decide_eq_true
  have found : getMempoolTx db txId =
      .ok (some { toDbTxBase := columns, receiptTime := row.receiptTime }) := by
    rw [getMempoolTx, txIdOk]
    simp only [bind, Except.bind, single, parseMempoolTxQueryResult, columnsOk]
    rfl
  rw [lookupTx, found]
  rfl

theorem lookupTx_mined {txId : String} {row : DbTx Buffer}
    (txIdOk : hexToBuffer txId = .ok row.txId) (preferred : preferredTx db row.txId = some row)
    (notPending : ∀ pending ∈ db.mempoolTxs, pending.txId ≠ row.txId) {tx : DbTx String}
    (txOk : parseTxQueryResult row = .ok tx) :
    lookupTx txId db = .ok (some (.mined tx
      ((readTxEvents db row.txId row.indexBlockHash).insertionSort
        fun a b => a.eventIndex ≤ b.eventIndex))) := by
  have none : db.mempoolTxs.filter (fun pending => pending.txId = row.txId) = [] := by
    rw [List.filter_eq_nil_iff]
    exact fun pending mem same => notPending pending mem (of_decide_eq_true same)
  have noPending : getMempoolTx db txId = .ok .none := by
    rw [getMempoolTx, txIdOk]
    simp only [bind, Except.bind, none]
    rfl
  have found : getTx db txId = .ok (some tx) := by
    rw [getTx, txIdOk]
    have head : (orderByDesc (fun row : DbTx Buffer => toLex (row.canonical, row.blockHeight))
        (db.txs.filter fun other => other.txId = row.txId)).head? = some row := preferred
    simp only [bind, Except.bind, head, txOk]
    rfl
  have hash : hexToBuffer tx.indexBlockHash = .ok row.indexBlockHash := by
    obtain ⟨columns, -, same⟩ := Except.bind_eq_ok.mp txOk
    cases same
    exact hexToBuffer_bufferToHexPrefixString _
  rw [lookupTx, noPending]
  simp only [bind, Except.bind, found, getTxEvents_eq txIdOk hash]
  rfl

/-! ## Showing a row -/

/-- The fields of the block need a readable result and no more. -/
theorem succeeds_parseInclusion_mined {clarity : ClarityLibrary CV} {row : DbTx Buffer}
    {tx : DbTx String} {events : List DbEvent} (fits : isInteger row.burnBlockTime = true)
    (valid : ∀ result, row.rawResult = some result → Deserializes clarity result)
    (txOk : parseTxQueryResult row = .ok tx) :
    Succeeds (parseInclusion clarity (.mined tx events)) := by
  obtain ⟨columns, -, same⟩ := Except.bind_eq_ok.mp txOk
  cases same
  rw [parseInclusion]
  split
  · exact succeeds_ok _
  · obtain ⟨iso, isoOk⟩ := succeeds_unixEpochToIso fits
    refine (succeeds_bind_of_ok isoOk).mpr ?_
    cases result : row.rawResult with
    | none => exact ⟨_, rfl⟩
    | some buffer =>
        dsimp only [Option.map_some, Option.getD_some]
        split
        · exact ⟨_, rfl⟩
        · exact ⟨_, rfl⟩
        · next rawResult notEmpty same =>
            cases same
            refine (succeeds_bind_of_ok (hexToBuffer_bufferToHexPrefixString buffer)).mpr ?_
            refine (succeeds_bind_of_total fun _ => succeeds_pure _).mpr ?_
            exact succeeds_clarityRepr_iff.mpr (valid buffer result)

theorem succeeds_getTxFromDataStore_iff {txId : String} {stored : StoredTx}
    (found : lookupTx txId db = .ok (some stored)) :
    (∃ shown, getTxFromDataStore libraries.clarity libraries.addresses abis txId db =
        .ok (some shown)) ↔
      Succeeds (parseStoredTx libraries.clarity libraries.addresses abis db stored) := by
  rw [getTxFromDataStore, found]
  constructor
  · rintro ⟨shown, ok⟩
    obtain ⟨_, ⟨⟩, ok⟩ := Except.bind_eq_ok.mp ok
    obtain ⟨tx, parsed, -⟩ := Except.bind_eq_ok.mp ok
    exact ⟨tx, parsed⟩
  · rintro ⟨tx, parsed⟩
    exact ⟨tx, Except.bind_eq_ok.mpr ⟨_, rfl, Except.bind_eq_ok.mpr ⟨tx, parsed, rfl⟩⟩⟩

theorem shown_iff_of_pending (localCV : Local libraries.clarity.deserializeCV)
    (parsed : TablesParsed libraries db) {txId : String} {row : DbMempoolTx Buffer}
    (txIdOk : hexToBuffer txId = .ok row.txId) (mem : row ∈ db.mempoolTxs) :
    (∃ shown, getTxFromDataStore libraries.clarity libraries.addresses abis txId db =
        .ok (some shown)) ↔
      RowPresentable libraries abis db row.toDbTxBase := by
  obtain ⟨tx, storedFrom, pending, receiptTime⟩ := parsed.pending row mem
  obtain ⟨columns, columnsOk⟩ := storedFrom.succeeds_parseTxColumns
  have columnsFrom := storedFrom.of_parseTxColumns columnsOk
  have status : columns.status = .pending := (parsedColumns_of_ok columnsOk).status.trans pending
  rw [succeeds_getTxFromDataStore_iff (lookupTx_pending parsed txIdOk mem columnsOk),
    storedFrom.rowPresentable_iff]
  refine (succeeds_parseStoredTx_iff columnsFrom (storedFrom.rereads localCV) ?_ ?_).trans
    (and_iff_left ?_)
  · rw [parseInclusion, if_pos status]
    exact succeeds_ok _
  · rw [parseReceipt]
    split
    · exact succeeds_ok _
    · exact (succeeds_bind_of_total fun _ => succeeds_pure _).mpr
        (succeeds_unixEpochToIso receiptTime)
  · exact (succeeds_parseEvents_iff (List.forall_mem_nil _)).mpr (Or.inr rfl)

theorem shown_iff_of_mined (localCV : Local libraries.clarity.deserializeCV)
    (valid : ClarityValid libraries.clarity db) (parsed : TablesParsed libraries db)
    {txId : String} {row : DbTx Buffer} (txIdOk : hexToBuffer txId = .ok row.txId)
    (preferred : preferredTx db row.txId = some row)
    (notPending : ∀ pending ∈ db.mempoolTxs, pending.txId ≠ row.txId) :
    (∃ shown, getTxFromDataStore libraries.clarity libraries.addresses abis txId db =
        .ok (some shown)) ↔
      RowPresentable libraries abis db row.toDbTxBase ∧ EventsExpected db row := by
  have mem : row ∈ db.txs := (List.mem_filter.mp (le_of_head?_orderByDesc preferred).1).1
  obtain ⟨tx, storedFrom, burnBlockTime⟩ := parsed.mined row mem
  obtain ⟨columns, columnsOk⟩ := storedFrom.succeeds_parseTxColumns
  have columnsFrom := storedFrom.of_parseTxColumns columnsOk
  obtain ⟨shown, txOk⟩ : Succeeds (parseTxQueryResult row) :=
    (succeeds_bind_of_ok columnsOk).mpr ⟨_, rfl⟩
  obtain ⟨_, same, shape⟩ := Except.bind_eq_ok.mp txOk
  cases columnsOk.symm.trans same
  cases shape
  rw [succeeds_getTxFromDataStore_iff (lookupTx_mined txIdOk preferred notPending txOk),
    storedFrom.rowPresentable_iff]
  refine (succeeds_parseStoredTx_iff columnsFrom (storedFrom.rereads localCV)
    (succeeds_parseInclusion_mined burnBlockTime (valid.results row mem) txOk)
    (succeeds_ok _)).trans (and_congr Iff.rfl ?_)
  have sorted := List.perm_insertionSort (fun a b : DbEvent => a.eventIndex ≤ b.eventIndex)
    (readTxEvents db row.txId row.indexBlockHash)
  have sameType : columns.typeId = row.typeId := columnsFrom.typeId.trans storedFrom.typeId.symm
  refine (succeeds_parseEvents_iff ?_).trans (or_congr (by rw [← sameType]; rfl) ?_)
  · intro event eventMem
    exact valid.succeeds_parseDbEvent (sorted.mem_iff.mp eventMem)
  · exact ⟨fun none => List.nil_perm.mp (none ▸ sorted),
      fun none => List.perm_nil.mp (none ▸ sorted)⟩

/-- A stored id is shown exactly when what is found for it is presentable. -/
theorem shown_iff_presents (localCV : Local libraries.clarity.deserializeCV)
    (valid : ClarityValid libraries.clarity db) (parsed : TablesParsed libraries db)
    {txId : String} {buffer : Buffer} (txIdOk : hexToBuffer txId = .ok buffer)
    (stored : StoredId db buffer) :
    (∃ shown, getTxFromDataStore libraries.clarity libraries.addresses abis txId db =
        .ok (some shown)) ↔
      Presents libraries abis db buffer := by
  by_cases isPending : ∃ row ∈ db.mempoolTxs, row.txId = buffer
  · obtain ⟨row, mem, rfl⟩ := isPending
    rw [shown_iff_of_pending localCV parsed txIdOk mem]
    constructor
    · intro presentable
      constructor
      · intro other otherMem sameId
        rwa [List.inj_on_of_nodup_map parsed.nodup otherMem mem sameId]
      · exact fun notPending => absurd rfl (notPending row mem)
    · intro presents
      exact presents.pending row mem rfl
  · have notPending : ∀ row ∈ db.mempoolTxs, row.txId ≠ buffer :=
      fun row mem same => isPending ⟨row, mem, same⟩
    obtain ⟨stored, storedMem, storedId⟩ := stored.resolve_right isPending
    have nonempty : (db.txs.filter fun row => row.txId = buffer) ≠ [] :=
      List.ne_nil_of_mem (List.mem_filter.mpr ⟨storedMem, decide_eq_true storedId⟩)
    obtain ⟨row, preferred⟩ : ∃ row, preferredTx db buffer = some row :=
      exists_head?_orderByDesc nonempty
    have sameId : row.txId = buffer :=
      of_decide_eq_true (List.mem_filter.mp (le_of_head?_orderByDesc preferred).1).2
    subst sameId
    rw [shown_iff_of_mined localCV valid parsed txIdOk preferred notPending]
    constructor
    · intro presentable
      refine ⟨fun other otherMem same => absurd same (notPending other otherMem), ?_⟩
      rintro _ other otherPreferred
      cases preferred.symm.trans otherPreferred
      exact presentable
    · intro presents
      exact presents.mined notPending row preferred

/-! ## Pages -/

/-- The transactions of a page of `GET /tx` or `GET /address/:stx_address/transactions`,
which are shown one by one. -/
def showTxs (clarity : ClarityLibrary CV) (addresses : AddressLibrary) (abis : AbiLibrary Ty)
    (txIds : List String) (db : Db) : Except ApiError (List Transaction) :=
  txIds.mapM fun txId => do
    let txQuery ← getTxFromDataStore clarity addresses abis txId db
    unwrapOptional txQuery "unexpected tx not found -- fix tx enumeration query"

/-- A page is shown when each of its transactions is. -/
theorem succeeds_showTxs_iff {clarity : ClarityLibrary CV} {addresses : AddressLibrary}
    {txIds : List String} :
    Succeeds (showTxs clarity addresses abis txIds db) ↔ ∀ txId ∈ txIds,
      ∃ shown, getTxFromDataStore clarity addresses abis txId db = .ok (some shown) := by
  refine succeeds_mapM_iff.trans (forall₂_congr fun txId _ => ?_)
  rw [succeeds_bind_iff]
  constructor
  · rintro ⟨txQuery, ok, found⟩
    cases txQuery with
    | none => exact absurd found (not_succeeds_error _)
    | some shown => exact ⟨shown, ok⟩
  · rintro ⟨shown, ok⟩
    exact ⟨some shown, ok, succeeds_ok _⟩

end StacksApi.Controllers
