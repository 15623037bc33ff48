import StacksApi.Controllers.Presentable
import StacksApi.EventStream.MempoolRun

/-!
# Transactions that can be shown

The rows that messages lead to keep the columns of the raw transactions, so that
after every run a stored transaction is shown exactly when it is presentable.
Messages do not see to that: the contract that a transaction calls need not be
stored.
-/

namespace StacksApi.EventStream

open StacksApi.Binary
open StacksApi.P2p
open StacksApi.Relational
open StacksApi.Datastore
open StacksApi.Controllers
open StacksApi.Transition

variable {CV Ty : Type} {libraries : Libraries CV} {abis : AbiLibrary Ty}

/-! ## Columns -/

theorem payloadColumns_of_extract {addresses : AddressLibrary} {tx : P2p.Transaction CV}
    {columns dbTx : DbTxBase String}
    (extracted : extractTransactionPayload addresses tx columns = .ok dbTx) :
    PayloadColumns addresses dbTx tx.payload := by
  cases extracted_of_ok extracted with
  | tokenTransfer kind _ same =>
      rw [kind, same]
      exact ⟨rfl, rfl, rfl⟩
  | smartContract kind _ same =>
      rw [kind, same]
      exact ⟨rfl, rfl⟩
  | contractCall kind text same =>
      rw [kind, same]
      exact ⟨⟨_, text, rfl⟩, rfl, rfl⟩
  | poisonMicroblock kind same =>
      rw [kind, same]
      exact ⟨rfl, rfl⟩
  | coinbase kind same =>
      rw [kind, same]
      exact rfl

/-- The record of a transaction has its columns. -/
theorem storedFrom_of_extract {tx : P2p.Transaction CV} {rawTx : Buffer} {txId : String}
    {status : DbTxStatus} {senderAddress : String} {sponsorAddress : Option String}
    {dbTx : DbTxBase String} (read : readBufferTransaction libraries rawTx = .ok tx)
    (extracted : extractTransactionPayload libraries.addresses tx
      (transactionColumns txId rawTx status senderAddress sponsorAddress tx) = .ok dbTx) :
    StoredFrom libraries dbTx tx := by
  have shared := extractTransactionPayload_ok extracted
  have rawColumn : dbTx.rawTx = rawTx := shared.rawTx
  exact
    { read := by rw [rawColumn]; exact read
      typeId := shared.typeId
      postConditions := shared.postConditions
      payload := payloadColumns_of_extract extracted }

theorem storedFrom_withTxId {dbTx : DbTxBase String} {tx : P2p.Transaction CV}
    (storedFrom : StoredFrom libraries dbTx tx) (txId : Buffer) :
    StoredFrom libraries (dbTx.withTxId txId) tx := by
  obtain ⟨read, typeId, postConditions, payload⟩ := storedFrom
  refine ⟨read, typeId, postConditions, ?_⟩
  cases kind : tx.payload with
  | tokenTransfer recipient amount memo =>
      rw [kind] at payload
      exact payload
  | smartContract name codeBody =>
      rw [kind] at payload
      exact payload
  | contractCall address contractName functionName functionArgs rawFunctionArgs =>
      rw [kind] at payload
      exact payload
  | poisonMicroblock header1 header2 =>
      rw [kind] at payload
      exact payload
  | coinbase data =>
      rw [kind] at payload
      exact payload

/-! ## Messages -/

theorem tablesParsed_update {db reorged pruned db' : Db} {msg : CoreNodeMessage}
    {data : DataStoreUpdateData} {row : DbBlock Buffer} (parsed : TablesParsed libraries db)
    (handed : messageData libraries msg = .ok data)
    (accepted : Accepted db data reorged pruned row db')
    (admitted : ∀ tx ∈ db'.txs, tx.admitted = true) : TablesParsed libraries db' := by
  constructor
  · intro tx mem
    have burnBlockTime : isInteger tx.burnBlockTime = true := by
      have holds := admitted tx mem
      rw [DbTx.admitted, Bool.and_eq_true] at holds
      exact holds.2
    rcases accepted.tx_cases mem with ⟨original, originalMem, same⟩ | ⟨entry, entryMem, recorded⟩
    · obtain ⟨rawTx, storedFrom, -⟩ := parsed.mined original originalMem
      have columns : original.toDbTxBase = tx.toDbTxBase := congrArg (fun tx => tx.toDbTxBase) same
      exact ⟨rawTx, columns ▸ storedFrom, burnBlockTime⟩
    · obtain ⟨coreTx, -, rawTx, recordOf, -, -⟩ := exists_entryOf handed entryMem
      obtain ⟨status, -, extracted⟩ := recordOf.columns
      have storedFrom :=
        storedFrom_withTxId (storedFrom_of_extract recordOf.read extracted) tx.txId
      rw [← recorded.columns] at storedFrom
      exact ⟨rawTx, storedFrom, burnBlockTime⟩
  · intro pending mem
    exact parsed.pending pending (accepted.sublist_mempoolTxs.subset mem)
  · exact (accepted.sublist_mempoolTxs.map _).nodup parsed.nodup

theorem decodeMempoolTx_read {buffer : Buffer} {tx : DecodedMempoolTx CV}
    (decoded : decodeMempoolTx libraries buffer = .ok tx) :
    readBufferTransaction libraries tx.rawTx = .ok tx.txData := by
  obtain ⟨parsedTx, read, decoded⟩ := Except.bind_eq_ok.mp decoded
  obtain ⟨txSender, -, decoded⟩ := Except.bind_eq_ok.mp decoded
  obtain ⟨sponsorAddress, -, decoded⟩ := Except.bind_eq_ok.mp decoded
  cases decoded
  exact read

theorem tablesParsed_insert {db db' : Db} {receiptDate : Int} {tx : DecodedMempoolTx CV}
    {events : List DataStoreEvent} (parsed : TablesParsed libraries db)
    (read : readBufferTransaction libraries tx.rawTx = .ok tx.txData)
    (inserted : insertMempoolTx libraries receiptDate db tx = .ok (db', events)) :
    TablesParsed libraries db' := by
  obtain ⟨mempoolTx, created, ok⟩ := Except.bind_eq_ok.mp inserted
  obtain ⟨columns, extracted, same⟩ := Except.bind_eq_ok.mp created
  cases same
  obtain ⟨row, decoded, ⟨-, rfl, -⟩ | ⟨fresh, rfl, -⟩⟩ := updateMempoolTx_ok ok
  · exact parsed
  · obtain ⟨-, rowColumns, admitted⟩ := mempoolTxRow_ok decoded
    have base : row.toDbTxBase = columns.withTxId row.txId :=
      congrArg (fun row => row.toDbTxBase) rowColumns
    refine ⟨parsed.mined, ?_, ?_⟩
    · intro pending mem
      rcases List.mem_append.mp mem with old | new
      · exact parsed.pending pending old
      · rw [List.mem_singleton.mp new]
        rw [DbMempoolTx.admitted, Bool.and_eq_true] at admitted
        refine ⟨tx.txData, ?_, ?_, admitted.2⟩
        · rw [base]
          exact storedFrom_withTxId (storedFrom_of_extract read extracted) row.txId
        · rw [base]
          exact (extractTransactionPayload_ok extracted).status
    · rw [List.map_append, List.map_singleton, List.nodup_append]
      refine ⟨parsed.nodup, List.nodup_singleton _, ?_⟩
      intro txId mem other otherMem same
      obtain ⟨stored, storedMem, rfl⟩ := List.mem_map.mp mem
      rw [List.mem_singleton.mp otherMem] at same
      exact fresh stored storedMem same

/-! ## Runs -/

/-- The tables keep the columns of the raw transactions, whatever messages arrive. -/
theorem runServer_tablesParsed (messages : List ServerMessage) :
    TablesParsed libraries (runServer libraries messages) := by
  have holds : (∀ tx ∈ (runServer libraries messages).txs, tx.admitted = true) ∧
      TablesParsed libraries (runServer libraries messages) := by
    apply runServer_invariant (Q := fun _ _ => True)
      (P := fun db => (∀ tx ∈ db.txs, tx.admitted = true) ∧ TablesParsed libraries db) libraries
    · exact ⟨List.forall_mem_nil _, List.forall_mem_nil _, List.forall_mem_nil _, List.nodup_nil⟩
    · intro db message holds _
      apply receive_invariant
        (P := fun db => (∀ tx ∈ db.txs, tx.admitted = true) ∧ TablesParsed libraries db) libraries
        holds
      · intro msg _ data handed db' events ok
        obtain ⟨-, reorged, pruned, row, accepted⟩ := update_ok ok
        have admitted := accepted.admitted_txs holds.1
        exact ⟨admitted, tablesParsed_update holds.2 handed accepted admitted⟩
      · intro receiptDate rawTxs _ txs decodedAll tx mem pool after events
          ⟨admitted, parsed⟩ inserted
        obtain ⟨buffers, -, decodedAll⟩ := Except.bind_eq_ok.mp decodedAll
        obtain ⟨buffer, -, decoded⟩ := mem_of_mapM_ok decodedAll mem
        refine ⟨?_, tablesParsed_insert parsed (decodeMempoolTx_read decoded) inserted⟩
        obtain ⟨mempoolTx, row, -, -, rfl | rfl⟩ := insertMempoolTx_ok libraries inserted
        · exact admitted
        · exact admitted
    · exact fun _ _ _ => trivial
  exact holds.2

/-- After every run, a stored id is shown exactly when the row that is found for it
is presentable, and a page of stored ids when all of them are. -/
theorem runServer_shown_iff (abis : AbiLibrary Ty) (localCV : Local libraries.clarity.deserializeCV)
    (messages : List ServerMessage)
    (valid : ClarityValid libraries.clarity (runServer libraries messages)) :
    (∀ txId buffer, hexToBuffer txId = .ok buffer → StoredId (runServer libraries messages) buffer →
      ((∃ shown, getTxFromDataStore libraries.clarity libraries.addresses abis txId
          (runServer libraries messages) = .ok (some shown)) ↔
        Presents libraries abis (runServer libraries messages) buffer)) ∧
    ∀ buffers : List Buffer, (∀ buffer ∈ buffers, StoredId (runServer libraries messages) buffer) →
      (Succeeds (showTxs libraries.clarity libraries.addresses abis
          (buffers.map bufferToHexPrefixString) (runServer libraries messages)) ↔
        ∀ buffer ∈ buffers, Presents libraries abis (runServer libraries messages) buffer) := by
  have parsed : TablesParsed libraries (runServer libraries messages) :=
    runServer_tablesParsed messages
  constructor
  · intro txId buffer txIdOk stored
    exact shown_iff_presents localCV valid parsed txIdOk stored
  · intro buffers stored
    rw [succeeds_showTxs_iff, List.forall_mem_map]
    refine forall₂_congr fun buffer mem => ?_
    exact shown_iff_presents localCV valid parsed (hexToBuffer_bufferToHexPrefixString buffer)
      (stored buffer mem)

/-! ## A call to a contract that is not stored -/

/-- The digest of the encoded call. -/
def callTxId : Buffer :=
  [0xc9, 0x2d, 0x4a, 0x2d, 0x0e, 0x96, 0xd4, 0xe4, 0xd0, 0x8d, 0x7c, 0x1b, 0xc4, 0x73, 0x33, 0x65,
    0xc3, 0x4b, 0x75, 0x01, 0x2d, 0xbf, 0x12, 0x0e, 0xfb, 0x50, 0x7f, 0x86, 0x64, 0x3b, 0x00, 0xa0]

/-- The encoding of the call. -/
def callBuffer : Buffer :=
  encodeTransaction ClarityLibrary.booleans sampleCall

/-- The digest at the encoded call. -/
@[irreducible]
def callDigest (buffer : Buffer) : Buffer :=
  if buffer = callBuffer then callTxId else []

/-- The libraries with the digest of the call. -/
def callLibraries : Libraries Bool where
  clarity := ClarityLibrary.booleans
  addresses := AddressLibrary.zeroHash
  digestSha512_256 := callDigest

/-- A mempool message with the call. -/
def callMempoolMessage : ServerMessage :=
  .newMempoolTx 1594647997 [bufferToHexPrefixString callBuffer]

/-- The call as decoded from the message. -/
def callDecoded : DecodedMempoolTx Bool where
  txId := bufferToHexPrefixString (callDigest callBuffer)
  sender := "ST000000000000000000002AMW42H"
  sponsorAddress := none
  txData := sampleCall.asRead ClarityLibrary.booleans
  rawTx := callBuffer

/-- The row of the pending call. -/
def callMempoolRow : DbMempoolTx Buffer where
  txId := callTxId
  rawTx := callBuffer
  typeId := .contractCall
  status := .pending
  postConditions := [2, 0, 0, 0, 1, 0, 1, 1, 0, 0, 0, 0, 0, 0, 0, 1]
  feeRate := 180
  senderAddress := "ST000000000000000000002AMW42H"
  originHashMode := 0
  sponsored := false
  sponsorAddress := none
  contractCallContractId := some "ST000000000000000000002AMW42H.c"
  contractCallFunctionName := some "f"
  contractCallFunctionArgs := some [0, 0, 0, 1, 3]
  receiptTime := 1594647997

theorem decodeMempoolTxs_call :
    decodeMempoolTxs callLibraries [bufferToHexPrefixString callBuffer] = .ok [callDecoded] := by
  have read : readBufferTransaction callLibraries callBuffer =
      .ok (sampleCall.asRead ClarityLibrary.booleans) :=
    readBufferTransaction_encode callLibraries ClarityLibrary.booleans_roundTrips
      sampleCall_wellFormed
  have single : decodeMempoolTx callLibraries callBuffer = .ok callDecoded := by
    rw [decodeMempoolTx, read]
    rfl
  exact decodeMempoolTxs_map [callBuffer] (.cons single .nil)

theorem runServer_callMempoolMessage : runServer callLibraries [callMempoolMessage] =
    { Db.empty with mempoolTxs := [callMempoolRow] } := by
  rw [runServer, List.foldl_cons, List.foldl_nil, callMempoolMessage, receive,
    handleMempoolTxsMessage, decodeMempoolTxs_call]
  decide +kernel

/-- The pending call is stored and cannot be shown, nor a page with it. -/
theorem runServer_callMempoolMessage_notShown :
    Local ClarityLibrary.booleans.deserializeCV ∧
      ClarityValid ClarityLibrary.booleans (runServer callLibraries [callMempoolMessage]) ∧
      StoredId (runServer callLibraries [callMempoolMessage]) callTxId ∧
      getTxFromDataStore ClarityLibrary.booleans AddressLibrary.zeroHash AbiLibrary.null
          (bufferToHexPrefixString callTxId) (runServer callLibraries [callMempoolMessage]) =
        .error (.failure
          "Failed to lookup smart contract by ID ST000000000000000000002AMW42H.c") ∧
      ¬Succeeds (showTxs ClarityLibrary.booleans AddressLibrary.zeroHash AbiLibrary.null
          [bufferToHexPrefixString callTxId] (runServer callLibraries [callMempoolMessage])) := by
  rw [runServer_callMempoolMessage]
  have failed : getTxFromDataStore ClarityLibrary.booleans AddressLibrary.zeroHash AbiLibrary.null
      (bufferToHexPrefixString callTxId) { Db.empty with mempoolTxs := [callMempoolRow] } =
        .error (.failure
          "Failed to lookup smart contract by ID ST000000000000000000002AMW42H.c") := by
    decide +kernel
  refine ⟨local_booleans, ⟨List.forall_mem_nil _, List.forall_mem_nil _, List.forall_mem_nil _⟩,
    Or.inr ⟨callMempoolRow, List.mem_singleton_self _, rfl⟩, failed, ?_⟩
  rw [succeeds_showTxs_iff]
  intro shown
  obtain ⟨tx, ok⟩ := shown _ (List.mem_singleton_self _)
  rw [failed] at ok
  cases ok

/-! ## A call that is shown -/

/-- The deployment of the contract that the call is for. -/
def sampleContract : P2p.Transaction Bool :=
  { sampleTransfer 1 with payload := .smartContract "c" "(define-public (f (a bool)) (ok a))" }

theorem isCodeBody_of_all {codeBody : String}
    (ascii : (codeBody.toList.all fun char => decide (char.toNat < 128)) = true)
    (short : (encodeAscii codeBody).length < 2 ^ 32) : IsCodeBody codeBody where
  ascii char mem := of_decide_eq_true (List.all_eq_true.mp ascii char mem)
  short := short

theorem sampleContract_wellFormed : sampleContract.WellFormed :=
  { sampleTransfer_wellFormed (show IsU64 1 from ⟨by decide, by decide⟩) with
    payload := ⟨isName_of_toList (show "c".toList = ['c'] from rfl) (by decide),
      isCodeBody_of_all rfl (by
        have length : (encodeAscii "(define-public (f (a bool)) (ok a))").length = 35 := rfl
        rw [length]
        decide)⟩ }

/-- The digest of its encoding. -/
def contractTxId : Buffer :=
  [0xe1, 0x07, 0x5b, 0xdd, 0xaf, 0x2d, 0x8e, 0x07, 0x0a, 0x4e, 0x85, 0x60, 0x61, 0xff, 0x98, 0xa2,
    0x82, 0xa8, 0xaf, 0x6b, 0xe1, 0x99, 0x24, 0x23, 0x1a, 0xd1, 0x56, 0x8d, 0xcd, 0x4f, 0x85, 0xe8]

/-- The encoding of the deployment. -/
def contractBuffer : Buffer :=
  encodeTransaction ClarityLibrary.booleans sampleContract

/-- The interface that the node reports of the contract. -/
def sampleAbi : String :=
  "\x7b\"functions\":[\x7b\"name\":\"f\",\"access\":\"public\",\"args\":[\x7b\"name\":\"a\"," ++
    "\"type\":\"bool\"\x7d],\"outputs\":\x7b\"type\":\x7b\"response\":\x7b\"ok\":\"bool\"," ++
    "\"error\":\"none\"\x7d\x7d\x7d\x7d]\x7d"

/-- The library on that interface and on `null`, with texts for types. -/
def AbiLibrary.sample : AbiLibrary String where
  parseAbi text :=
    if text = sampleAbi then
      .ok [{ name := "f", access := "public", args := [{ name := "a", type := "bool" }],
             outputs := "(response bool none)" }]
    else .error (.failure "Cannot read property 'find' of undefined")
  abiFunctionToString fn :=
    .ok ("(define-" ++ fn.access ++ " (" ++ fn.name ++ " " ++
      " ".intercalate (fn.args.map fun arg => "(" ++ arg.name ++ " " ++ arg.type ++ ")") ++ "))")
  getTypeString type := .ok type

/-- The deployment in a block message, behind the transfer. -/
def contractCoreTx : CoreNodeTxMessage :=
  { sampleCoreTx with
    rawTx := bufferToHexPrefixString contractBuffer
    txid := bufferToHexPrefixString contractTxId
    txIndex := 1
    contractAbi := sampleAbi }

/-- A block with the transfer and the deployment. -/
def contractBlock : CoreNodeMessage :=
  { sampleBlock with transactions := [sampleCoreTx, contractCoreTx] }

/-- What is parsed of it. -/
def contractParsed : CoreNodeParsedTxMessage Bool :=
  { sampleParsed with
    coreTx := contractCoreTx
    parsedTx := sampleContract.asRead ClarityLibrary.booleans
    rawTx := contractBuffer }

/-- The row of the deployment. -/
def contractTxRow : DbTx Buffer where
  txId := contractTxId
  rawTx := contractBuffer
  typeId := .smartContract
  status := .success
  postConditions := [2, 0, 0, 0, 0]
  feeRate := 180
  senderAddress := "ST000000000000000000002AMW42H"
  originHashMode := 0
  sponsored := false
  sponsorAddress := none
  smartContractContractId := some "ST000000000000000000002AMW42H.c"
  smartContractSourceCode := some "(define-public (f (a bool)) (ok a))"
  indexBlockHash := [0x11]
  blockHash := [0x11]
  blockHeight := 1
  burnBlockTime := 1594647996
  txIndex := 1
  rawResult := some [0x03]
  canonical := true

/-- The row of the contract. -/
def contractRow : DbSmartContract Buffer where
  txId := contractTxId
  canonical := true
  contractId := "ST000000000000000000002AMW42H.c"
  blockHeight := 1
  sourceCode := "(define-public (f (a bool)) (ok a))"
  abi := sampleAbi

/-- The tables with the deployed contract and the pending call. -/
def deployedAndCalled : Db :=
  { Db.empty with
    blocks := [sampleBlockRow]
    txs := [sampleTxRow, contractTxRow]
    smartContracts := [{ indexBlockHash := [0x11], entity := contractRow }]
    mempoolTxs := [callMempoolRow] }

theorem parseMessageTransactions_contractBlock :
    parseMessageTransactions callLibraries contractBlock = .ok [sampleParsed, contractParsed] := by
  have transfer : parseMessageTransaction callLibraries contractBlock sampleCoreTx =
      .ok sampleParsed := by
    have read : readBufferTransaction callLibraries sampleBuffer =
        .ok ((sampleTransfer 1).asRead ClarityLibrary.booleans) :=
      readBufferTransaction_sampleBuffer
    rw [parseMessageTransaction, txBuffer_sampleCoreTx, read]
    rfl
  have deployment : parseMessageTransaction callLibraries contractBlock contractCoreTx =
      .ok contractParsed := by
    have buffer : contractCoreTx.txBuffer = contractBuffer :=
      (show contractCoreTx.Encodes callLibraries sampleContract from rfl).txBuffer
    have read : readBufferTransaction callLibraries contractBuffer =
        .ok (sampleContract.asRead ClarityLibrary.booleans) :=
      readBufferTransaction_encode callLibraries ClarityLibrary.booleans_roundTrips
        sampleContract_wellFormed
    rw [parseMessageTransaction, buffer, read]
    rfl
  exact mapM_eq_ok_iff.mpr (.cons transfer (.cons deployment .nil))

theorem runServer_deployedAndCalled :
    runServer callLibraries [.newBlock contractBlock, callMempoolMessage] = deployedAndCalled := by
  have accepted : ((messageData callLibraries contractBlock >>= update Db.empty).map Prod.fst) =
      .ok { deployedAndCalled with mempoolTxs := [] } := by
    rw [messageData, parseMessageTransactions_contractBlock]
    decide +kernel
  obtain ⟨result, ok, same⟩ := Except.map_eq_ok.mp accepted
  obtain ⟨data, handed, updated⟩ := Except.bind_eq_ok.mp ok
  have deployed := receive_of_update handed (Except.map_eq_ok.mpr ⟨result, updated, same⟩)
  rw [runServer, List.foldl_cons, List.foldl_cons, List.foldl_nil, deployed, callMempoolMessage,
    receive, handleMempoolTxsMessage, decodeMempoolTxs_call]
  decide +kernel

/-- The transfer is mined and the call pending, and both are shown, also as one page. -/
theorem runServer_shown_deployedAndCalled :
    Presents callLibraries AbiLibrary.sample
        (runServer callLibraries [.newBlock contractBlock, callMempoolMessage]) callTxId ∧
      Succeeds (showTxs ClarityLibrary.booleans AddressLibrary.zeroHash AbiLibrary.sample
        ([sampleTxId, callTxId].map bufferToHexPrefixString)
        (runServer callLibraries [.newBlock contractBlock, callMempoolMessage])) := by
  have valid : ClarityValid callLibraries.clarity
      (runServer callLibraries [.newBlock contractBlock, callMempoolMessage]) := by
    rw [runServer_deployedAndCalled]
    refine ⟨?_, List.forall_mem_nil _, List.forall_mem_nil _⟩
    have results : ∀ row ∈ deployedAndCalled.txs, row.rawResult = some [0x03] := by decide
    intro row mem result same
    rw [results row mem] at same
    cases same
    exact ⟨(true, _), rfl⟩
  have stored : ∀ buffer ∈ [sampleTxId, callTxId], StoredId
      (runServer callLibraries [.newBlock contractBlock, callMempoolMessage]) buffer := by
    rw [runServer_deployedAndCalled]
    refine List.forall_mem_cons.mpr ⟨?_, List.forall_mem_singleton.mpr ?_⟩
    · exact Or.inl ⟨sampleTxRow, List.mem_cons_self, rfl⟩
    · exact Or.inr ⟨callMempoolRow, List.mem_singleton_self _, rfl⟩
  have found : ∀ buffer ∈ [sampleTxId, callTxId],
      (getTxFromDataStore ClarityLibrary.booleans AddressLibrary.zeroHash AbiLibrary.sample
        (bufferToHexPrefixString buffer) deployedAndCalled).map Option.isSome = .ok true := by
    decide +kernel
  obtain ⟨shown, page⟩ :=
    @runServer_shown_iff Bool String callLibraries AbiLibrary.sample local_booleans _ valid
  have presents : ∀ buffer ∈ [sampleTxId, callTxId], Presents callLibraries AbiLibrary.sample
      (runServer callLibraries [.newBlock contractBlock, callMempoolMessage]) buffer := by
    intro buffer mem
    obtain ⟨tx, ok, isSome⟩ := Except.map_eq_ok.mp (found buffer mem)
    obtain ⟨reported, rfl⟩ := Option.isSome_iff_exists.mp isSome
    apply (shown _ buffer (hexToBuffer_bufferToHexPrefixString buffer) (stored buffer mem)).mp
    exact ⟨reported, runServer_deployedAndCalled ▸ ok⟩
  exact ⟨presents callTxId (by simp), (page _ stored).mpr presents⟩

end StacksApi.EventStream
