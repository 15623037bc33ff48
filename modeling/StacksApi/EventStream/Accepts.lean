import StacksApi.EventStream.MempoolRun
import StacksApi.EventStream.Storable

/-!
# Which block messages are accepted

A message is accepted, whenever its block would be accepted without transactions,
unless a transaction or an event of it cannot be read or does not fit the tables.
In particular one transaction with a poison-microblock payload, which every other
layer supports, makes its block and all blocks above it be refused.
-/

namespace StacksApi.EventStream

open StacksApi.Binary
open StacksApi.P2p
open StacksApi.Datastore
open StacksApi.Transition

variable {CV : Type} {libraries : Libraries CV}

/-! ## Conditions on messages -/

/-- The rows of the transactions and events of the message fit their tables. -/
structure Fits (msg : CoreNodeMessage) (txs : List (Transaction CV)) : Prop where
  transactions : List.Forall₂ TxFits msg.transactions txs
  events : ∀ event ∈ msg.events, event.Fits
  /-- No event has so many events of its transaction before it. -/
  positions : ∀ earlier event later, msg.events = earlier ++ event :: later →
    earlier.countP (fun other => other.txid = event.txid) < 2 ^ 31

/-- The block of the message without its transactions. -/
def CoreNodeMessage.withoutTransactions (msg : CoreNodeMessage) : CoreNodeMessage :=
  { msg with transactions := [], events := [] }

/-- The store takes the message. -/
def Accepts (libraries : Libraries CV) (db : Db) (msg : CoreNodeMessage) : Prop :=
  Succeeds (handleClientMessage libraries db msg)

theorem eventPosition_of_noEvents {entries : List TxEntry}
    (noEvents : ∀ entry ∈ entries, NoEvents entry) (txid : String) :
    eventPosition entries txid = 0 := by
  induction entries with
  | nil => rfl
  | cons entry entries ih =>
      obtain ⟨first, rest⟩ := List.forall_mem_cons.mp noEvents
      rw [eventPosition, first.nextEventIndex, ih rest, ite_self]

/-- The update of a storable block is admissible when its transactions and events fit. -/
theorem Lists.admissible_iff (inverts : libraries.clarity.RoundTrips)
    (plain : PlainTexts libraries.addresses) {msg : CoreNodeMessage} {txs : List (Transaction CV)}
    (lists : Lists libraries msg txs) {data : DataStoreUpdateData}
    (handed : messageData libraries msg = .ok data) :
    data.Admissible ↔ Succeeds (blockRow (messageBlock msg)) ∧ Fits msg txs := by
  obtain ⟨parsed, parsedOk, handed⟩ := Except.bind_eq_ok.mp handed
  obtain ⟨entries, created, handed⟩ := Except.bind_eq_ok.mp handed
  obtain ⟨stored, added, same⟩ := Except.bind_eq_ok.mp handed
  cases same
  have made : List.Forall₂ (fun coreTx entry => EntryOf libraries msg coreTx entry ∧
      NoEvents entry) msg.transactions entries :=
    forall₂_trans (mapM_eq_ok_iff.mp parsedOk) (mapM_eq_ok_iff.mp created)
      fun _ _ _ parsed created =>
        ⟨(entryOf_of_createEntry parsed created).1, noEvents_createEntry created⟩
  have noEvents : ∀ entry ∈ entries, NoEvents entry := by
    intro entry mem
    obtain ⟨coreTx, -, -, none⟩ := exists_left_of_forall₂ made mem
    exact none
  have heights : ∀ tx ∈ entries.map TxEntry.tx, tx.blockHeight = msg.blockHeight := by
    intro tx mem
    obtain ⟨entry, entryMem, rfl⟩ := List.mem_map.mp mem
    obtain ⟨coreTx, -, ⟨read, recordOf, -, -⟩, -⟩ := exists_left_of_forall₂ made entryMem
    exact congrArg DbTx.blockHeight recordOf.inBlock
  rw [DataStoreUpdateData.admissible_iff]
  refine and_congr_right fun block => ?_
  have transactions : (∀ entry ∈ entries, Succeeds (entryRows entry)) ↔
      List.Forall₂ TxFits msg.transactions txs :=
    forall_mem_iff_forall₂ lists.transactions made
      fun coreTx tx entry ⟨encodes, valid, _⟩ ⟨entryOf, noEvents⟩ =>
        entryOf.succeeds_entryRows_iff inverts plain block encodes valid noEvents
  rw [succeeds_entryRows_foldlM_iff heights added, transactions]
  simp only [eventPosition_of_noEvents noEvents, Nat.zero_add]
  constructor
  · rintro ⟨transactions, events, positions⟩
    exact ⟨transactions, events, positions⟩
  · rintro ⟨transactions, events, positions⟩
    exact ⟨transactions, events, positions⟩

/-- Without transactions, a block is accepted when it passes `handleReorg` and its
own row is admitted. -/
theorem accepts_withoutTransactions_iff {db : Db} {msg : CoreNodeMessage} :
    Accepts libraries db msg.withoutTransactions ↔
      Succeeds (handleReorg db (messageBlock msg) (getChainTipHeight db).blockHeight) ∧
        Succeeds (blockRow (messageBlock msg)) := by
  have handed : Accepts libraries db msg.withoutTransactions ↔
      Succeeds (update db { block := messageBlock msg, txs := [] }) := Iff.rfl
  rw [handed]
  constructor
  · rintro ⟨⟨db', events⟩, ok⟩
    obtain ⟨-, reorged, pruned, row, accepted⟩ := update_ok ok
    obtain ⟨counts, handled⟩ := accepted.reorg
    have decoded := accepted.decoded
    rw [blockRow_settled] at decoded
    exact ⟨⟨_, handled⟩, succeeds_map_iff.mp ⟨row, decoded⟩⟩
  · rintro ⟨⟨⟨reorged, counts⟩, handled⟩, block⟩
    have admissible : DataStoreUpdateData.Admissible { block := messageBlock msg, txs := [] } :=
      DataStoreUpdateData.admissible_iff.mpr ⟨block, fun _ mem => nomatch mem⟩
    obtain ⟨db', events, ok⟩ := update_accepts admissible handled
    exact ⟨_, ok⟩

section Acceptance

variable {msg : CoreNodeMessage} {txs : List (Transaction CV)} {db : Db}

theorem Lists.accepts (inverts : libraries.clarity.RoundTrips)
    (plain : PlainTexts libraries.addresses) (lists : Lists libraries msg txs)
    (without : Accepts libraries db msg.withoutTransactions)
    (readable : Readable libraries msg txs) (fits : Fits msg txs) :
    Accepts libraries db msg := by
  obtain ⟨⟨⟨reorged, counts⟩, handled⟩, block⟩ := accepts_withoutTransactions_iff.mp without
  obtain ⟨data, handed⟩ := (lists.succeeds_messageData_iff inverts).mpr readable
  have admissible := (lists.admissible_iff inverts plain handed).mpr ⟨block, fits⟩
  rw [← (messageData_ok handed).1] at handled
  obtain ⟨db', events, ok⟩ := update_accepts admissible handled
  exact succeeds_bind_iff.mpr ⟨data, handed, _, ok⟩

theorem Lists.readable_and_fits (inverts : libraries.clarity.RoundTrips)
    (plain : PlainTexts libraries.addresses) (lists : Lists libraries msg txs)
    (isNew : NewBlock db (messageBlock msg)) (accepted : Accepts libraries db msg) :
    Readable libraries msg txs ∧ Fits msg txs := by
  obtain ⟨data, handed, updated⟩ := succeeds_bind_iff.mp accepted
  have readable := (lists.succeeds_messageData_iff inverts).mp ⟨data, handed⟩
  rw [succeeds_update_iff ((messageData_ok handed).1 ▸ isNew),
    lists.admissible_iff inverts plain handed] at updated
  exact ⟨readable, updated.2.2⟩

/-- A message is handed over as it should be exactly when it can be read.  A block
that the store would take without its transactions is taken with them if these can
be read and fit, and, unless it is stored already, only then. -/
theorem handleClientMessage_iff (inverts : libraries.clarity.RoundTrips)
    (plain : PlainTexts libraries.addresses) (lists : Lists libraries msg txs) :
    (HandsOver libraries msg ↔ Readable libraries msg txs) ∧
      ∀ db, Accepts libraries db msg.withoutTransactions →
        (Readable libraries msg txs ∧ Fits msg txs → Accepts libraries db msg) ∧
          (NewBlock db (messageBlock msg) →
            (Accepts libraries db msg ↔ Readable libraries msg txs ∧ Fits msg txs)) := by
  refine ⟨lists.handsOver_iff inverts, fun db without => ?_⟩
  have enough : Readable libraries msg txs ∧ Fits msg txs → Accepts libraries db msg :=
    fun ⟨readable, fits⟩ => lists.accepts inverts plain without readable fits
  exact ⟨enough, fun isNew => ⟨lists.readable_and_fits inverts plain isNew, enough⟩⟩

end Acceptance

/-! ## A block of two transactions -/

theorem plainTexts_zeroHash : PlainTexts AddressLibrary.zeroHash := by
  intro version hash text ok
  simp only [AddressLibrary.zeroHash] at ok
  split at ok
  · cases ok
  · split at ok
    · cases ok
      rfl
    · split at ok
      · cases ok
        rfl
      · cases ok

/-- The addresses of the sample transactions have texts. -/
theorem addressed_sampleTransfer {payload : TransactionPayload Bool}
    (standard : ∀ address ∈ payloadAddresses payload,
      address = { version := 26, bytes := List.replicate 20 0 }) :
    Addressed AddressLibrary.zeroHash { sampleTransfer 1 with payload } where
  signers condition mem := by
    rw [List.mem_singleton.mp mem]
    exact ⟨"ST000000000000000000002AMW42H", rfl⟩
  payload address mem := by
    rw [standard address mem]
    exact ⟨"ST000000000000000000002AMW42H", rfl⟩

/-- The transfer as a coinbase transaction. -/
def coinbaseTransaction : Transaction Bool :=
  { sampleTransfer 1 with payload := .coinbase (List.replicate 32 0) }

/-- The coinbase transaction behind the transfer in a block message. -/
def coinbaseCoreTx : CoreNodeTxMessage :=
  { sampleCoreTx with
    rawTx := bufferToHexPrefixString
      (encodeTransaction ClarityLibrary.booleans coinbaseTransaction)
    txid := "0x2570cd75de02183cf2ae71045b438f4fbd5b4356fdf6c3ce335c00b05708762e"
    txIndex := 1 }

/-- A coinbase transaction beside the transfer, which moves one micro-STX. -/
def mixedBlock : CoreNodeMessage :=
  { sampleBlock with
    events := [.stxTransferEvent (bufferToHexPrefixString sampleTxId)
      "ST000000000000000000002AMW42H" "ST000000000000000000002AMW42H" "1"]
    transactions := [sampleCoreTx, coinbaseCoreTx] }

theorem lists_mixedBlock :
    Lists sampleLibraries mixedBlock [sampleTransfer 1, coinbaseTransaction] where
  transactions := by
    have transfer := sampleTransfer_wellFormed (show IsU64 1 from ⟨by decide, by decide⟩)
    have coinbase : coinbaseTransaction.WellFormed :=
      { transfer with payload := List.length_replicate }
    exact .cons ⟨rfl, transfer, _, rfl⟩ (.cons ⟨rfl, coinbase, _, rfl⟩ .nil)
  events event mem := by
    rw [List.mem_singleton.mp mem]
    exact ⟨sampleCoreTx, List.mem_cons_self, rfl⟩

theorem readable_mixedBlock :
    Readable sampleLibraries mixedBlock [sampleTransfer 1, coinbaseTransaction] where
  supported tx mem := by
    rcases List.mem_pair.mp mem with rfl | rfl
    · decide
    · decide
  addressed tx mem := by
    rcases List.mem_pair.mp mem with rfl | rfl
    · exact addressed_sampleTransfer fun address mem => List.mem_singleton.mp mem
    · exact addressed_sampleTransfer fun address mem => nomatch mem
  events event mem := by
    rw [List.mem_singleton.mp mem]
    exact ⟨1, rfl⟩

theorem fits_mixedBlock : Fits mixedBlock [sampleTransfer 1, coinbaseTransaction] where
  transactions := by
    have transfer : TxFits sampleCoreTx (sampleTransfer 1) :=
      { txid := ⟨_, hexToBuffer_bufferToHexPrefixString _⟩
        rawResult := Or.inr ⟨[0x03], rfl⟩
        txIndex := rfl
        feeRate := by decide
        texts := fun _ mem => nomatch mem
        contractAbi := fun same => nomatch same }
    have coinbase : TxFits coinbaseCoreTx coinbaseTransaction :=
      { transfer with
        txid := ⟨_, rfl⟩
        txIndex := rfl
        texts := fun _ mem => nomatch mem
        contractAbi := fun same => nomatch same }
    exact .cons transfer (.cons coinbase .nil)
  events event mem := by
    rw [List.mem_singleton.mp mem]
    refine ⟨rfl, rfl, ?_⟩
    rw [amountFits_iff (show bigIntOfText "1" = .ok 1 from rfl)]
    rfl
  positions := forall_split_cons_iff.mpr ⟨by decide, by simp⟩

/-- Both transactions are handed over and accepted. -/
theorem handsOver_mixedBlock :
    HandsOver sampleLibraries mixedBlock ∧ Accepts sampleLibraries Db.empty mixedBlock := by
  have decided := handleClientMessage_iff ClarityLibrary.booleans_roundTrips plainTexts_zeroHash
    lists_mixedBlock
  have block : blockRow (messageBlock mixedBlock) = .ok sampleBlockRow := by decide +kernel
  have without : Accepts sampleLibraries Db.empty mixedBlock.withoutTransactions :=
    accepts_withoutTransactions_iff.mpr ⟨⟨_, rfl⟩, _, block⟩
  exact ⟨decided.1.mpr readable_mixedBlock,
    (decided.2 Db.empty without).1 ⟨readable_mixedBlock, fits_mixedBlock⟩⟩

/-! ## A poison microblock -/

/-- The transfer as a report of two microblock headers. -/
def poisonTransaction : Transaction Bool :=
  { sampleTransfer 1 with
    payload := .poisonMicroblock (List.replicate 132 0) (List.replicate 132 0) }

/-- The report in a block message. -/
def poisonCoreTx : CoreNodeTxMessage :=
  { sampleCoreTx with
    rawTx := bufferToHexPrefixString (encodeTransaction ClarityLibrary.booleans poisonTransaction)
    txid := "0xd1e116bc8d4de8f75a98b8282e3457ff47a958e53ddf4668d3dbd98024c09f6f" }

/-- A block message with the report. -/
def poisonBlock : CoreNodeMessage :=
  { sampleBlock with transactions := [poisonCoreTx] }

/-- The block above it, without transactions. -/
def childBlock : CoreNodeMessage :=
  { sampleBlock with
    blockHash := "0x22"
    blockHeight := 2
    indexBlockHash := "0x22"
    parentIndexBlockHash := "0x11"
    parentBlockHash := "0x11"
    transactions := [] }

theorem lists_poisonBlock : Lists sampleLibraries poisonBlock [poisonTransaction] where
  transactions := by
    have transfer := sampleTransfer_wellFormed (show IsU64 1 from ⟨by decide, by decide⟩)
    have poison : poisonTransaction.WellFormed :=
      { transfer with payload := ⟨List.length_replicate, List.length_replicate⟩ }
    exact .cons ⟨rfl, poison, _, rfl⟩ .nil
  events event mem := nomatch mem

theorem receive_of_not_accepts {db : Db} {msg : CoreNodeMessage}
    (refused : ¬Accepts libraries db msg) : receive libraries db (.newBlock msg) = db := by
  cases result : handleClientMessage libraries db msg with
  | error error => exact commit_of_error result
  | ok outcome => exact absurd ⟨outcome, result⟩ refused

/-- One poison microblock makes its block and the block above it be refused. -/
theorem runServer_poisonBlock :
    Lists sampleLibraries poisonBlock [poisonTransaction] ∧
      ¬HandsOver sampleLibraries poisonBlock ∧
      Accepts sampleLibraries Db.empty poisonBlock.withoutTransactions ∧
      ¬Accepts sampleLibraries Db.empty poisonBlock ∧
      runServer sampleLibraries [.newBlock poisonBlock, .newBlock childBlock] = Db.empty := by
  have unreadable : ¬Readable sampleLibraries poisonBlock [poisonTransaction] :=
    fun readable => readable.supported _ (List.mem_singleton_self _) rfl
  have inverts := ClarityLibrary.booleans_roundTrips
  have refused : ¬Accepts sampleLibraries Db.empty poisonBlock := by
    intro accepted
    obtain ⟨data, handed, -⟩ := succeeds_bind_iff.mp accepted
    exact unreadable ((lists_poisonBlock.succeeds_messageData_iff inverts).mp ⟨data, handed⟩)
  have orphan : ¬Accepts sampleLibraries Db.empty childBlock := by
    have same : childBlock = childBlock.withoutTransactions := rfl
    rw [same, accepts_withoutTransactions_iff]
    rintro ⟨⟨result, handled⟩, -⟩
    cases handled
  have block : blockRow (messageBlock poisonBlock) = .ok sampleBlockRow := by decide +kernel
  refine ⟨lists_poisonBlock, ?_, accepts_withoutTransactions_iff.mpr ⟨⟨_, rfl⟩, _, block⟩,
    refused, ?_⟩
  · exact fun handed => unreadable ((lists_poisonBlock.handsOver_iff inverts).mp handed)
  · rw [runServer, List.foldl_cons, List.foldl_cons, List.foldl_nil,
      receive_of_not_accepts refused, receive_of_not_accepts orphan]

end StacksApi.EventStream
