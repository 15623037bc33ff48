import StacksApi.Controllers.Snapshot
import StacksApi.Datastore.BalanceRead
import StacksApi.Datastore.Conservation
import StacksApi.Datastore.Searches
import StacksApi.Routes.Walks

/-!
# Statements of account

A client that walks through the asset events and the transactions of an address and adds up
what they say arrives at the balances that `GET /address/:stx_address/balances` answers, as
long as no block comes in between.
-/

namespace StacksApi.Routes

open StacksApi.Binary
open StacksApi.Text
open StacksApi.Relational
open StacksApi.Datastore
open StacksApi.Controllers
open StacksApi.Transition
open Reading

/-! ## The routes -/

/-- A balance as it is answered. -/
structure AddressStxBalanceResponse where
  balance : String
  totalSent : String
  totalReceived : String
  deriving DecidableEq

/-- The counts of an asset as they are answered. -/
structure NftBalance where
  count : String
  totalSent : String
  totalReceived : String
  deriving DecidableEq

/-- The balances of an address as they are answered. -/
structure AddressBalanceResponse where
  stx : AddressStxBalanceResponse
  fungibleTokens : List (String × AddressStxBalanceResponse)
  nonFungibleTokens : List (String × NftBalance)
  deriving DecidableEq

/-- A page of asset events as it is answered. -/
structure AddressAssetEvents where
  results : List TransactionEvent
  limit : Nat
  offset : Nat
  total : Nat
  deriving DecidableEq

/-- The properties of the object, in the order in which they are set. -/
def formatMapToObject {α β : Type} (map : List (String × α)) (formatter : α → β) :
    List (String × β) :=
  map.map fun (key, value) => (key, formatter value)

/-- A balance with its numbers as texts. -/
def formatBalance (val : TokenBalance) : AddressStxBalanceResponse where
  balance := toString val.balance
  totalSent := toString val.totalSent
  totalReceived := toString val.totalReceived

/-- The counts with their numbers as texts. -/
def formatCount (val : TokenCount) : NftBalance where
  count := toString val.count
  totalSent := toString val.totalSent
  totalReceived := toString val.totalReceived

/-- The two queries of `getStxBalance`. -/
def readStxBalance (stxAddress : String) : QueryM TokenBalance := do
  let totals ← ask fun db => .ok (stxTransferTotals db stxAddress)
  let totalFees ← ask fun db => .ok (stxTotalFees db stxAddress)
  return stxBalance totals totalFees

section Api

variable {CV : Type} (clarity : ClarityLibrary CV) (addresses : AddressLibrary)

/-- Answer for an address, if it is one. -/
def answerAddress {Body : Type} (stxAddress : String) (answer : QueryM Body) :
    QueryM (Response Body) :=
  if (isValidPrincipal addresses stxAddress).isNone then
    return .badRequest s!"invalid STX address \"{stxAddress}\""
  else do
    return .ok (← answer)

/-- `GET /address/:stx_address/stx` -/
def getAddressStx (stxAddress : String) : QueryM (Response AddressStxBalanceResponse) :=
  answerAddress addresses stxAddress do
    return formatBalance (← readStxBalance stxAddress)

/-- `GET /address/:stx_address/balances` -/
def getAddressBalances (localeCompare : String → String → Int) (stxAddress : String) :
    QueryM (Response AddressBalanceResponse) :=
  answerAddress addresses stxAddress do
    let stx ← readStxBalance stxAddress
    let ftBalancesResult ← ask fun db => .ok (getFungibleTokenBalances localeCompare db stxAddress)
    let nftBalancesResult ← ask fun db =>
      .ok (getNonFungibleTokenCounts localeCompare db stxAddress)
    return {
      stx := formatBalance stx
      fungibleTokens := formatMapToObject ftBalancesResult formatBalance
      nonFungibleTokens := formatMapToObject nftBalancesResult formatCount }

/-- A page of asset events as they are shown. -/
def listAssets (stxAddress : String) (limit offset : Nat) : QueryM AddressAssetEvents := do
  let { results := assetEvents, total } ←
    ask fun db => getAddressAssetEvents db stxAddress limit offset
  let results ←
    (assetEvents.mapM (parseDbEvent clarity) : Except ApiError (List TransactionEvent))
  return { results, limit, offset, total }

/-- `GET /address/:stx_address/assets` -/
def getAddressAssets (stxAddress : String) (limit offset : Option QueryValue) :
    QueryM (Response AddressAssetEvents) :=
  answerAddress addresses stxAddress do
    let limit ← parseBoundedLimit 50 (limit.getD (.number 20))
    let offset ← parsePagingQueryInput (offset.getD (.number 0))
    listAssets clarity stxAddress limit offset

/-- `GET /address/:stx_address/assets` at an offset -/
def assetResults (stxAddress : String) (limit offset : Nat) : QueryM (List TransactionEvent) := do
  let response ← listAssets clarity stxAddress limit offset
  return response.results

end Api

/-! ## What a client adds up -/

/-- What an account can hold. -/
inductive Holding
  | stx
  | fungible (assetId : String)
  | nonFungible (assetId : String)
  deriving DecidableEq

/-- What an event says of accounts; a non-fungible token counts as one. -/
structure Movement where
  holding : Holding
  sender : String
  recipient : String
  amount : Int
  deriving DecidableEq

/-- What an event that is shown says of accounts, if it moves an asset. -/
def movement : TransactionEvent → Option Movement
  | .stxAsset _ _ sender recipient amount =>
      (bigIntOfString amount).map fun amount => ⟨.stx, sender, recipient, amount⟩
  | .fungibleTokenAsset _ _ assetId sender recipient amount =>
      (bigIntOfString amount).map fun amount => ⟨.fungible assetId, sender, recipient, amount⟩
  | .nonFungibleTokenAsset _ _ assetId sender recipient _ =>
      some ⟨.nonFungible assetId, sender, recipient, 1⟩
  | .smartContractLog _ _ _ _ => none

/-- The movements of one holding. -/
def movementsOf (holding : Holding) (events : List TransactionEvent) : List Movement :=
  (events.filterMap movement).filter fun movement => movement.holding = holding

/-- What the movements bring an address. -/
def receivedOf (address : String) (movements : List Movement) : Int :=
  partySum (fun movement => some movement.recipient) Movement.amount movements address

/-- What the movements take from an address. -/
def sentOf (address : String) (movements : List Movement) : Int :=
  partySum (fun movement => some movement.sender) Movement.amount movements address

/-- The fees of the transactions that an address has sent. -/
def feesPaid (address : String) (txs : List Transaction) : Int :=
  ((txs.filter fun tx => tx.senderAddress = address).filterMap fun tx =>
    bigIntOfString tx.feeRate).sum

/-- The balances of an address are what its events and the fees of its transactions add up
to. -/
structure AddsUp (address : String) (events : List TransactionEvent) (txs : List Transaction)
    (balances : AddressBalanceResponse) : Prop where
  stx : balances.stx = formatBalance
    { balance := receivedOf address (movementsOf .stx events) -
        sentOf address (movementsOf .stx events) - feesPaid address txs
      totalSent := sentOf address (movementsOf .stx events)
      totalReceived := receivedOf address (movementsOf .stx events) }
  fungibleNodup : (balances.fungibleTokens.map Prod.fst).Nodup
  fungibleNamed : ∀ assetId, assetId ∈ balances.fungibleTokens.map Prod.fst ↔
    movementsOf (.fungible assetId) events ≠ []
  fungible : ∀ assetId shown, (assetId, shown) ∈ balances.fungibleTokens → shown = formatBalance
    { balance := receivedOf address (movementsOf (.fungible assetId) events) -
        sentOf address (movementsOf (.fungible assetId) events)
      totalSent := sentOf address (movementsOf (.fungible assetId) events)
      totalReceived := receivedOf address (movementsOf (.fungible assetId) events) }
  nonFungibleNodup : (balances.nonFungibleTokens.map Prod.fst).Nodup
  nonFungibleNamed : ∀ assetId, assetId ∈ balances.nonFungibleTokens.map Prod.fst ↔
    movementsOf (.nonFungible assetId) events ≠ []
  nonFungible : ∀ assetId shown, (assetId, shown) ∈ balances.nonFungibleTokens →
    shown = formatCount
      { count := receivedOf address (movementsOf (.nonFungible assetId) events) -
          sentOf address (movementsOf (.nonFungible assetId) events)
        totalSent := sentOf address (movementsOf (.nonFungible assetId) events)
        totalReceived := receivedOf address (movementsOf (.nonFungible assetId) events) }

/-! ## Movements of rows -/

/-- The movement that an event of the tables says. -/
def eventMovement : DbEvent → Option Movement
  | .stx event => some ⟨.stx, event.sender.getD "", event.recipient.getD "", event.amount⟩
  | .ft event => some ⟨.fungible event.assetIdentifier, event.sender.getD "",
      event.recipient.getD "", event.amount⟩
  | .nft event => some ⟨.nonFungible event.assetIdentifier, event.sender.getD "",
      event.recipient.getD "", 1⟩
  | .smartContractLog _ => none

theorem movement_of_parseDbEvent {CV : Type} {clarity : ClarityLibrary CV} {event : DbEvent}
    {shown : TransactionEvent} (parsed : parseDbEvent clarity event = .ok shown) :
    movement shown = eventMovement event := by
  cases event with
  | smartContractLog event =>
      obtain ⟨value, -, same⟩ := Except.bind_eq_ok.mp parsed
      cases same
      rfl
  | stx event =>
      cases parsed
      rw [movement, bigIntOfString_toString]
      rfl
  | ft event =>
      cases parsed
      rw [movement, bigIntOfString_toString]
      rfl
  | nft event =>
      obtain ⟨value, -, same⟩ := Except.bind_eq_ok.mp parsed
      cases same
      rfl

section Rows

variable {α : Type} {event : α → DbAssetEvent Buffer} {holding : α → Holding} {amount : α → Int}
variable {rows : List α} {address : String}

/-- The movements of the rows of a table that name the address. -/
def rowMovements (event : α → DbAssetEvent Buffer) (holding : α → Holding) (amount : α → Int)
    (rows : List α) (address : String) : List Movement :=
  (rows.filter fun row => isAddressEvent address (event row)).map fun row =>
    ⟨holding row, (event row).sender.getD "", (event row).recipient.getD "", amount row⟩

theorem getD_eq_iff {party : Option String} (nonempty : address ≠ "") :
    party.getD "" = address ↔ party = some address := by
  cases party with
  | none => simp [nonempty.symm]
  | some party => simp

/-- A missing party is shown as an empty text, which is no address. -/
theorem receivedOf_rowMovements (nonempty : address ≠ "") :
    receivedOf address (rowMovements event holding amount rows address) =
      partySum (fun row => (event row).recipient) amount
        (rows.filter fun row => (event row).canonical) address := by
  rw [receivedOf, rowMovements, partySum, partySum, List.filter_map, List.map_map,
    List.filter_filter, List.filter_filter]
  apply congrArg List.sum
  apply congrArg (List.map _)
  apply List.filter_congr
  intro row _
  by_cases isRecipient : (event row).recipient = some address <;>
    simp [isAddressEvent, getD_eq_iff nonempty, isRecipient]

theorem sentOf_rowMovements (nonempty : address ≠ "") :
    sentOf address (rowMovements event holding amount rows address) =
      partySum (fun row => (event row).sender) amount
        (rows.filter fun row => (event row).canonical) address := by
  rw [sentOf, rowMovements, partySum, partySum, List.filter_map, List.map_map,
    List.filter_filter, List.filter_filter]
  apply congrArg List.sum
  apply congrArg (List.map _)
  apply List.filter_congr
  intro row _
  by_cases isSender : (event row).sender = some address <;>
    simp [isAddressEvent, getD_eq_iff nonempty, isSender]

/-- The movements of an asset are those of its rows. -/
theorem filter_rowMovements {value : Holding} :
    (rowMovements event holding amount rows address).filter
        (fun movement => movement.holding = value) =
      rowMovements event holding amount (rows.filter fun row => holding row = value) address := by
  rw [rowMovements, rowMovements, List.filter_map, List.filter_filter, List.filter_filter]
  apply congrArg (List.map _)
  apply List.filter_congr
  intro row _
  exact Bool.and_comm _ _

end Rows

theorem filterMap_eventMovement (db : Db) (address : String) :
    (addressAssetEvents db address).filterMap eventMovement =
      rowMovements (fun row => row.entity.toDbAssetEvent) (fun _ => .stx)
          (fun row => row.entity.amount) db.stxEvents address ++
        rowMovements (fun row => row.entity.toDbAssetEvent)
          (fun row => .fungible row.entity.assetIdentifier) (fun row => row.entity.amount)
          db.ftEvents address ++
        rowMovements (fun row => row.entity.toDbAssetEvent)
          (fun row => .nonFungible row.entity.assetIdentifier) (fun _ => 1) db.nftEvents
          address := by
  rw [addressAssetEvents, List.filterMap_append, List.filterMap_append, List.filterMap_map,
    List.filterMap_map, List.filterMap_map, rowMovements, rowMovements, rowMovements]
  rw [← List.filterMap_eq_map, ← List.filterMap_eq_map, ← List.filterMap_eq_map]
  rfl

theorem filterMap_movement {CV : Type} {clarity : ClarityLibrary CV} {rows : List DbEvent}
    {events : List TransactionEvent}
    (each : rows.Forall₂ (fun event shown => parseDbEvent clarity event = .ok shown) events) :
    events.filterMap movement = rows.filterMap eventMovement := by
  induction each with
  | nil => rfl
  | cons parsed _ ih =>
      rw [List.filterMap_cons, List.filterMap_cons, movement_of_parseDbEvent parsed, ih]

/-- What a client has of the events of the address, in any order. -/
structure ShowsMovements (db : Db) (address : String) (events : List TransactionEvent) : Prop where
  stx : (movementsOf .stx events).Perm
    (rowMovements (fun row => row.entity.toDbAssetEvent) (fun _ => .stx)
      (fun row => row.entity.amount) db.stxEvents address)
  fungible : ∀ assetId, (movementsOf (.fungible assetId) events).Perm
    (rowMovements (fun row => row.entity.toDbAssetEvent)
      (fun row => .fungible row.entity.assetIdentifier) (fun row => row.entity.amount)
      (db.ftEvents.filter fun row => row.entity.assetIdentifier = assetId) address)
  nonFungible : ∀ assetId, (movementsOf (.nonFungible assetId) events).Perm
    (rowMovements (fun row => row.entity.toDbAssetEvent)
      (fun row => .nonFungible row.entity.assetIdentifier) (fun _ => 1)
      (db.nftEvents.filter fun row => row.entity.assetIdentifier = assetId) address)

theorem showsMovements_of_parsed {CV : Type} {clarity : ClarityLibrary CV} {db : Db}
    {address : String} {rows : List DbEvent} (perm : rows.Perm (addressAssetEvents db address))
    {events : List TransactionEvent}
    (each : rows.Forall₂ (fun event shown => parseDbEvent clarity event = .ok shown) events) :
    ShowsMovements db address events := by
  have same := filterMap_movement each
  have all := perm.filterMap eventMovement
  rw [← same, filterMap_eventMovement] at all
  have none : ∀ {α : Type} {event : α → DbAssetEvent Buffer} {holding : α → Holding}
      {amount : α → Int}, rowMovements event holding amount [] address = [] := rfl
  constructor
  · have kept := all.filter fun movement => movement.holding = .stx
    simpa [filter_rowMovements, movementsOf, none] using kept
  · intro assetId
    have kept := all.filter fun movement => movement.holding = .fungible assetId
    simpa [filter_rowMovements, movementsOf, none] using kept
  · intro assetId
    have kept := all.filter fun movement => movement.holding = .nonFungible assetId
    simpa [filter_rowMovements, movementsOf, none] using kept

/-! ## Sums of movements -/

theorem receivedOf_eq_of_perm {movements movements' : List Movement}
    (perm : movements.Perm movements') (address : String) :
    receivedOf address movements = receivedOf address movements' :=
  ((perm.filter _).map Movement.amount).sum_eq

theorem sentOf_eq_of_perm {movements movements' : List Movement}
    (perm : movements.Perm movements') (address : String) :
    sentOf address movements = sentOf address movements' :=
  ((perm.filter _).map Movement.amount).sum_eq

theorem stxTransferTotals_eq (db : Db) (address : String) :
    stxTransferTotals db address =
      (partySum (fun row => row.entity.sender) (fun row => row.entity.amount)
          (canonicalStxEvents db) address,
        partySum (fun row => row.entity.recipient) (fun row => row.entity.amount)
          (canonicalStxEvents db) address) := by
  simp only [stxTransferTotals, getD_sumColumn, canonicalStxEvents, partySum, List.filter_filter]
  congr 2
  · apply congrArg (List.map _)
    apply List.filter_congr
    intro row _
    by_cases isSender : row.entity.sender = some address <;> simp [isSender]
  · apply congrArg (List.map _)
    apply List.filter_congr
    intro row _
    by_cases isRecipient : row.entity.recipient = some address <;> simp [isRecipient]

section Tokens

variable {α β : Type} {event : α → DbContractAssetEvent Buffer} {amount : α → Int}
variable {rows : List α} {address : String} {net sent received : β → Int}
variable {entries : List (String × β)} {holding : String → Holding}
variable {events : List TransactionEvent}

/-- The entries of a map of token balances are what the movements of the tokens add up to. -/
structure TokensAddUp (address : String) (net sent received : β → Int) (holding : String → Holding)
    (events : List TransactionEvent) (entries : List (String × β)) : Prop where
  nodup : (entries.map Prod.fst).Nodup
  named : ∀ assetId, assetId ∈ entries.map Prod.fst ↔ movementsOf (holding assetId) events ≠ []
  sent : ∀ entry ∈ entries, sent entry.2 = sentOf address (movementsOf (holding entry.1) events)
  received : ∀ entry ∈ entries,
    received entry.2 = receivedOf address (movementsOf (holding entry.1) events)
  net : ∀ entry ∈ entries, net entry.2 = receivedOf address (movementsOf (holding entry.1) events) -
    sentOf address (movementsOf (holding entry.1) events)

theorem tokensAddUp_of_entriesOf (nonempty : address ≠ "")
    (entriesOf : EntriesOf event amount rows address net sent received entries)
    (shows : ∀ assetId, (movementsOf (holding assetId) events).Perm
      (rowMovements (fun row => (event row).toDbAssetEvent)
        (fun row => holding (event row).assetIdentifier) amount
        (rows.filter fun row => (event row).assetIdentifier = assetId) address)) :
    TokensAddUp address net sent received holding events entries := by
  have assets : ∀ assetId, ((rows.filter fun row => (event row).assetIdentifier = assetId).filter
      fun row => (event row).canonical) = assetRows event rows assetId :=
    fun assetId => List.filter_filter
  have receivedSum : ∀ assetId, receivedOf address (movementsOf (holding assetId) events) =
      partySum (fun row => (event row).recipient) amount (assetRows event rows assetId)
        address := by
    intro assetId
    rw [receivedOf_eq_of_perm (shows assetId), receivedOf_rowMovements nonempty, assets]
  have sentSum : ∀ assetId, sentOf address (movementsOf (holding assetId) events) =
      partySum (fun row => (event row).sender) amount (assetRows event rows assetId) address := by
    intro assetId
    rw [sentOf_eq_of_perm (shows assetId), sentOf_rowMovements nonempty, assets]
  constructor
  · exact entriesOf.nodup
  · intro assetId
    rw [entriesOf.named, ← List.length_pos_iff, (shows assetId).length_eq, List.length_pos_iff,
      rowMovements, ← assets, Ne, List.map_eq_nil_iff, List.filter_eq_nil_iff]
    simp only [List.mem_filter, isAddressEvent, Bool.and_eq_true, Bool.or_eq_true,
      decide_eq_true_eq, not_forall, not_not, exists_prop, and_assoc]
  · exact fun entry mem => (entriesOf.sent entry mem).trans (sentSum entry.1).symm
  · exact fun entry mem => (entriesOf.received entry mem).trans (receivedSum entry.1).symm
  · intro entry mem
    rw [receivedSum, sentSum, ← entriesOf.received entry mem, ← entriesOf.sent entry mem]
    exact entriesOf.net entry mem

end Tokens

/-! ## Who pays -/

/-- The records that are handed to the store. -/
def recordsOf (calls : List StoreCall) : List (DbTxBase String) :=
  (deliveredTxs calls).map DbTx.toDbTxBase ++ (pendingOf calls).map DbMempoolTx.toDbTxBase

/-- Records with the same id have the same sender and the same fee. -/
def PaidAlike (calls : List StoreCall) : Prop :=
  ∀ first ∈ recordsOf calls, ∀ second ∈ recordsOf calls,
    hexToBuffer first.txId = hexToBuffer second.txId →
      first.senderAddress = second.senderAddress ∧ first.feeRate = second.feeRate

section Payers

variable {calls : List StoreCall}

/-- The row is what is kept of a record. -/
def Recorded (calls : List StoreCall) (row : DbTxBase Buffer) : Prop :=
  ∃ record ∈ recordsOf calls, hexToBuffer record.txId = .ok row.txId ∧
    row.senderAddress = record.senderAddress ∧ row.feeRate = record.feeRate

theorem recorded_tx (moment : Moment calls) {row : DbTx Buffer} (mem : row ∈ moment.db.txs) :
    Recorded calls row.toDbTxBase := by
  obtain ⟨source, sourceMem, decoded⟩ := (runStore_delivered moment.past).txs row mem
  obtain ⟨rest, same⟩ := moment.isPrefix
  refine ⟨source.toDbTxBase, ?_, decoded.txId, ?_, ?_⟩
  · rw [recordsOf, ← same, deliveredTxs_append]
    exact List.mem_append_left _ (List.mem_map_of_mem (List.mem_append_left _ sourceMem))
  · exact congrArg (fun tx => tx.senderAddress) decoded.columns
  · exact congrArg (fun tx => tx.feeRate) decoded.columns

theorem recorded_pending (moment : Moment calls) {row : DbMempoolTx Buffer}
    (mem : row ∈ moment.db.mempoolTxs) : Recorded calls row.toDbTxBase := by
  obtain ⟨source, sourceMem, decoded⟩ := (runStore_delivered moment.past).pending row mem
  obtain ⟨rest, same⟩ := moment.isPrefix
  refine ⟨source.toDbTxBase, ?_, decoded.txId, ?_, ?_⟩
  · rw [recordsOf, ← same, pendingOf_append]
    exact List.mem_append_right _ (List.mem_map_of_mem (List.mem_append_left _ sourceMem))
  · exact congrArg (fun tx => tx.senderAddress) decoded.columns
  · exact congrArg (fun tx => tx.feeRate) decoded.columns

theorem PaidAlike.eq_of_txId (alike : PaidAlike calls) {first second : DbTxBase Buffer}
    (firstRecorded : Recorded calls first) (secondRecorded : Recorded calls second)
    (same : first.txId = second.txId) :
    first.senderAddress = second.senderAddress ∧ first.feeRate = second.feeRate := by
  obtain ⟨record, mem, txId, sender, fee⟩ := firstRecorded
  obtain ⟨record', mem', txId', sender', fee'⟩ := secondRecorded
  have agree := alike record mem record' mem' (txId.trans ((congrArg _ same).trans txId'.symm))
  exact ⟨sender.trans (agree.1.trans sender'.symm), fee.trans (agree.2.trans fee'.symm)⟩

/-- The columns that a parsed row shares with the row. -/
theorem payer_of_parsedColumns {row : DbTxBase Buffer} {columns : DbTxBase String}
    (parsed : parseTxColumns row = .ok columns) :
    columns.senderAddress = row.senderAddress ∧ columns.feeRate = row.feeRate := by
  rw [parseTxColumns] at parsed
  split at parsed
  · obtain ⟨amount, -, same⟩ := Except.bind_eq_ok.mp parsed
    cases same
    exact ⟨rfl, rfl⟩
  all_goals
    cases parsed
    exact ⟨rfl, rfl⟩

theorem payer_of_parseStoredTx {CV Ty : Type} {clarity : ClarityLibrary CV}
    {addresses : AddressLibrary} {abis : AbiLibrary Ty} {db : Db} {stored : StoredTx}
    {shown : Transaction}
    (parsed : parseStoredTx clarity addresses abis db stored = .ok shown) :
    shown.senderAddress = stored.toDbTxBase.senderAddress ∧
      shown.feeRate = toString stored.toDbTxBase.feeRate := by
  obtain ⟨_, -, parsed⟩ := Except.bind_eq_ok.mp parsed
  obtain ⟨_, -, parsed⟩ := Except.bind_eq_ok.mp parsed
  obtain ⟨_, -, parsed⟩ := Except.bind_eq_ok.mp parsed
  obtain ⟨_, -, parsed⟩ := Except.bind_eq_ok.mp parsed
  obtain ⟨_, -, parsed⟩ := Except.bind_eq_ok.mp parsed
  obtain ⟨_, -, parsed⟩ := Except.bind_eq_ok.mp parsed
  cases parsed
  exact ⟨rfl, rfl⟩

/-- Whichever row of a transaction is shown, its sender and its fee are the same. -/
theorem payer_of_found {CV Ty : Type} {clarity : ClarityLibrary CV} {addresses : AddressLibrary}
    {abis : AbiLibrary Ty} (regular : RegularCalls calls) (alike : PaidAlike calls)
    {start last : Moment calls} {row : DbTxBase Buffer} (recorded : Recorded calls row)
    {shown : Transaction}
    (found : Ends Moment.Sees start (Stepwise.getTxFromDataStore clarity addresses abis
      (bufferToHexPrefixString row.txId)) last (.ok (some shown))) :
    shown.senderAddress = row.senderAddress ∧ shown.feeRate = toString row.feeRate := by
  obtain ⟨answered, seen, seen', stored, -, -, sight, -, parsed, looked⟩ :=
    getTxFromDataStore_snapshot regular found
  have payer := payer_of_parseStoredTx parsed
  have agree : ∃ base : DbTxBase Buffer, Recorded calls base ∧ row.txId = base.txId ∧
      parseTxColumns base = .ok stored.toDbTxBase := by
    rcases looked with ⟨pending, rfl, foundOk⟩ | ⟨mined, events, rfl, foundOk, -⟩
    · obtain ⟨other, mem, txId, parsedRow⟩ := getMempoolTx_parsed foundOk
      obtain ⟨columns, columnsOk, same⟩ := Except.bind_eq_ok.mp parsedRow
      cases same
      rw [hexToBuffer_bufferToHexPrefixString] at txId
      exact ⟨_, recorded_pending answered (sight.mempoolTxs.symm.subset mem),
        Except.ok.inj txId, columnsOk⟩
    · obtain ⟨other, mem, txId, parsedRow⟩ := getTx_parsed foundOk
      obtain ⟨columns, columnsOk, same⟩ := Except.bind_eq_ok.mp parsedRow
      cases same
      rw [hexToBuffer_bufferToHexPrefixString] at txId
      exact ⟨_, recorded_tx answered ((sight.rows .txs).symm.subset mem), Except.ok.inj txId,
        columnsOk⟩
  obtain ⟨base, baseRecorded, sameId, columnsOk⟩ := agree
  have columns := payer_of_parsedColumns columnsOk
  have same := alike.eq_of_txId recorded baseRecorded sameId
  rw [payer.1, payer.2, columns.1, columns.2, same.1, same.2]
  exact ⟨rfl, rfl⟩

end Payers

theorem ShowsMovements.of_scan {db db' : Db} {address : String} {events : List TransactionEvent}
    (shows : ShowsMovements db address events) (scan : Scan db db') :
    ShowsMovements db' address events where
  stx := shows.stx.trans (((scan.rows .stxEvents).filter _).map _)
  fungible assetId :=
    (shows.fungible assetId).trans ((((scan.rows .ftEvents).filter _).filter _).map _)
  nonFungible assetId :=
    (shows.nonFungible assetId).trans ((((scan.rows .nftEvents).filter _).filter _).map _)

/-! ## Walks -/

section Statement

variable {CV Ty : Type} {clarity : ClarityLibrary CV} {addresses : AddressLibrary}
variable {abis : AbiLibrary Ty} {calls : List StoreCall} {start last : Moment calls}
variable {address : String}

/-- A page of events that is answered has those of the page that the query has read. -/
theorem page_of_assetResults {limit offset : Nat} {results : List TransactionEvent}
    (ends : Ends Moment.Sees start (assetResults clarity address limit offset) last
      (.ok results)) :
    start ≤ last ∧ ∃ seen, last.Sees seen ∧
      (page limit offset (orderByDesc (fun event : DbEvent => eventOrder event.base)
        (addressAssetEvents seen address))).Forall₂
          (fun event shown => parseDbEvent clarity event = .ok shown) results := by
  obtain ⟨response, middle, answered, ends⟩ := ends_bind_ok_iff.mp ends
  obtain ⟨rfl, ⟨⟩⟩ := ends_pure_iff.mp ends
  obtain ⟨listing, listed, asked, answered⟩ := ends_bind_ok_iff.mp answered
  obtain ⟨later, seen, sight, listingOk⟩ := ends_ask_iff.mp asked
  obtain ⟨results, parsed, answered⟩ := ends_lift_bind_iff.mp answered
  obtain ⟨rfl, ⟨⟩⟩ := ends_pure_iff.mp answered
  have listingOk := listingOk.symm
  rw [getAddressAssetEvents, paged_natCast] at listingOk
  cases listingOk
  exact ⟨later, seen, sight, mapM_eq_ok_iff.mp parsed⟩

/-- While no block comes, a walk through the events of an address shows each of them once. -/
theorem showsMovements_of_walk (wired : WiredCalls calls)
    (positioned : ∀ data ∈ updatesOf calls, data.Positioned)
    (onlyPending : OnlyPending start last) {first final : Moment calls} (after : start ≤ first)
    (before : final ≤ last) {limit : Nat} {events : List TransactionEvent}
    (walks : WalksPages Moment.Sees (assetResults clarity address limit) limit first 0 final
      events) :
    ShowsMovements start.db address events := by
  obtain ⟨standing, placed⟩ := positioned_moment wired positioned start
  have distinct := placed.nodup_assetEvents standing address
  have pages : ∀ (first' final' : Moment calls) offset results, first ≤ first' → final' ≤ final →
      Ends Moment.Sees first' (assetResults clarity address limit offset) final' (.ok results) →
        (page limit offset (orderByDesc (fun event : DbEvent => eventOrder event.base)
          (addressAssetEvents start.db address))).Forall₂
            (fun event shown => parseDbEvent clarity event = .ok shown) results := by
    intro first' final' offset results after' before' ends
    obtain ⟨later, seen, sight, each⟩ := page_of_assetResults ends
    have scan := onlyPending.scan (after.trans (after'.trans later)) (before'.trans before) sight
    rw [orderByDesc_eq_of_nodup (scan.addressAssetEvents_perm address) distinct]
    exact each
  have each := walks.forall₂_drop pages
  exact showsMovements_of_parsed (orderByDesc_perm _ _) each

theorem feesPaid_of_payers {rows : List (DbTx Buffer)} {txs : List Transaction}
    (each : rows.Forall₂ (fun row shown => shown.senderAddress = row.senderAddress ∧
      shown.feeRate = toString row.feeRate) txs) :
    feesPaid address txs =
      ((rows.filter fun row => row.senderAddress = address).map fun row => row.feeRate).sum := by
  induction each with
  | nil => rfl
  | @cons row shown rows txs payer _ ih =>
      rw [feesPaid] at ih ⊢
      rw [List.filter_cons, List.filter_cons, payer.1]
      split
      · rw [List.filterMap_cons, payer.2, bigIntOfString_toString, List.sum_cons, ih,
          List.map_cons, List.sum_cons]
      · exact ih

/-- While no block comes, a walk through the transactions of an address shows what it has paid
as fees. -/
theorem feesPaid_of_walk (regular : RegularCalls calls) (wired : WiredCalls calls)
    (positioned : ∀ data ∈ updatesOf calls, data.Positioned) (alike : PaidAlike calls)
    (onlyPending : OnlyPending start last) {first final : Moment calls} (after : start ≤ first)
    (before : final ≤ last) {limit : Nat} {txs : List Transaction}
    (walks : WalksPages Moment.Sees (txResults clarity addresses abis (.ofAddress address) limit)
      limit first 0 final txs) :
    feesPaid address txs = stxTotalFees start.db address := by
  obtain ⟨standing, placed⟩ := positioned_moment wired positioned start
  have distinct := placed.nodup_txOrder standing (isAddressTx address)
  have pages : ∀ (first' final' : Moment calls) offset results, first ≤ first' → final' ≤ final →
      Ends Moment.Sees first' (txResults clarity addresses abis (.ofAddress address) limit offset)
        final' (.ok results) →
        (page limit offset (orderByDesc txOrder
          (start.db.txs.filter fun row => row.canonical && isAddressTx address row))).Forall₂
            (fun row shown => shown.senderAddress = row.senderAddress ∧
              shown.feeRate = toString row.feeRate) results := by
    intro first' final' offset results after' before' ends
    obtain ⟨listed, seen, later, earlier, sight, each⟩ := found_of_txResults ends
    have scan := onlyPending.scan (after.trans (after'.trans later))
      (earlier.trans (before'.trans before)) sight
    have rows : start.db.txs.Perm seen.txs := scan.rows .txs
    rw [orderByDesc_eq_of_nodup (rows.filter _) distinct]
    have recorded : ∀ row ∈ TxEnumeration.page limit offset seen (.ofAddress address),
        Recorded calls row.toDbTxBase := by
      intro row mem
      have inTable := mem_orderByDesc.mp (List.mem_of_mem_drop (List.mem_of_mem_take mem))
      exact recorded_tx listed ((sight.rows .txs).symm.subset (List.mem_of_mem_filter inTable))
    refine ((List.forall₂_and_left _ _).mpr ⟨recorded, each⟩).imp ?_
    rintro row shown ⟨recorded, _, _, -, -, found⟩
    exact payer_of_found regular alike recorded found
  rw [feesPaid_of_payers (walks.forall₂_drop pages), List.drop_zero, stxTotalFees, getD_sumColumn]
  rw [(((orderByDesc_perm _ _).filter _).map _).sum_eq, List.filter_filter]
  apply congrArg List.sum
  apply congrArg (List.map _)
  apply List.filter_congr
  intro row _
  by_cases isSender : row.senderAddress = address <;> simp [isAddressTx, isSender]

theorem ne_empty_of_isValidPrincipal (valid : (isValidPrincipal addresses address).isSome) :
    address ≠ "" := by
  rintro rfl
  cases valid

/-- The balances that are answered are those of tables which have been committed meanwhile. -/
theorem balances_of_ends {localeCompare : String → String → Int}
    {balances : AddressBalanceResponse}
    (ends : Ends Moment.Sees start (getAddressBalances addresses localeCompare address) last
      (.ok (.ok balances))) :
    address ≠ "" ∧ ∃ (transfers fees ft nft : Db),
      (∀ seen ∈ [transfers, fees, ft, nft], ∃ moment, start ≤ moment ∧ moment ≤ last ∧
        moment.Sees seen) ∧
      balances = {
        stx := formatBalance
          (stxBalance (stxTransferTotals transfers address) (stxTotalFees fees address))
        fungibleTokens :=
          formatMapToObject (getFungibleTokenBalances localeCompare ft address) formatBalance
        nonFungibleTokens :=
          formatMapToObject (getNonFungibleTokenCounts localeCompare nft address)
            formatCount } := by
  rw [getAddressBalances, answerAddress] at ends
  split at ends
  · obtain ⟨-, ⟨⟩⟩ := ends_pure_iff.mp ends
  · next valid =>
    obtain ⟨answer, middle, answered, ends⟩ := ends_bind_ok_iff.mp ends
    obtain ⟨rfl, ⟨⟩⟩ := ends_pure_iff.mp ends
    obtain ⟨stx, atStx, stxEnds, answered⟩ := ends_bind_ok_iff.mp answered
    obtain ⟨totals, atTransfers, transfers, order₁, sight₁, ⟨⟩, stxEnds⟩ :=
      ends_ask_bind_iff.mp stxEnds
    obtain ⟨totalFees, atFees, fees, order₂, sight₂, ⟨⟩, stxEnds⟩ := ends_ask_bind_iff.mp stxEnds
    obtain ⟨rfl, ⟨⟩⟩ := ends_pure_iff.mp stxEnds
    obtain ⟨ftBalances, atFt, ft, order₃, sight₃, ⟨⟩, answered⟩ := ends_ask_bind_iff.mp answered
    obtain ⟨nftBalances, atNft, nft, order₄, sight₄, ⟨⟩, answered⟩ := ends_ask_bind_iff.mp answered
    obtain ⟨rfl, ⟨⟩⟩ := ends_pure_iff.mp answered
    refine ⟨?_, transfers, fees, ft, nft, ?_, rfl⟩
    · apply @ne_empty_of_isValidPrincipal addresses
      rw [Option.isSome_iff_ne_none]
      intro none
      rw [none] at valid
      exact valid rfl
    · simp only [List.forall_mem_cons]
      refine ⟨⟨_, order₁, ?_, sight₁⟩, ⟨_, order₁.trans order₂, ?_, sight₂⟩,
        ⟨_, (order₁.trans order₂).trans order₃, order₄, sight₃⟩,
        ⟨_, ((order₁.trans order₂).trans order₃).trans order₄, le_rfl, sight₄⟩,
        List.forall_mem_nil _⟩
      · exact (order₂.trans order₃).trans order₄
      · exact order₃.trans order₄

/-- As long as no block comes, the balances of an address are what a client that walks through
the events and the transactions of the address adds up. -/
theorem balances_addUp (regular : RegularCalls calls) (wired : WiredCalls calls)
    (positioned : ∀ data ∈ updatesOf calls, data.Positioned) (alike : PaidAlike calls)
    (onlyPending : OnlyPending start last)
    {assetsFirst assetsLast txsFirst txsLast balancesFirst balancesLast : Moment calls}
    (assetsAfter : start ≤ assetsFirst) (assetsBefore : assetsLast ≤ last)
    (txsAfter : start ≤ txsFirst) (txsBefore : txsLast ≤ last)
    (balancesAfter : start ≤ balancesFirst) (balancesBefore : balancesLast ≤ last)
    {assetLimit txLimit : Nat} {events : List TransactionEvent} {txs : List Transaction}
    (assetWalk : WalksPages Moment.Sees (assetResults clarity address assetLimit) assetLimit
      assetsFirst 0 assetsLast events)
    (txWalk : WalksPages Moment.Sees (txResults clarity addresses abis (.ofAddress address) txLimit)
      txLimit txsFirst 0 txsLast txs)
    {localeCompare : String → String → Int} {balances : AddressBalanceResponse}
    (answered : Ends Moment.Sees balancesFirst
      (getAddressBalances addresses localeCompare address) balancesLast (.ok (.ok balances))) :
    AddsUp address events txs balances := by
  have shows := showsMovements_of_walk wired positioned onlyPending assetsAfter assetsBefore
    assetWalk
  have paid := feesPaid_of_walk regular wired positioned alike onlyPending txsAfter txsBefore txWalk
  obtain ⟨nonempty, transfers, fees, ft, nft, moments, rfl⟩ := balances_of_ends answered
  have scans : ∀ seen ∈ [transfers, fees, ft, nft],
      Scan start.db { seen with mempoolTxs := start.db.mempoolTxs } := by
    intro seen mem
    obtain ⟨moment, after, before, sight⟩ := moments seen mem
    exact onlyPending.scan (balancesAfter.trans after) (before.trans balancesBefore) sight
  simp only [List.forall_mem_cons, List.not_mem_nil, false_implies, implies_true, and_true] at scans
  obtain ⟨transfersScan, feesScan, ftScan, nftScan⟩ := scans
  have stxShown := (shows.of_scan transfersScan).stx
  have received : (stxTransferTotals transfers address).2 =
      receivedOf address (movementsOf .stx events) := by
    rw [receivedOf_eq_of_perm stxShown, receivedOf_rowMovements nonempty, stxTransferTotals_eq]
    rfl
  have sent : (stxTransferTotals transfers address).1 =
      sentOf address (movementsOf .stx events) := by
    rw [sentOf_eq_of_perm stxShown, sentOf_rowMovements nonempty, stxTransferTotals_eq]
    rfl
  have fee : stxTotalFees fees address = feesPaid address txs :=
    (sumColumn_eq_of_perm ((feesScan.rows .txs).filter _)).symm.trans paid.symm
  have ftAddUp := tokensAddUp_of_entriesOf nonempty
    (entriesOf_getFungibleTokenBalances localeCompare ft address) (shows.of_scan ftScan).fungible
  have nftAddUp := tokensAddUp_of_entriesOf nonempty
    (entriesOf_getNonFungibleTokenCounts localeCompare nft address)
    (shows.of_scan nftScan).nonFungible
  have keys : ∀ {α β : Type} (map : List (String × α)) (formatter : α → β),
      (formatMapToObject map formatter).map Prod.fst = map.map Prod.fst :=
    fun map formatter => List.map_map
  constructor
  · rw [stxBalance, received, sent, fee]
  · exact (keys _ _).symm ▸ ftAddUp.nodup
  · exact (keys _ _).symm ▸ ftAddUp.named
  · intro assetId shown mem
    obtain ⟨entry, entryMem, same⟩ := List.mem_map.mp mem
    cases same
    rw [← ftAddUp.net entry entryMem, ← ftAddUp.sent entry entryMem,
      ← ftAddUp.received entry entryMem]
  · exact (keys _ _).symm ▸ nftAddUp.nodup
  · exact (keys _ _).symm ▸ nftAddUp.named
  · intro assetId shown mem
    obtain ⟨entry, entryMem, same⟩ := List.mem_map.mp mem
    cases same
    rw [← nftAddUp.net entry entryMem, ← nftAddUp.sent entry entryMem,
      ← nftAddUp.received entry entryMem]

end Statement

/-! ## An account -/

/-- The holder of the account. -/
def holder : String :=
  "ST000000000000000000002AMW42H"

/-- Assets of each kind are minted for the holder. -/
def mintedEntry : TxEntry :=
  { coinbaseEntry "0x11" 1 with
    stxEvents := (coinbaseEntry "0x11" 1).stxEvents.map fun event =>
      { event with recipient := some holder }
    ftEvents := (coinbaseEntry "0x11" 1).ftEvents.map fun event =>
      { event with recipient := some holder }
    nftEvents := (coinbaseEntry "0x11" 1).nftEvents.map fun event =>
      { event with recipient := some holder } }

/-- The holder pays 100 micro-STX, and 7 for the transfer. -/
def paidEntry : TxEntry :=
  { transferEntry "0x21" 2 with
    tx := { (transferEntry "0x21" 2).tx with senderAddress := holder }
    stxEvents := (transferEntry "0x21" 2).stxEvents.map fun event =>
      { event with sender := some holder } }

/-- The block that mints. -/
def mintedBlock : DataStoreUpdateData :=
  { emptyBlock "0x11" "0x00" 1 with txs := [mintedEntry] }

/-- The block in which the holder pays. -/
def spentBlock : DataStoreUpdateData :=
  { emptyBlock "0x21" "0x11" 2 with txs := [paidEntry] }

/-- Another transfer of the holder, which no block has. -/
def pendingPayment : DbMempoolTx String :=
  { toDbTxBase := { paidEntry.tx.toDbTxBase with txId := "0x0c", status := .pending }
    receiptTime := 1594647997 }

/-- Both blocks, and the pending transfer. -/
def accountCalls : List StoreCall :=
  [.update mintedBlock, .update spentBlock, .updateMempoolTx pendingPayment]

theorem mintedBlock_attributed : mintedBlock.Attributed where
  carries entry mem := by
    rw [List.mem_singleton.mp mem]
    have carries := coinbaseEntry_carries "0x11" 1
    refine { carries with stxEvents := ?_, ftEvents := ?_, nftEvents := ?_ }
    · intro event eventMem
      rw [List.mem_singleton.mp eventMem]
    · intro event eventMem
      rw [List.mem_singleton.mp eventMem]
    · intro event eventMem
      rw [List.mem_singleton.mp eventMem]
  blockHeight entry mem := by
    rw [List.mem_singleton.mp mem]
    rfl

theorem spentBlock_attributed : spentBlock.Attributed where
  carries entry mem := by
    rw [List.mem_singleton.mp mem]
    refine { transferEntry_carries "0x21" 2 with indexBlockHash := rfl, tx := rfl, stxEvents := ?_ }
    intro event eventMem
    rw [List.mem_singleton.mp eventMem]
  blockHeight entry mem := by
    rw [List.mem_singleton.mp mem]
    rfl

theorem mem_updatesOf_accountCalls {data : DataStoreUpdateData}
    (mem : data ∈ updatesOf accountCalls) : data = mintedBlock ∨ data = spentBlock := by
  simpa [accountCalls, updatesOf] using mem

theorem accountCalls_regular : RegularCalls accountCalls where
  consistent := consistent_of_checked (by decide) (by decide)
  attributed data mem := by
    rcases mem_updatesOf_accountCalls mem with rfl | rfl
    · exact mintedBlock_attributed
    · exact spentBlock_attributed

theorem accountCalls_wired : WiredCalls accountCalls := by
  intro data mem
  rcases mem_updatesOf_accountCalls mem with rfl | rfl
  · exact ⟨rfl, mintedBlock_attributed.carries⟩
  · exact ⟨rfl, spentBlock_attributed.carries⟩

theorem accountCalls_positioned : ∀ data ∈ updatesOf accountCalls, data.Positioned := by
  intro data mem
  rcases mem_updatesOf_accountCalls mem with rfl | rfl
  · exact ⟨by decide, by decide, by decide, by decide⟩
  · exact ⟨by decide, by decide, by decide, by decide⟩

theorem accountCalls_paidAlike : PaidAlike accountCalls := by
  unfold PaidAlike
  decide +kernel

/-- The moments before and after the pending transaction. -/
def accountMoment (count : Nat) : Moment accountCalls where
  past := accountCalls.take count
  isPrefix := List.take_prefix count _

theorem accountCalls_onlyPending : OnlyPending (accountMoment 2) (accountMoment 3) :=
  rfl

/-- The walks begin before the pending transfer comes, which is not counted. -/
theorem balances_addUp_account :
    ∃ events txs balances,
      WalksPages Moment.Sees (assetResults ClarityLibrary.booleans holder 2) 2 (accountMoment 2) 0
        (accountMoment 3) events ∧
      WalksPages Moment.Sees (txResults ClarityLibrary.booleans AddressLibrary.zeroHash
        AbiLibrary.null (.ofAddress holder) 20) 20 (accountMoment 3) 0 (accountMoment 3) txs ∧
      (getAddressBalances AddressLibrary.zeroHash (fun _ _ => 0) holder).alone
        (accountMoment 3).db = .ok (.ok balances) ∧
      AddsUp holder events txs balances ∧ balances.stx.balance = "893" := by
  have order : accountMoment 2 ≤ accountMoment 3 := List.take_prefix_take_left (by decide)
  have assets : ∀ count offset length,
      ((assetResults ClarityLibrary.booleans holder 2 offset).alone (accountMoment count).db).map
          List.length = .ok length →
        ∃ page, page.length = length ∧ Ends Moment.Sees (accountMoment count)
          (assetResults ClarityLibrary.booleans holder 2 offset) (accountMoment count)
          (.ok page) := by
    intro count offset length same
    obtain ⟨page, answer, same⟩ := Except.map_eq_ok.mp same
    exact ⟨page, same, answer ▸ ends_alone (Moment.sees_self _) _⟩
  obtain ⟨first, firstLength, firstEnds⟩ := assets 2 0 2 (by decide +kernel)
  obtain ⟨second, secondLength, secondEnds⟩ := assets 3 2 2 (by decide +kernel)
  obtain ⟨third, thirdLength, thirdEnds⟩ := assets 3 4 0 (by decide +kernel)
  have assetWalk : WalksPages Moment.Sees (assetResults ClarityLibrary.booleans holder 2) 2
      (accountMoment 2) 0 (accountMoment 3) (first ++ (second ++ third)) := by
    refine .full firstEnds firstLength.ge order (.full secondEnds secondLength.ge le_rfl ?_)
    exact .short thirdEnds (thirdLength.trans_lt (by decide))
  have listed : ((txResults ClarityLibrary.booleans AddressLibrary.zeroHash AbiLibrary.null
      (.ofAddress holder) 20 0).alone (accountMoment 3).db).map List.length = .ok 1 := by
    decide +kernel
  obtain ⟨txs, answer, length⟩ := Except.map_eq_ok.mp listed
  have txWalk : WalksPages Moment.Sees (txResults ClarityLibrary.booleans AddressLibrary.zeroHash
      AbiLibrary.null (.ofAddress holder) 20) 20 (accountMoment 3) 0 (accountMoment 3) txs :=
    .short (answer ▸ ends_alone (Moment.sees_self _) _) (length.trans_lt (by decide))
  have read : ((getAddressBalances AddressLibrary.zeroHash (fun _ _ => 0) holder).alone
      (accountMoment 3).db).map (fun
        | .ok balances => some balances.stx.balance
        | _ => none) = .ok (some "893") := by
    decide +kernel
  obtain ⟨response, answered, stx⟩ := Except.map_eq_ok.mp read
  cases response with
  | ok balances =>
      refine ⟨_, txs, balances, assetWalk, txWalk, answered, ?_, Option.some.inj stx⟩
      exact balances_addUp accountCalls_regular accountCalls_wired accountCalls_positioned
        accountCalls_paidAlike accountCalls_onlyPending le_rfl le_rfl order le_rfl order le_rfl
        assetWalk txWalk (answered ▸ ends_alone (Moment.sees_self _) _)
  | badRequest | notFound | redirect => cases stx

end StacksApi.Routes
