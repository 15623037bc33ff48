import StacksApi.Datastore.Balance
import StacksApi.Relational.Ledger

/-!
# Conservation of amounts

The tables of canonical asset events are ledgers: a transfer names both parties, a
mint only a recipient and a burn only a sender.  The balances of all addresses are
what was minted less what was burned, and for STX less the fees.
-/

namespace StacksApi.Datastore

open StacksApi.Binary
open StacksApi.Relational

/-! ## Events as ledger rows -/

/-- The parties that an event of its kind names. -/
def DbAssetEvent.NamesParties {ι : Type} (event : DbAssetEvent ι) : Prop :=
  match event.assetEventTypeId with
  | .transfer => event.sender.isSome ∧ event.recipient.isSome
  | .mint => event.sender = none ∧ event.recipient.isSome
  | .burn => event.sender.isSome ∧ event.recipient = none

/-- Mints are the events without a sender and burns those without a recipient. -/
theorem DbAssetEvent.NamesParties.kinds {ι : Type} {event : DbAssetEvent ι}
    (named : event.NamesParties) :
    (event.sender.isNone && event.recipient.isSome) = decide (event.assetEventTypeId = .mint) ∧
      (event.sender.isSome && event.recipient.isNone) =
        decide (event.assetEventTypeId = .burn) := by
  rw [NamesParties.eq_def] at named
  cases kind : event.assetEventTypeId with
  | transfer =>
      rw [kind] at named
      obtain ⟨sender, recipient⟩ := named
      simp [Option.isNone_eq_false_iff.mpr sender, Option.isNone_eq_false_iff.mpr recipient]
  | mint =>
      rw [kind] at named
      obtain ⟨sender, recipient⟩ := named
      simp [sender, recipient]
  | burn =>
      rw [kind] at named
      obtain ⟨sender, recipient⟩ := named
      simp [sender, recipient]

section Ledger

variable {α : Type} (event : α → DbAssetEvent Buffer) (amount : α → Int) (rows : List α)

/-- The amounts of the rows with events of a kind. -/
def sumOfKind (kind : DbAssetEventTypeId) : Int :=
  ((rows.filter fun row => (event row).assetEventTypeId = kind).map amount).sum

/-- What an address received in the rows, less what it sent. -/
def netReceived (address : String) : Int :=
  partySum (fun row => (event row).recipient) amount rows address -
    partySum (fun row => (event row).sender) amount rows address

/-- The addresses hold the party of every row. -/
def CoversParties (addresses : Finset String) : Prop :=
  ∀ row ∈ rows, ∀ address, (event row).sender = some address ∨
    (event row).recipient = some address → address ∈ addresses

variable {event amount rows}

theorem sum_netReceived (named : ∀ row ∈ rows, (event row).NamesParties)
    {addresses : Finset String} (covers : CoversParties event rows addresses) :
    ∑ address ∈ addresses, netReceived event amount rows address =
      sumOfKind event amount rows .mint - sumOfKind event amount rows .burn := by
  have minted : issued (fun row => (event row).sender) (fun row => (event row).recipient) amount
      rows = sumOfKind event amount rows .mint := by
    apply sum_filter_congr
    intro row mem
    rw [(named row mem).kinds.1]
  have burned : retired (fun row => (event row).sender) (fun row => (event row).recipient) amount
      rows = sumOfKind event amount rows .burn := by
    apply sum_filter_congr
    intro row mem
    rw [(named row mem).kinds.2]
  rw [← minted, ← burned]
  apply sum_balances
  · exact fun row mem address isSender => covers row mem address (Or.inl isSender)
  · exact fun row mem address isRecipient => covers row mem address (Or.inr isRecipient)

end Ledger

/-! ## STX -/

/-- The STX events that count. -/
def canonicalStxEvents (db : Db) : List (InBlock (DbStxEvent Buffer)) :=
  db.stxEvents.filter fun row => row.entity.canonical

/-- The transactions that count. -/
def canonicalTxs (db : Db) : List (DbTx Buffer) :=
  db.txs.filter fun row => row.canonical

theorem balance_eq_netReceived (db : Db) (address : String) :
    (getStxBalance db address).balance =
      netReceived (fun row => row.entity.toDbAssetEvent) (fun row => row.entity.amount)
          (canonicalStxEvents db) address -
        partySum (fun row => some row.senderAddress) (fun row => row.feeRate) (canonicalTxs db)
          address := by
  rw [balance_getStxBalance, netReceived, partySum, partySum, partySum, canonicalStxEvents,
    canonicalTxs, receivedSum, sentSum, feeSum]
  simp only [List.filter_filter, Option.some.injEq, Bool.and_comm]

/-- The balances of all addresses are what was minted less what was burned and paid
as fees. -/
theorem sum_getStxBalance {db : Db} {addresses : Finset String}
    (named : ∀ row ∈ canonicalStxEvents db, row.entity.NamesParties)
    (covers : CoversParties (fun row => row.entity.toDbAssetEvent) (canonicalStxEvents db)
      addresses)
    (coversSenders : ∀ row ∈ canonicalTxs db, row.senderAddress ∈ addresses) :
    ∑ address ∈ addresses, (getStxBalance db address).balance =
      sumOfKind (fun row => row.entity.toDbAssetEvent) (fun row => row.entity.amount)
            (canonicalStxEvents db) .mint -
          sumOfKind (fun row => row.entity.toDbAssetEvent) (fun row => row.entity.amount)
            (canonicalStxEvents db) .burn -
        ((canonicalTxs db).map fun row => row.feeRate).sum := by
  simp only [balance_eq_netReceived, Finset.sum_sub_distrib]
  rw [sum_netReceived named covers, sum_partySum]
  · simp
  · rintro row mem address ⟨⟩
    exact coversSenders row mem

/-! ## Assets of contracts -/

section Assets

variable {α : Type} (event : α → DbContractAssetEvent Buffer) (amount : α → Int) (rows : List α)

/-- The canonical events of an asset. -/
def assetRows (asset : String) : List α :=
  rows.filter fun row => (event row).canonical && decide ((event row).assetIdentifier = asset)

/-- The rows of the queries for balances of tokens, before they are sorted. -/
def joinedTotals (address : String) : List (String × Option Int × Option Int) :=
  let transfers := rows.filter fun row => (event row).canonical &&
    ((event row).sender = some address || (event row).recipient = some address)
  fullJoin
    (groupSum (fun row => (event row).assetIdentifier) amount
      (transfers.filter fun row => (event row).recipient = some address))
    (groupSum (fun row => (event row).assetIdentifier) amount
      (transfers.filter fun row => (event row).sender = some address))

theorem nodup_joinedTotals (address : String) :
    ((joinedTotals event amount rows address).map Prod.fst).Nodup :=
  nodup_fullJoin (nodup_groupSum _ _ _) (nodup_groupSum _ _ _)

variable {event amount rows}

/-- There is a row for exactly the assets with a canonical event that names the address. -/
theorem mem_keys_joinedTotals {address asset : String} :
    asset ∈ (joinedTotals event amount rows address).map Prod.fst ↔
      ∃ row ∈ assetRows event rows asset,
        (event row).sender = some address ∨ (event row).recipient = some address := by
  rw [joinedTotals, mem_keys_fullJoin, map_fst_groupSum, map_fst_groupSum]
  simp only [List.mem_dedup, List.mem_map, List.mem_filter, assetRows, Bool.and_eq_true,
    Bool.or_eq_true, decide_eq_true_eq]
  constructor
  · rintro (⟨row, ⟨⟨mem, canonical, -⟩, isRecipient⟩, same⟩ |
      ⟨row, ⟨⟨mem, canonical, -⟩, isSender⟩, same⟩)
    · exact ⟨row, ⟨mem, canonical, same⟩, Or.inr isRecipient⟩
    · exact ⟨row, ⟨mem, canonical, same⟩, Or.inl isSender⟩
  · rintro ⟨row, ⟨mem, canonical, same⟩, isSender | isRecipient⟩
    · exact Or.inr ⟨row, ⟨⟨mem, canonical, Or.inl isSender⟩, isSender⟩, same⟩
    · exact Or.inl ⟨row, ⟨⟨mem, canonical, Or.inr isRecipient⟩, isRecipient⟩, same⟩

/-- The totals of an asset are those of its canonical events, null counting as zero. -/
theorem totals_of_mem_joinedTotals {address asset : String} {credit debit : Option Int}
    (mem : (asset, credit, debit) ∈ joinedTotals event amount rows address) :
    credit.getD 0 =
        partySum (fun row => (event row).recipient) amount (assetRows event rows asset) address ∧
      debit.getD 0 =
        partySum (fun row => (event row).sender) amount (assetRows event rows asset) address := by
  obtain ⟨creditOk, debitOk⟩ :=
    totals_of_mem_fullJoin (nodup_groupSum _ _ _) (nodup_groupSum _ _ _) mem
  rw [creditOk, debitOk, lookup_groupSum, lookup_groupSum, getD_sumColumn, getD_sumColumn,
    partySum, partySum, assetRows]
  simp only [List.filter_filter]
  constructor
  · apply sum_filter_congr
    intro row _
    by_cases isRecipient : (event row).recipient = some address <;> simp [isRecipient, and_comm]
  · apply sum_filter_congr
    intro row _
    by_cases isSender : (event row).sender = some address <;> simp [isSender, and_comm]

/-- The entries of an address are those of the assets of its canonical events, with
what it received, what it sent and the difference. -/
structure EntriesOf {β : Type} (event : α → DbContractAssetEvent Buffer) (amount : α → Int)
    (rows : List α) (address : String) (net sent received : β → Int)
    (entries : List (String × β)) : Prop where
  nodup : (entries.map Prod.fst).Nodup
  named : ∀ asset, asset ∈ entries.map Prod.fst ↔ ∃ row ∈ assetRows event rows asset,
    (event row).sender = some address ∨ (event row).recipient = some address
  net : ∀ entry ∈ entries, net entry.2 = received entry.2 - sent entry.2
  sent : ∀ entry ∈ entries, sent entry.2 =
    partySum (fun row => (event row).sender) amount (assetRows event rows entry.1) address
  received : ∀ entry ∈ entries, received entry.2 =
    partySum (fun row => (event row).recipient) amount (assetRows event rows entry.1) address

/-- Sorting the rows of the query and naming their totals gives such entries. -/
theorem entriesOf_joinedTotals {β : Type} (address : String)
    (order : String × Option Int × Option Int → String × Option Int × Option Int → Prop)
    [DecidableRel order] (entry : Option Int → Option Int → β) {net sent received : β → Int}
    (netOk : ∀ credit debit, net (entry credit debit) = credit.getD 0 - debit.getD 0)
    (sentOk : ∀ credit debit, sent (entry credit debit) = debit.getD 0)
    (receivedOk : ∀ credit debit, received (entry credit debit) = credit.getD 0) :
    EntriesOf event amount rows address net sent received
      (((joinedTotals event amount rows address).insertionSort order).map fun row =>
        (row.1, entry row.2.1 row.2.2)) := by
  have sorted := List.perm_insertionSort order (joinedTotals event amount rows address)
  have keys : ((((joinedTotals event amount rows address).insertionSort order).map fun row =>
      (row.1, entry row.2.1 row.2.2)).map Prod.fst).Perm
        ((joinedTotals event amount rows address).map Prod.fst) := by
    rw [List.map_map]
    exact sorted.map Prod.fst
  constructor
  · exact keys.nodup_iff.mpr (nodup_joinedTotals event amount rows address)
  · exact fun asset => keys.mem_iff.trans mem_keys_joinedTotals
  · intro item mem
    obtain ⟨⟨asset, credit, debit⟩, -, rfl⟩ := List.mem_map.mp mem
    rw [netOk, sentOk, receivedOk]
  · intro item mem
    obtain ⟨⟨asset, credit, debit⟩, rowMem, rfl⟩ := List.mem_map.mp mem
    rw [sentOk]
    exact (totals_of_mem_joinedTotals (sorted.mem_iff.mp rowMem)).2
  · intro item mem
    obtain ⟨⟨asset, credit, debit⟩, rowMem, rfl⟩ := List.mem_map.mp mem
    rw [receivedOk]
    exact (totals_of_mem_joinedTotals (sorted.mem_iff.mp rowMem)).1

/-- The number under a key of a map, zero where there is no entry. -/
def valueAt {β : Type} (value : β → Int) (entries : List (String × β)) (asset : String) : Int :=
  ((entries.lookup asset).map value).getD 0

theorem partySum_eq_zero {party : α → Option String} {address : String}
    (unnamed : ∀ row ∈ rows, party row ≠ some address) :
    partySum party amount rows address = 0 := by
  rw [partySum, List.filter_eq_nil_iff.mpr]
  · rfl
  · exact fun row mem isParty => unnamed row mem (of_decide_eq_true isParty)

theorem EntriesOf.valueAt {β : Type} {address : String} {net sent received : β → Int}
    {entries : List (String × β)}
    (entriesOf : EntriesOf event amount rows address net sent received entries) (asset : String) :
    valueAt net entries asset = netReceived (fun row => (event row).toDbAssetEvent) amount
      (assetRows event rows asset) address := by
  by_cases found : asset ∈ entries.map Prod.fst
  · obtain ⟨⟨key, value⟩, mem, rfl⟩ := List.mem_map.mp found
    rw [Datastore.valueAt, lookup_of_mem entriesOf.nodup mem, netReceived]
    rw [← entriesOf.sent _ mem, ← entriesOf.received _ mem, ← entriesOf.net _ mem]
    rfl
  · have absent : entries.lookup asset = none := by
      rw [List.lookup_eq_none_iff]
      intro entry mem
      exact bne_iff_ne.mpr fun same => found (same ▸ List.mem_map_of_mem mem)
    have unnamed := mt (entriesOf.named asset).mpr found
    rw [Datastore.valueAt, absent, netReceived, partySum_eq_zero, partySum_eq_zero]
    · rfl
    · exact fun row mem isSender => unnamed ⟨row, mem, Or.inl isSender⟩
    · exact fun row mem isRecipient => unnamed ⟨row, mem, Or.inr isRecipient⟩

end Assets

theorem entriesOf_getFungibleTokenBalances (localeCompare : String → String → Int) (db : Db)
    (address : String) :
    EntriesOf (fun row => row.entity.toDbContractAssetEvent) (fun row => row.entity.amount)
      db.ftEvents address TokenBalance.balance TokenBalance.totalSent TokenBalance.totalReceived
      (getFungibleTokenBalances localeCompare db address) :=
  entriesOf_joinedTotals address (fun r1 r2 => localeCompare r1.1 r2.1 ≤ 0)
    (fun credit debit => TokenBalance.mk (credit.getD 0 - debit.getD 0) (debit.getD 0)
      (credit.getD 0)) (fun _ _ => rfl) (fun _ _ => rfl) (fun _ _ => rfl)

theorem entriesOf_getNonFungibleTokenCounts (localeCompare : String → String → Int) (db : Db)
    (address : String) :
    EntriesOf (fun row => row.entity.toDbContractAssetEvent) (fun _ => 1) db.nftEvents address
      TokenCount.count TokenCount.totalSent TokenCount.totalReceived
      (getNonFungibleTokenCounts localeCompare db address) := by
  simp only [getNonFungibleTokenCounts, groupCount_eq_groupSum]
  exact entriesOf_joinedTotals address (fun r1 r2 => localeCompare r1.1 r2.1 ≤ 0)
    (fun credit debit => TokenCount.mk (credit.getD 0 - debit.getD 0) (debit.getD 0)
      (credit.getD 0)) (fun _ _ => rfl) (fun _ _ => rfl) (fun _ _ => rfl)

/-! ## All addresses -/

/-- The events of the tables name the parties of their kinds. -/
structure PartiesNamed (db : Db) : Prop where
  stx : ∀ row ∈ db.stxEvents, row.entity.NamesParties
  ft : ∀ row ∈ db.ftEvents, row.entity.NamesParties
  nft : ∀ row ∈ db.nftEvents, row.entity.NamesParties

/-- The addresses that an event names. -/
def DbAssetEvent.parties {ι : Type} (event : DbAssetEvent ι) : List String :=
  event.sender.toList ++ event.recipient.toList

/-- The addresses that occur in canonical rows. -/
def canonicalAddresses (db : Db) : Finset String :=
  (((canonicalStxEvents db).flatMap fun row => row.entity.parties) ++
    ((db.ftEvents.filter fun row => row.entity.canonical).flatMap fun row => row.entity.parties) ++
    ((db.nftEvents.filter fun row => row.entity.canonical).flatMap fun row => row.entity.parties) ++
    (canonicalTxs db).map fun row => row.senderAddress).toFinset

/-- The STX of canonical events of a kind. -/
def stxOfKind (db : Db) (kind : DbAssetEventTypeId) : Int :=
  sumOfKind (fun row => row.entity.toDbAssetEvent) (fun row => row.entity.amount)
    (canonicalStxEvents db) kind

/-- What the canonical events of one type amount to for a fungible token. -/
def ftOfKind (db : Db) (asset : String) (kind : DbAssetEventTypeId) : Int :=
  sumOfKind (fun row => row.entity.toDbAssetEvent) (fun row => row.entity.amount)
    (assetRows (fun row => row.entity.toDbContractAssetEvent) db.ftEvents asset) kind

/-- The number of canonical events of a kind for a non-fungible asset. -/
def nftOfKind (db : Db) (asset : String) (kind : DbAssetEventTypeId) : Nat :=
  (assetRows (fun row => row.entity.toDbContractAssetEvent) db.nftEvents asset).countP fun row =>
    row.entity.assetEventTypeId = kind

theorem sumOfKind_one {α : Type} (event : α → DbAssetEvent Buffer) (rows : List α)
    (kind : DbAssetEventTypeId) :
    sumOfKind event (fun _ => 1) rows kind =
      rows.countP fun row => (event row).assetEventTypeId = kind := by
  rw [sumOfKind, List.map_const', List.sum_replicate, List.countP_eq_length_filter, nsmul_one]

/-- The amounts of the addresses are what came into being less what is gone, and the
entries of an address are those of its assets. -/
structure AmountsConserved (localeCompare : String → String → Int) (db : Db)
    (addresses : Finset String) : Prop where
  stx : ∑ address ∈ addresses, (getStxBalance db address).balance =
    stxOfKind db .mint - stxOfKind db .burn - ((canonicalTxs db).map fun row => row.feeRate).sum
  ft : ∀ asset, ∑ address ∈ addresses, valueAt TokenBalance.balance
      (getFungibleTokenBalances localeCompare db address) asset =
    ftOfKind db asset .mint - ftOfKind db asset .burn
  nft : ∀ asset, ∑ address ∈ addresses, valueAt TokenCount.count
      (getNonFungibleTokenCounts localeCompare db address) asset =
    nftOfKind db asset .mint - nftOfKind db asset .burn
  ftEntries : ∀ address, EntriesOf (fun row => row.entity.toDbContractAssetEvent)
    (fun row => row.entity.amount) db.ftEvents address TokenBalance.balance TokenBalance.totalSent
    TokenBalance.totalReceived (getFungibleTokenBalances localeCompare db address)
  nftEntries : ∀ address, EntriesOf (fun row => row.entity.toDbContractAssetEvent)
    (fun _ => 1) db.nftEvents address TokenCount.count TokenCount.totalSent
    TokenCount.totalReceived (getNonFungibleTokenCounts localeCompare db address)

theorem mem_parties {ι : Type} {event : DbAssetEvent ι} {address : String}
    (isParty : event.sender = some address ∨ event.recipient = some address) :
    address ∈ event.parties := by
  rw [DbAssetEvent.parties, List.mem_append, Option.mem_toList, Option.mem_toList]
  exact isParty

theorem PartiesNamed.amountsConserved {db : Db} (named : PartiesNamed db)
    (localeCompare : String → String → Int) {addresses : Finset String}
    (covers : canonicalAddresses db ⊆ addresses) :
    AmountsConserved localeCompare db addresses := by
  have occurs : ∀ address, address ∈ canonicalAddresses db → address ∈ addresses :=
    fun address mem => covers mem
  simp only [canonicalAddresses, List.mem_toFinset, List.mem_append, List.mem_flatMap] at occurs
  constructor
  · apply sum_getStxBalance
    · exact fun row mem => named.stx row (List.mem_of_mem_filter mem)
    · intro row mem address isParty
      exact occurs address (Or.inl (Or.inl (Or.inl ⟨row, mem, mem_parties isParty⟩)))
    · exact fun row mem => occurs _ (Or.inr (List.mem_map_of_mem mem))
  · intro asset
    simp only [(entriesOf_getFungibleTokenBalances localeCompare db _).valueAt]
    apply sum_netReceived
    · exact fun row mem => named.ft row (List.mem_of_mem_filter mem)
    · intro row mem address isParty
      obtain ⟨rowMem, keeps⟩ := List.mem_filter.mp mem
      have canonical : row ∈ db.ftEvents.filter fun row => row.entity.canonical :=
        List.mem_filter.mpr ⟨rowMem, (Bool.and_eq_true_iff.mp keeps).1⟩
      exact occurs address (Or.inl (Or.inl (Or.inr ⟨row, canonical, mem_parties isParty⟩)))
  · intro asset
    simp only [(entriesOf_getNonFungibleTokenCounts localeCompare db _).valueAt]
    rw [nftOfKind, nftOfKind, ← sumOfKind_one, ← sumOfKind_one]
    apply sum_netReceived
    · exact fun row mem => named.nft row (List.mem_of_mem_filter mem)
    · intro row mem address isParty
      obtain ⟨rowMem, keeps⟩ := List.mem_filter.mp mem
      have canonical : row ∈ db.nftEvents.filter fun row => row.entity.canonical :=
        List.mem_filter.mpr ⟨rowMem, (Bool.and_eq_true_iff.mp keeps).1⟩
      exact occurs address (Or.inl (Or.inr ⟨row, canonical, mem_parties isParty⟩))
  · exact entriesOf_getFungibleTokenBalances localeCompare db
  · exact entriesOf_getNonFungibleTokenCounts localeCompare db

end StacksApi.Datastore
