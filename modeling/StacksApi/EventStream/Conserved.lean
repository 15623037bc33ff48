import StacksApi.Datastore.Conservation
import StacksApi.EventStream.EventOrder

/-!
# Conservation along runs

The events of messages name the parties of their kinds, and so do the rows that
they are stored as.  Hence amounts are conserved whatever messages arrive.
-/

namespace StacksApi.EventStream

open StacksApi.Binary
open StacksApi.Relational
open StacksApi.Datastore
open StacksApi.Transition

variable {CV : Type} {libraries : Libraries CV}

/-! ## Entries -/

/-- The event names the parties of its type, if it moves an asset. -/
def NamesParties : DbEvent → Prop
  | .stx event => event.NamesParties
  | .ft event => event.NamesParties
  | .nft event => event.NamesParties
  | .smartContractLog _ => True

/-- Each kind of event names the parties that it should. -/
theorem namesParties_describeEvent {base : DbEventBase String} {event : CoreNodeEvent}
    {dbEvent : DbEvent} (described : describeEvent base event = .ok dbEvent) :
    NamesParties dbEvent := by
  cases event with
  | contractEvent txid contractIdentifier topic rawValue =>
      obtain ⟨value, -, same⟩ := Except.bind_eq_ok.mp described
      cases same
      trivial
  | stxTransferEvent txid sender recipient amount =>
      obtain ⟨value, -, same⟩ := Except.bind_eq_ok.mp described
      cases same
      exact ⟨rfl, rfl⟩
  | stxMintEvent txid recipient amount =>
      obtain ⟨value, -, same⟩ := Except.bind_eq_ok.mp described
      cases same
      exact ⟨rfl, rfl⟩
  | stxBurnEvent txid sender amount =>
      obtain ⟨value, -, same⟩ := Except.bind_eq_ok.mp described
      cases same
      exact ⟨rfl, rfl⟩
  | ftTransferEvent txid assetIdentifier sender recipient amount =>
      obtain ⟨value, -, same⟩ := Except.bind_eq_ok.mp described
      cases same
      exact ⟨rfl, rfl⟩
  | ftMintEvent txid assetIdentifier recipient amount =>
      obtain ⟨value, -, same⟩ := Except.bind_eq_ok.mp described
      cases same
      exact ⟨rfl, rfl⟩
  | nftTransferEvent txid assetIdentifier sender recipient rawValue =>
      obtain ⟨value, -, same⟩ := Except.bind_eq_ok.mp described
      cases same
      exact ⟨rfl, rfl⟩
  | nftMintEvent txid assetIdentifier recipient rawValue =>
      obtain ⟨value, -, same⟩ := Except.bind_eq_ok.mp described
      cases same
      exact ⟨rfl, rfl⟩
  | unknown txid inspected => cases described

/-- The events of the entry name the parties of their kinds. -/
def EntryNamesParties (entry : TxEntry) : Prop :=
  ∀ event ∈ entry.events, NamesParties event

theorem EntryNamesParties.pushEvent {blockHeight : Nat} {entry entry' : TxEntry}
    {event : CoreNodeEvent} (named : EntryNamesParties entry)
    (pushed : pushEvent blockHeight entry event = .ok entry') : EntryNamesParties entry' := by
  rw [pushEvent_eq] at pushed
  obtain ⟨dbEvent, described, rfl⟩ := Except.map_eq_ok.mp pushed
  intro other mem
  rcases List.mem_append.mp ((events_pushDbEvent entry dbEvent).mem_iff.mp mem) with old | new
  · exact named other old
  · rw [List.mem_singleton.mp new]
    exact namesParties_describeEvent described

theorem entryNamesParties_of_noEvents {entry : TxEntry} (noEvents : NoEvents entry) :
    EntryNamesParties entry := by
  intro event mem
  rw [TxEntry.events, noEvents.stxEvents, noEvents.ftEvents, noEvents.nftEvents,
    noEvents.contractLogEvents] at mem
  cases mem

theorem EntryNamesParties.markNonCanonical {entry : TxEntry} (named : EntryNamesParties entry) :
    EntryNamesParties entry.markNonCanonical := by
  intro event mem
  rw [events_markNonCanonical] at mem
  obtain ⟨original, originalMem, rfl⟩ := List.mem_map.mp mem
  have holds := named original originalMem
  cases original <;> exact holds

/-- The entries of a message name the parties, also when its block is on a fork. -/
theorem entryNamesParties_settled {msg : CoreNodeMessage} {data : DataStoreUpdateData} (db : Db)
    (handed : messageData libraries msg = .ok data) :
    ∀ entry ∈ (data.settled db).txs, EntryNamesParties entry := by
  have all : ∀ entry ∈ data.txs, EntryNamesParties entry := by
    obtain ⟨parsed, parsedOk, handed⟩ := Except.bind_eq_ok.mp handed
    obtain ⟨entries, created, handed⟩ := Except.bind_eq_ok.mp handed
    obtain ⟨txs, added, same⟩ := Except.bind_eq_ok.mp handed
    cases same
    have before : ∀ entry ∈ entries, EntryNamesParties entry := by
      intro entry mem
      obtain ⟨source, -, createdEntry⟩ := mem_of_mapM_ok created mem
      exact entryNamesParties_of_noEvents (noEvents_createEntry createdEntry)
    have after := forall₂_foldlM_addEvent (R := fun _ entry => EntryNamesParties entry)
      (fun _ _ _ _ named pushed => named.pushEvent pushed)
      (List.forall₂_same.mpr before) added
    intro entry mem
    obtain ⟨-, -, named⟩ := exists_left_of_forall₂ after mem
    exact named
  intro entry mem
  rw [DataStoreUpdateData.settled] at mem
  split at mem
  · exact all entry mem
  · obtain ⟨original, originalMem, rfl⟩ := List.mem_map.mp mem
    exact (all original originalMem).markNonCanonical

/-! ## Rows -/

/-- The row of an asset event names the parties of its type. -/
def RowNamesParties : (table : EntityTable) → table.Row → Prop
  | .stxEvents, row => row.entity.NamesParties
  | .ftEvents, row => row.entity.NamesParties
  | .nftEvents, row => row.entity.NamesParties
  | .txs, _ => True
  | .contractLogs, _ => True
  | .smartContracts, _ => True

theorem partiesNamed_iff {db : Db} :
    PartiesNamed db ↔ ∀ table, ∀ row ∈ db.rows table, RowNamesParties table row := by
  constructor
  · intro named table row mem
    cases table with
    | stxEvents => exact named.stx row mem
    | ftEvents => exact named.ft row mem
    | nftEvents => exact named.nft row mem
    | txs => trivial
    | contractLogs => trivial
    | smartContracts => trivial
  · intro named
    exact ⟨named .stxEvents, named .ftEvents, named .nftEvents⟩

/-- The flag of a row says nothing about its parties. -/
theorem rowNamesParties_withFlag (table : EntityTable) (value : Bool) (row : table.Row) :
    RowNamesParties table (Flagged.withFlag value row) ↔ RowNamesParties table row := by
  cases table <;> exact Iff.rfl

theorem rowNamesParties_of_decoded {entry : TxEntry} {rows : EntryRows}
    (decoded : DecodedEntry entry rows) (named : EntryNamesParties entry) (table : EntityTable) :
    ∀ row ∈ rows.rows table, RowNamesParties table row := by
  simp only [EntryNamesParties, TxEntry.events, List.forall_mem_append,
    List.forall_mem_map] at named
  obtain ⟨⟨⟨stx, ft⟩, nft⟩, -⟩ := named
  intro row mem
  cases table with
  | stxEvents =>
      obtain ⟨event, eventMem, ok⟩ := mem_of_mapM_ok decoded.stxEvents mem
      obtain ⟨-, buffer, -, entity, -⟩ := inBlockRow_ok ok
      have holds := stx event eventMem
      rw [RowNamesParties, entity]
      exact holds
  | ftEvents =>
      obtain ⟨event, eventMem, ok⟩ := mem_of_mapM_ok decoded.ftEvents mem
      obtain ⟨-, buffer, -, entity, -⟩ := inBlockRow_ok ok
      have holds := ft event eventMem
      rw [RowNamesParties, entity]
      exact holds
  | nftEvents =>
      obtain ⟨event, eventMem, ok⟩ := mem_of_mapM_ok decoded.nftEvents mem
      obtain ⟨-, buffer, -, entity, -⟩ := inBlockRow_ok ok
      have holds := nft event eventMem
      rw [RowNamesParties, entity]
      exact holds
  | txs => trivial
  | contractLogs => trivial
  | smartContracts => trivial

section Step

variable {db reorged pruned db' : Db} {data : DataStoreUpdateData} {row : DbBlock Buffer}

theorem partiesNamed_update (named : PartiesNamed db)
    (accepted : Accepted db data reorged pruned row db')
    (entries : ∀ entry ∈ (data.settled db).txs, EntryNamesParties entry) : PartiesNamed db' := by
  rw [partiesNamed_iff] at named ⊢
  obtain ⟨counts, handled⟩ := accepted.reorg
  intro table entity mem
  rcases accepted.mem_reorged_or_entry table mem with old | ⟨entry, entryMem, rows, decoded, new⟩
  · obtain ⟨original, originalMem, same⟩ :=
      exists_of_raised_eq ((handleReorg_remarked handled).rows table) old
    rw [← rowNamesParties_withFlag table true, ← same, rowNamesParties_withFlag]
    exact named table original originalMem
  · exact rowNamesParties_of_decoded decoded (entries entry entryMem) table entity new

end Step

theorem runServer_partiesNamed (messages : List ServerMessage) :
    PartiesNamed (runServer libraries messages) := by
  have empty : PartiesNamed Db.empty := by
    constructor <;> exact fun _ mem => nomatch mem
  apply runServer_invariant (Q := fun _ _ => True) libraries empty
  · intro db message named _
    apply receive_invariant libraries named
    · intro msg _ data handed db' events ok
      obtain ⟨-, reorged, pruned, row, accepted⟩ := update_ok ok
      exact partiesNamed_update named accepted (entryNamesParties_settled db handed)
    · intro receiptDate rawTxs _ txs _ tx _ pool after events namedPool ok
      obtain ⟨mempoolTx, row, -, -, rfl | rfl⟩ := insertMempoolTx_ok libraries ok
      · exact namedPool
      · exact ⟨namedPool.stx, namedPool.ft, namedPool.nft⟩
  · exact fun _ _ _ => trivial

/-- After every run, the amounts of all addresses that occur in canonical rows are
what was minted less what was burned, for STX less the fees, and every address has an
entry for exactly its assets. -/
theorem runServer_amountsConserved (localeCompare : String → String → Int)
    (messages : List ServerMessage) {addresses : Finset String}
    (covers : canonicalAddresses (runServer libraries messages) ⊆ addresses) :
    AmountsConserved localeCompare (runServer libraries messages) addresses :=
  (runServer_partiesNamed messages).amountsConserved localeCompare covers

/-- Assets of each kind are minted, moved to another address and to the same one, and burned. -/
def movingBlock : CoreNodeMessage :=
  { sampleBlock with
    events :=
      [.stxMintEvent (bufferToHexPrefixString sampleTxId) "ST000000000000000000002AMW42H" "1000",
        .stxTransferEvent (bufferToHexPrefixString sampleTxId) "ST000000000000000000002AMW42H"
          "ST2" "100",
        .stxTransferEvent (bufferToHexPrefixString sampleTxId) "ST000000000000000000002AMW42H"
          "ST000000000000000000002AMW42H" "50",
        .stxBurnEvent (bufferToHexPrefixString sampleTxId) "ST2" "30",
        .ftMintEvent (bufferToHexPrefixString sampleTxId) "ST2.token::coin" "ST2" "5",
        .ftTransferEvent (bufferToHexPrefixString sampleTxId) "ST2.token::coin" "ST2" "ST3" "2",
        .nftMintEvent (bufferToHexPrefixString sampleTxId) "ST2.art::piece" "ST2" "0x03",
        .nftTransferEvent (bufferToHexPrefixString sampleTxId) "ST2.art::piece" "ST2" "ST3"
          "0x03"] }

/-- The sender of the transaction pays 180 micro-STX for it. -/
theorem exists_runServer_movingBlock :
    ∃ db, runServer sampleLibraries [.newBlock movingBlock] = db ∧
      canonicalAddresses db ⊆ {"ST000000000000000000002AMW42H", "ST2", "ST3"} ∧
      (getStxBalance db "ST000000000000000000002AMW42H").balance = 720 ∧
      (getStxBalance db "ST2").balance = 70 := by
  have parsed : parseMessageTransaction sampleLibraries movingBlock sampleCoreTx =
      .ok sampleParsed := by
    rw [parseMessageTransaction, txBuffer_sampleCoreTx, readBufferTransaction_sampleBuffer]
    rfl
  have all : parseMessageTransactions sampleLibraries movingBlock = .ok [sampleParsed] :=
    mapM_eq_ok_iff.mpr (.cons parsed .nil)
  have facts : ((messageData sampleLibraries movingBlock >>= update Db.empty).map fun result =>
      (decide (canonicalAddresses result.1 ⊆ {"ST000000000000000000002AMW42H", "ST2", "ST3"}),
        (getStxBalance result.1 "ST000000000000000000002AMW42H").balance,
        (getStxBalance result.1 "ST2").balance)) = .ok (true, 720, 70) := by
    rw [messageData, all]
    decide +kernel
  obtain ⟨⟨after, events⟩, accepted, same⟩ := Except.map_eq_ok.mp facts
  obtain ⟨data, handed, updated⟩ := Except.bind_eq_ok.mp accepted
  obtain ⟨covered, balances⟩ := Prod.mk.inj same
  obtain ⟨first, second⟩ := Prod.mk.inj balances
  refine ⟨after, ?_, of_decide_eq_true covered, first, second⟩
  rw [runServer, List.foldl_cons, List.foldl_nil]
  exact receive_of_update handed (by rw [updated]; rfl)

/-- The amounts of the three addresses are what was minted less what was burned and the fee. -/
theorem runServer_amountsConserved_movingBlock :
    AmountsConserved (fun _ _ => 0) (runServer sampleLibraries [.newBlock movingBlock])
        {"ST000000000000000000002AMW42H", "ST2", "ST3"} ∧
      (getStxBalance (runServer sampleLibraries [.newBlock movingBlock])
        "ST000000000000000000002AMW42H").balance = 720 ∧
      (getStxBalance (runServer sampleLibraries [.newBlock movingBlock]) "ST2").balance = 70 := by
  obtain ⟨db, same, covered, balances⟩ := exists_runServer_movingBlock
  have conserved := @runServer_amountsConserved Bool sampleLibraries (fun _ _ => 0)
    [.newBlock movingBlock] _ (same ▸ covered)
  exact ⟨conserved, same ▸ balances⟩

end StacksApi.EventStream
