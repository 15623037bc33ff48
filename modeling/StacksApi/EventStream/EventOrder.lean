import StacksApi.Datastore.TxEvents
import StacksApi.EventStream.Accepts

/-!
# The order of events

An event of a message gets the number of events of its transaction before it as its
position, whatever their kinds.  The positions put the events of the four tables
back into the order of the message.
-/

namespace StacksApi.EventStream

open StacksApi.Binary
open StacksApi.P2p
open StacksApi.Relational
open StacksApi.Datastore
open StacksApi.Transition

variable {CV : Type} {libraries : Libraries CV}

/-! ## The events of an entry -/

/-- The shared columns of the event of an entry at a position. -/
def positionBase (blockHeight : Nat) (canonical : Bool) (entry : TxEntry) (position : Nat) :
    DbEventBase String where
  eventIndex := position
  txId := entry.tx.txId
  txIndex := entry.tx.txIndex
  blockHeight := blockHeight
  canonical := canonical

/-- The records of events, each with the shared columns of its position. -/
def describeEvents (base : Nat → DbEventBase String) (events : List CoreNodeEvent) :
    Except ApiError (List DbEvent) :=
  events.zipIdx.mapM fun positioned => describeEvent (base positioned.2) positioned.1

/-- Other shared columns give the same events with those columns. -/
theorem describeEvents_mapBase (change : DbEventBase String → DbEventBase String)
    {base : Nat → DbEventBase String} {own : List CoreNodeEvent} {described : List DbEvent}
    (computed : describeEvents base own = .ok described) :
    describeEvents (fun position => change (base position)) own =
      .ok (described.map (DbEvent.mapBase change)) := by
  rw [describeEvents, mapM_eq_ok_iff] at computed ⊢
  rw [List.forall₂_map_right_iff]
  apply computed.imp
  intro positioned dbEvent ok
  rw [describeEvent_mapBase, ok]
  rfl

/-- The events of the entry are those of a list, with their positions in it. -/
def Collects (blockHeight : Nat) (canonical : Bool) (own : List CoreNodeEvent)
    (entry : TxEntry) : Prop :=
  ∃ described, describeEvents (positionBase blockHeight canonical entry) own = .ok described ∧
    entry.events.Perm described

section Collects

variable {blockHeight : Nat} {canonical : Bool} {own : List CoreNodeEvent} {entry entry' : TxEntry}

theorem Collects.length (collects : Collects blockHeight canonical own entry) :
    entry.events.length = own.length := by
  obtain ⟨described, computed, perm⟩ := collects
  rw [perm.length_eq, ← (mapM_eq_ok_iff.mp computed).length_eq, List.length_zipIdx]

/-- The positions count up, whatever the kinds of the events are. -/
theorem Collects.pushEvent {event : CoreNodeEvent}
    (collects : Collects blockHeight true own entry) (isOwn : event.txid = entry.tx.txId)
    (pushed : pushEvent blockHeight entry event = .ok entry') :
    Collects blockHeight true (own ++ [event]) entry' := by
  have next : nextEventIndex entry = own.length := (nextEventIndex_eq entry).trans collects.length
  have sameTx := (pushEvent_ok pushed).1
  obtain ⟨described, computed, perm⟩ := collects
  rw [pushEvent_eq] at pushed
  obtain ⟨dbEvent, dbEventOk, rfl⟩ := Except.map_eq_ok.mp pushed
  have base : eventBase blockHeight entry event.txid =
      positionBase blockHeight true entry own.length := by
    rw [eventBase, positionBase, next, isOwn]
  rw [base] at dbEventOk
  refine ⟨described ++ [dbEvent], ?_, ?_⟩
  · have samePositions : positionBase blockHeight true (pushDbEvent entry dbEvent) =
        positionBase blockHeight true entry := by
      unfold positionBase
      rw [sameTx]
    rw [samePositions]
    rw [describeEvents, mapM_eq_ok_iff] at computed ⊢
    rw [List.zipIdx_append]
    exact List.rel_append computed (.cons (by simpa using dbEventOk) .nil)
  · exact (events_pushDbEvent entry dbEvent).trans (perm.append_right _)

theorem Collects.owns (collects : Collects blockHeight canonical own entry) : entry.Owns := by
  obtain ⟨described, computed, perm⟩ := collects
  intro event mem
  obtain ⟨source, -, ok⟩ := mem_of_mapM_ok computed (perm.mem_iff.mp mem)
  rw [base_of_describeEvent ok]
  rfl

/-- Lowering the flags of an entry lowers those of its events. -/
theorem Collects.markNonCanonical (collects : Collects blockHeight true own entry) :
    Collects blockHeight false own entry.markNonCanonical := by
  obtain ⟨described, computed, perm⟩ := collects
  refine ⟨described.map (DbEvent.mapBase fun base => { base with canonical := false }), ?_, ?_⟩
  · exact describeEvents_mapBase (fun base => { base with canonical := false }) computed
  · rw [events_markNonCanonical]
    exact perm.map _

end Collects

/-! ## The events of a message -/

/-- Every entry collects the events of its transaction. -/
def Collected (blockHeight : Nat) (past : List CoreNodeEvent) (entries : List TxEntry) : Prop :=
  ∀ entry ∈ entries,
    Collects blockHeight true (past.filter fun event => event.txid = entry.tx.txId) entry

section Collected

variable {blockHeight : Nat} {past events : List CoreNodeEvent} {entries entries' : List TxEntry}

/-- An event goes to the only entry of its transaction. -/
theorem Collected.addEvent {event : CoreNodeEvent}
    (collected : Collected blockHeight past entries)
    (distinct : (entries.map fun entry => entry.tx.txId).Nodup)
    (added : addEvent blockHeight entries event = .ok entries') :
    Collected blockHeight (past ++ [event]) entries' := by
  have others : ∀ entry : TxEntry, event.txid ≠ entry.tx.txId →
      (past ++ [event]).filter (fun event => event.txid = entry.tx.txId) =
        past.filter fun event => event.txid = entry.tx.txId := by
    intro entry differs
    rw [List.filter_append, List.filter_cons_of_neg (by simpa using differs), List.filter_nil,
      List.append_nil]
  induction entries generalizing entries' with
  | nil => cases added
  | cons first entries ih =>
      obtain ⟨collectsFirst, collectsRest⟩ := List.forall_mem_cons.mp collected
      rw [List.map_cons, List.nodup_cons] at distinct
      rw [EventStream.addEvent] at added
      split at added
      · next own =>
          obtain ⟨pushed, pushedOk, same⟩ := Except.bind_eq_ok.mp added
          cases same
          have sameTx := (pushEvent_ok pushedOk).1
          rw [Collected, List.forall_mem_cons]
          constructor
          · rw [sameTx, List.filter_append, List.filter_cons_of_pos (by simp [own]),
              List.filter_nil]
            exact collectsFirst.pushEvent own.symm pushedOk
          · intro entry mem
            rw [others entry]
            · exact collectsRest entry mem
            · rw [← own]
              intro same
              exact distinct.1 (same ▸ List.mem_map_of_mem (f := fun entry : TxEntry =>
                entry.tx.txId) mem)
      · next other =>
          obtain ⟨later, laterOk, same⟩ := Except.bind_eq_ok.mp added
          cases same
          rw [Collected, List.forall_mem_cons]
          constructor
          · rw [others first (Ne.symm other)]
            exact collectsFirst
          · exact ih collectsRest distinct.2 laterOk

theorem Collected.foldlM_addEvent (collected : Collected blockHeight past entries)
    (distinct : (entries.map fun entry => entry.tx.txId).Nodup)
    (added : events.foldlM (EventStream.addEvent blockHeight) entries = .ok entries') :
    Collected blockHeight (past ++ events) entries' := by
  induction events generalizing past entries with
  | nil =>
      cases added
      rw [List.append_nil]
      exact collected
  | cons event events ih =>
      rw [List.foldlM_cons] at added
      obtain ⟨next, nextOk, rest⟩ := Except.bind_eq_ok.mp added
      have stillDistinct : (next.map fun entry => entry.tx.txId).Nodup := by
        have same := congrArg (List.map fun tx => tx.txId) (map_tx_addEvent nextOk)
        rw [List.map_map, List.map_map] at same
        exact same ▸ distinct
      rw [← List.singleton_append, ← List.append_assoc]
      exact ih (collected.addEvent distinct nextOk) stillDistinct rest

end Collected

theorem listed_of_foldlM_addEvent {blockHeight : Nat} {events : List CoreNodeEvent}
    {entries entries' : List TxEntry}
    (added : events.foldlM (addEvent blockHeight) entries = .ok entries') :
    ∀ event ∈ events, ∃ tx ∈ entries.map TxEntry.tx, tx.txId = event.txid := by
  induction events generalizing entries with
  | nil => exact fun _ mem => nomatch mem
  | cons event events ih =>
      rw [List.foldlM_cons] at added
      obtain ⟨next, nextOk, rest⟩ := Except.bind_eq_ok.mp added
      rw [List.forall_mem_cons]
      constructor
      · exact (succeeds_addEvent_iff.mp ⟨next, nextOk⟩).1
      · rw [← map_tx_addEvent nextOk]
        exact ih rest

/-- The positions of described events increase. -/
theorem describeEvents_increasing {base : Nat → DbEventBase String}
    (positions : ∀ position, (base position).eventIndex = position) {own : List CoreNodeEvent}
    {described : List DbEvent} (computed : describeEvents base own = .ok described) :
    described.Pairwise fun first second => first.eventIndex < second.eventIndex := by
  have indices : described.map DbEvent.eventIndex = own.zipIdx.map Prod.snd := by
    apply map_eq_map_of_mapM_ok computed
    intro positioned _ dbEvent ok
    rw [DbEvent.eventIndex_eq, base_of_describeEvent ok, positions]
  rw [List.zipIdx_map_snd] at indices
  apply List.pairwise_map.mp
  rw [indices]
  exact List.pairwise_lt_range'

/-- The entry is numbered as its transaction. -/
def Numbered (coreTx : CoreNodeTxMessage) (entry : TxEntry) : Prop :=
  entry.tx.txId = coreTx.txid ∧ entry.tx.txIndex = coreTx.txIndex

theorem EntryOf.numbered {msg : CoreNodeMessage} {coreTx : CoreNodeTxMessage} {entry : TxEntry}
    (entryOf : EntryOf libraries msg coreTx entry) : Numbered coreTx entry := by
  obtain ⟨tx, recordOf, -, -⟩ := entryOf
  obtain ⟨status, -, shared⟩ := recordOf.shared
  exact ⟨shared.txId, congrArg DbTx.txIndex recordOf.inBlock⟩

theorem map_txId_of_numbered {coreTxs : List CoreNodeTxMessage} {entries : List TxEntry}
    (numbered : List.Forall₂ Numbered coreTxs entries) :
    (entries.map fun entry => entry.tx.txId) = coreTxs.map fun coreTx => coreTx.txid := by
  induction numbered with
  | nil => rfl
  | cons first _ ih => rw [List.map_cons, List.map_cons, first.1, ih]

section Message

variable {msg : CoreNodeMessage} {data : DataStoreUpdateData}

/-- A message whose event has no transaction is refused. -/
theorem listed_of_messageData (handed : messageData libraries msg = .ok data) :
    ∀ event ∈ msg.events, ∃ coreTx ∈ msg.transactions, coreTx.txid = event.txid := by
  obtain ⟨parsed, parsedOk, handed⟩ := Except.bind_eq_ok.mp handed
  obtain ⟨entries, created, handed⟩ := Except.bind_eq_ok.mp handed
  obtain ⟨txs, added, -⟩ := Except.bind_eq_ok.mp handed
  have numbered : List.Forall₂ Numbered msg.transactions entries :=
    (handed_of_mapM_createEntry parsedOk created).imp fun _ _ handed => handed.1.numbered
  intro event mem
  obtain ⟨tx, txMem, same⟩ := listed_of_foldlM_addEvent added event mem
  have texts : tx.txId ∈ entries.map fun entry => entry.tx.txId := by
    obtain ⟨entry, entryMem, rfl⟩ := List.mem_map.mp txMem
    exact List.mem_map_of_mem entryMem
  rw [map_txId_of_numbered numbered] at texts
  obtain ⟨coreTx, coreTxMem, sameTx⟩ := List.mem_map.mp texts
  exact ⟨coreTx, coreTxMem, sameTx.trans same⟩

/-- The entries of a message with distinct transactions collect its events. -/
theorem collected_messageData
    (distinct : (msg.transactions.map fun coreTx => coreTx.txid).Nodup)
    (handed : messageData libraries msg = .ok data) :
    Collected msg.blockHeight msg.events data.txs := by
  obtain ⟨parsed, parsedOk, handed⟩ := Except.bind_eq_ok.mp handed
  obtain ⟨entries, created, handed⟩ := Except.bind_eq_ok.mp handed
  obtain ⟨txs, added, same⟩ := Except.bind_eq_ok.mp handed
  cases same
  have numbered : List.Forall₂ Numbered msg.transactions entries :=
    (handed_of_mapM_createEntry parsedOk created).imp fun _ _ handed => handed.1.numbered
  have collected : Collected msg.blockHeight [] entries := by
    intro entry mem
    obtain ⟨source, -, createdEntry⟩ := mem_of_mapM_ok created mem
    have noEvents := noEvents_createEntry createdEntry
    refine ⟨[], rfl, ?_⟩
    rw [TxEntry.events, noEvents.stxEvents, noEvents.ftEvents, noEvents.nftEvents,
      noEvents.contractLogEvents]
    exact List.Perm.nil
  exact collected.foldlM_addEvent (map_txId_of_numbered numbered ▸ distinct) added

/-- Storing a fork block lowers the flags of the events only. -/
theorem Collected.settled {blockHeight : Nat} {past : List CoreNodeEvent} (db : Db)
    (collected : Collected blockHeight past data.txs) :
    ∀ entry ∈ (data.settled db).txs, Collects blockHeight (decide (Heightens db data))
      (past.filter fun event => event.txid = entry.tx.txId) entry := by
  intro entry mem
  rw [DataStoreUpdateData.settled] at mem
  by_cases high : Heightens db data
  · rw [if_pos high] at mem
    rw [decide_eq_true high]
    exact collected entry mem
  · rw [if_neg high] at mem
    rw [decide_eq_false high]
    obtain ⟨original, originalMem, rfl⟩ := List.mem_map.mp mem
    exact (collected original originalMem).markNonCanonical

theorem numbered_settled (db : Db) (handed : messageData libraries msg = .ok data) :
    List.Forall₂ Numbered msg.transactions (data.settled db).txs := by
  have numbered : List.Forall₂ Numbered msg.transactions data.txs :=
    (messageData_ok handed).2.imp fun _ _ handed => handed.1.numbered
  rw [DataStoreUpdateData.settled]
  split
  · exact numbered
  · exact List.forall₂_map_right_iff.mpr numbered

end Message

/-! ## Runs -/

/-- Every row belongs to a stored block, whatever messages have arrived. -/
theorem runServer_attached (messages : List ServerMessage) :
    Attached (runServer libraries messages) := by
  apply runServer_invariant (Q := fun _ _ => True) libraries Attached.empty
  · intro db message attached _
    apply receive_invariant libraries attached
    · intro msg _ data handed db' events ok
      obtain ⟨-, reorged, pruned, row, accepted⟩ := update_ok ok
      obtain ⟨canonical, carries⟩ := messageData_carries handed
      exact attached.update accepted canonical carries
    · intro receiptDate rawTxs _ txs _ tx _ pool after events attachedPool ok
      obtain ⟨mempoolTx, row, -, -, rfl | rfl⟩ := insertMempoolTx_ok libraries ok
      · exact attachedPool
      · intro table entity mem
        have old : entity ∈ db.rows table := by cases table <;> exact mem
        exact attached table entity old
  · exact fun _ _ _ => trivial

section Stored

variable {messages : List ServerMessage} {msg : CoreNodeMessage} {db' : Db}
variable {announced : List DataStoreEvent}

/-- Once a block is stored that was new, the events of each of its transactions are
those of the message in its order, numbered from zero, whatever the order in which the
tables are read; and every event is one of a listed transaction.  The ids of the
transactions are distinct as the bytes that are stored, whatever their spelling. -/
theorem getTxEvents_stored
    (distinct : (msg.transactions.map fun coreTx => hexToBuffer coreTx.txid).Nodup)
    (isNew : NewBlock (runServer libraries messages) (messageBlock msg))
    (stored : handleClientMessage libraries (runServer libraries messages) msg =
      .ok (db', announced)) :
    (∀ event ∈ msg.events, ∃ coreTx ∈ msg.transactions, coreTx.txid = event.txid) ∧
      ∀ coreTx ∈ msg.transactions, ∃ txId results, hexToBuffer coreTx.txid = .ok txId ∧
        describeEvents
            (fun position =>
              { eventIndex := position
                txId := bufferToHexPrefixString txId
                txIndex := coreTx.txIndex
                blockHeight := msg.blockHeight
                canonical :=
                  decide ((getChainTipHeight (runServer libraries messages)).blockHeight <
                  msg.blockHeight) })
            (msg.events.filter fun event => event.txid = coreTx.txid) = .ok results ∧
          ∀ scanned, Scan db' scanned →
            getTxEvents scanned coreTx.txid msg.indexBlockHash = .ok results := by
  obtain ⟨data, handed, ok⟩ := Except.bind_eq_ok.mp stored
  obtain ⟨-, reorged, pruned, row, accepted⟩ := update_ok ok
  obtain ⟨canonical, carries⟩ := messageData_carries handed
  have block := (messageData_ok handed).1
  have distinctTexts : (msg.transactions.map fun coreTx => coreTx.txid).Nodup := by
    apply List.Nodup.of_map hexToBuffer
    rw [List.map_map]
    exact distinct
  have numbered := numbered_settled (runServer libraries messages) handed
  have collected := (collected_messageData distinctTexts handed).settled
    (runServer libraries messages)
  refine ⟨listed_of_messageData handed, fun coreTx mem => ?_⟩
  obtain ⟨entry, entryMem, txIdText, txIndex⟩ := exists_left_of_forall₂ numbered.flip mem
  have distinctIds : ((data.settled (runServer libraries messages)).txs.map
      fun entry => hexToBuffer entry.tx.txId).Nodup := by
    have texts := congrArg (List.map hexToBuffer) (map_txId_of_numbered numbered)
    rw [List.map_map, List.map_map] at texts
    exact texts ▸ distinct
  obtain ⟨txId, txIdOk, read⟩ := accepted.getTxEvents_entry (runServer_attached messages)
    canonical carries (block ▸ isNew) distinctIds
    (fun entry mem => (collected entry mem).owns) entryMem
  obtain ⟨described, computed, perm⟩ := collected entry entryMem
  have renamed := describeEvents_mapBase
    (fun base => base.withTxId (bufferToHexPrefixString txId)) computed
  have increasing := describeEvents_increasing (fun _ => rfl) renamed
  have sameHeight : decide (Heightens (runServer libraries messages) data) =
      decide ((getChainTipHeight (runServer libraries messages)).blockHeight < msg.blockHeight) :=
    decide_eq_decide.mpr (by rw [Heightens, block, messageBlock])
  refine ⟨txId, described.map (DbEvent.mapBase fun base =>
    base.withTxId (bufferToHexPrefixString txId)), txIdText ▸ txIdOk, ?_, fun scanned scan => ?_⟩
  · rw [← renamed, ← sameHeight, ← txIdText, ← txIndex]
    rfl
  · obtain ⟨rows, rowsPerm, ok⟩ := read scanned scan
    rw [txIdText, block, messageBlock] at ok
    rw [ok, insertionSort_eq_of_perm (rowsPerm.trans (perm.map _)) increasing]

end Stored

/-- The two transactions of the block emit events of three kinds in turn. -/
def interleavedBlock : CoreNodeMessage :=
  { mixedBlock with
    events := [
      .ftMintEvent sampleCoreTx.txid "token" "ST000000000000000000002AMW42H" "5",
      .stxMintEvent coinbaseCoreTx.txid "ST000000000000000000002AMW42H" "7",
      .contractEvent sampleCoreTx.txid "contract" "print" "0x03",
      .stxBurnEvent sampleCoreTx.txid "ST000000000000000000002AMW42H" "2"] }

theorem lists_interleavedBlock :
    Lists sampleLibraries interleavedBlock [sampleTransfer 1, coinbaseTransaction] where
  transactions := lists_mixedBlock.transactions
  events := by
    have first : ∃ coreTx ∈ interleavedBlock.transactions, coreTx.txid = sampleCoreTx.txid :=
      ⟨sampleCoreTx, List.mem_cons_self, rfl⟩
    have second : ∃ coreTx ∈ interleavedBlock.transactions, coreTx.txid = coinbaseCoreTx.txid :=
      ⟨coinbaseCoreTx, List.mem_cons_of_mem _ List.mem_cons_self, rfl⟩
    simp only [interleavedBlock, List.forall_mem_cons]
    exact ⟨first, second, first, first, fun _ mem => nomatch mem⟩

theorem readable_interleavedBlock :
    Readable sampleLibraries interleavedBlock [sampleTransfer 1, coinbaseTransaction] where
  supported := readable_mixedBlock.supported
  addressed := readable_mixedBlock.addressed
  events := by
    simp only [interleavedBlock, List.forall_mem_cons]
    exact ⟨⟨5, rfl⟩, ⟨7, rfl⟩, ⟨[3], rfl⟩, ⟨2, rfl⟩, fun _ mem => nomatch mem⟩

theorem fits_interleavedBlock :
    Fits interleavedBlock [sampleTransfer 1, coinbaseTransaction] where
  transactions := fits_mixedBlock.transactions
  events := by
    have amountFits : ∀ {inRange : Int → Bool} {amount : String} {value : Int},
        bigIntOfText amount = .ok value → inRange value = true → AmountFits inRange amount :=
      fun parsed fits => (amountFits_iff parsed).mpr fits
    simp only [interleavedBlock, List.forall_mem_cons]
    refine ⟨⟨rfl, rfl, ?_⟩, ⟨rfl, ?_⟩, ⟨rfl, rfl⟩, ⟨rfl, ?_⟩, fun _ mem => nomatch mem⟩
    · exact amountFits (show bigIntOfText "5" = .ok 5 from rfl) rfl
    · exact amountFits (show bigIntOfText "7" = .ok 7 from rfl) rfl
    · exact amountFits (show bigIntOfText "2" = .ok 2 from rfl) rfl
  positions earlier event later split := by
    have shorter : earlier.length < 4 := by
      have lengths := congrArg List.length split
      rw [List.length_append, List.length_cons] at lengths
      have four : interleavedBlock.events.length = 4 := rfl
      omega
    calc earlier.countP (fun other => other.txid = event.txid)
      _ ≤ earlier.length := List.countP_le_length
      _ < 4 := shorter
      _ < 2 ^ 31 := by decide

/-- The events of the transfer come back in the order of the message. -/
theorem getTxEvents_stored_interleavedBlock : ∃ db' announced,
    handleClientMessage sampleLibraries (runServer sampleLibraries []) interleavedBlock =
        .ok (db', announced) ∧
      ∀ scanned, Scan db' scanned →
        getTxEvents scanned sampleCoreTx.txid "0x11" =
          describeEvents
            (fun position =>
              { eventIndex := position
                txId := sampleCoreTx.txid
                txIndex := 0
                blockHeight := 1
                canonical := true })
            [.ftMintEvent sampleCoreTx.txid "token" "ST000000000000000000002AMW42H" "5",
              .contractEvent sampleCoreTx.txid "contract" "print" "0x03",
              .stxBurnEvent sampleCoreTx.txid "ST000000000000000000002AMW42H" "2"] := by
  have block : blockRow (messageBlock mixedBlock) = .ok sampleBlockRow := by decide +kernel
  have accepts : Accepts sampleLibraries Db.empty interleavedBlock :=
    lists_interleavedBlock.accepts ClarityLibrary.booleans_roundTrips plainTexts_zeroHash
      (accepts_withoutTransactions_iff.mpr ⟨⟨_, rfl⟩, _, block⟩) readable_interleavedBlock
      fits_interleavedBlock
  obtain ⟨⟨db', announced⟩, stored⟩ := accepts
  have distinct : (interleavedBlock.transactions.map fun coreTx =>
      hexToBuffer coreTx.txid).Nodup := by
    have first : hexToBuffer sampleCoreTx.txid = .ok sampleTxId :=
      hexToBuffer_bufferToHexPrefixString _
    simp only [interleavedBlock, mixedBlock, List.map_cons, List.map_nil]
    rw [first]
    decide
  have isNew : NewBlock (runServer sampleLibraries []) (messageBlock interleavedBlock) :=
    fun block mem => nomatch mem
  have events := getTxEvents_stored distinct isNew stored
  refine ⟨db', announced, stored, fun scanned scan => ?_⟩
  obtain ⟨txId, results, txIdOk, described, read⟩ := events.2 sampleCoreTx List.mem_cons_self
  have sameId : hexToBuffer sampleCoreTx.txid = .ok sampleTxId :=
    hexToBuffer_bufferToHexPrefixString _
  obtain rfl : sampleTxId = txId := Except.ok.inj (sameId.symm.trans txIdOk)
  have differs : coinbaseCoreTx.txid ≠ sampleCoreTx.txid := by decide +kernel
  rw [show "0x11" = interleavedBlock.indexBlockHash from rfl, read scanned scan, ← described]
  simp only [interleavedBlock, mixedBlock, CoreNodeEvent.txid, List.filter_cons, decide_true,
    differs, decide_false]
  rfl

end StacksApi.EventStream
