import StacksApi.Datastore.PageByPage
import StacksApi.EventStream.EventOrder
import StacksApi.EventStream.Shown

/-!
# Complete listings

The events of a message are numbered per transaction, so that the transactions and the
events of a block have positions of their own as soon as the indices of its transactions
are.  The listings of the store are then complete page by page.
-/

namespace StacksApi.EventStream

open StacksApi.Binary
open StacksApi.P2p
open StacksApi.Relational
open StacksApi.Datastore
open StacksApi.Controllers
open StacksApi.Transition

variable {CV : Type} {libraries : Libraries CV}

/-! ## The events of an entry -/

/-- The events of the entry name its index and the height, and are numbered from zero. -/
structure EventsNumbered (blockHeight : Nat) (entry : TxEntry) : Prop where
  shared : ∀ event ∈ entry.events,
    event.base.blockHeight = blockHeight ∧ event.base.txIndex = entry.tx.txIndex
  indices : (entry.events.map fun event => event.base.eventIndex).Perm
    (List.range entry.events.length)

theorem EventsNumbered.pushEvent {blockHeight : Nat} {entry entry' : TxEntry}
    {event : CoreNodeEvent} (numbered : EventsNumbered blockHeight entry)
    (pushed : pushEvent blockHeight entry event = .ok entry') :
    EventsNumbered blockHeight entry' := by
  have sameTx := (pushEvent_ok pushed).1
  rw [pushEvent_eq] at pushed
  obtain ⟨dbEvent, described, rfl⟩ := Except.map_eq_ok.mp pushed
  have base := base_of_describeEvent described
  have perm := events_pushDbEvent entry dbEvent
  constructor
  · intro other mem
    rw [sameTx]
    rcases List.mem_append.mp (perm.mem_iff.mp mem) with old | new
    · exact numbered.shared other old
    · rw [List.mem_singleton.mp new, base]
      exact ⟨rfl, rfl⟩
  · have index : dbEvent.base.eventIndex = entry.events.length := by
      rw [base]
      exact nextEventIndex_eq entry
    rw [perm.length_eq, List.length_append, List.length_singleton, List.range_succ]
    refine (perm.map _).trans ?_
    rw [List.map_append, List.map_singleton, index]
    exact numbered.indices.append_right _

/-! ## The entries of a message -/

/-- Of the entries of a transaction only the first has events. -/
def FirstCollects (entries : List TxEntry) : Prop :=
  entries.Pairwise fun first second => first.tx.txId = second.tx.txId → second.events = []

theorem mem_addEvent {blockHeight : Nat} {entries entries' : List TxEntry} {event : CoreNodeEvent}
    (added : addEvent blockHeight entries event = .ok entries') :
    ∀ entry ∈ entries', entry ∈ entries ∨ entry.tx.txId = event.txid := by
  induction entries generalizing entries' with
  | nil => cases added
  | cons first entries ih =>
      rw [addEvent] at added
      split at added
      · next own =>
          obtain ⟨pushed, pushedOk, same⟩ := Except.bind_eq_ok.mp added
          cases same
          rw [List.forall_mem_cons]
          constructor
          · right
            rw [(pushEvent_ok pushedOk).1]
            exact own
          · exact fun entry mem => Or.inl (List.mem_cons_of_mem _ mem)
      · obtain ⟨later, laterOk, same⟩ := Except.bind_eq_ok.mp added
        cases same
        rw [List.forall_mem_cons]
        constructor
        · exact Or.inl List.mem_cons_self
        · exact fun entry mem => (ih laterOk entry mem).imp_left (List.mem_cons_of_mem _)

theorem FirstCollects.addEvent {blockHeight : Nat} {entries entries' : List TxEntry}
    {event : CoreNodeEvent} (collects : FirstCollects entries)
    (added : addEvent blockHeight entries event = .ok entries') : FirstCollects entries' := by
  induction entries generalizing entries' with
  | nil => cases added
  | cons first entries ih =>
      obtain ⟨firstCollects, rest⟩ := List.pairwise_cons.mp collects
      rw [EventStream.addEvent] at added
      split at added
      · obtain ⟨pushed, pushedOk, same⟩ := Except.bind_eq_ok.mp added
        cases same
        refine List.pairwise_cons.mpr ⟨?_, rest⟩
        rw [(pushEvent_ok pushedOk).1]
        exact firstCollects
      · next other =>
          obtain ⟨later, laterOk, same⟩ := Except.bind_eq_ok.mp added
          cases same
          refine List.pairwise_cons.mpr ⟨?_, ih rest laterOk⟩
          intro entry mem sameTx
          rcases mem_addEvent laterOk entry mem with old | own
          · exact firstCollects entry old sameTx
          · exact absurd (sameTx.trans own) other

theorem FirstCollects.foldlM_addEvent {blockHeight : Nat} {events : List CoreNodeEvent}
    {entries entries' : List TxEntry} (collects : FirstCollects entries)
    (added : events.foldlM (EventStream.addEvent blockHeight) entries = .ok entries') :
    FirstCollects entries' := by
  induction events generalizing entries with
  | nil =>
      cases added
      exact collects
  | cons event events ih =>
      rw [List.foldlM_cons] at added
      obtain ⟨next, nextOk, rest⟩ := Except.bind_eq_ok.mp added
      exact ih (collects.addEvent nextOk) rest

/-- Equal indices in the message are those of one transaction. -/
def CoreNodeMessage.TxIndexUnique (msg : CoreNodeMessage) : Prop :=
  ∀ first ∈ msg.transactions, ∀ second ∈ msg.transactions,
    first.txIndex = second.txIndex → first.txid = second.txid

section Message

variable {msg : CoreNodeMessage} {data : DataStoreUpdateData}

theorem nodup_eventPositions {blockHeight : Nat} {entries : List TxEntry}
    (numbered : ∀ entry ∈ entries, EventsNumbered blockHeight entry)
    (collects : FirstCollects entries)
    (sameTx : ∀ first ∈ entries, ∀ second ∈ entries, first.tx.txIndex = second.tx.txIndex →
      first.tx.txId = second.tx.txId) :
    (entries.flatMap fun entry => entry.events.map fun event =>
      (event.base.txIndex, event.base.eventIndex)).Nodup := by
  rw [List.nodup_flatMap]
  constructor
  · intro entry mem
    apply List.Nodup.of_map Prod.snd
    rw [List.map_map]
    exact (numbered entry mem).indices.nodup_iff.mpr List.nodup_range
  · refine List.Pairwise.imp_of_mem ?_ collects
    intro first second firstMem secondMem collects position inFirst inSecond
    obtain ⟨firstEvent, firstEventMem, rfl⟩ := List.mem_map.mp inFirst
    obtain ⟨secondEvent, secondEventMem, same⟩ := List.mem_map.mp inSecond
    have sameIndex : first.tx.txIndex = second.tx.txIndex := by
      rw [← ((numbered first firstMem).shared firstEvent firstEventMem).2,
        ← ((numbered second secondMem).shared secondEvent secondEventMem).2]
      exact (Prod.mk.inj same).1.symm
    have noEvents := collects (sameTx first firstMem second secondMem sameIndex)
    rw [noEvents] at secondEventMem
    exact List.not_mem_nil secondEventMem

/-- A message whose indices are unique hands over unique positions. -/
theorem positioned_messageData (unique : msg.TxIndexUnique)
    (handed : messageData libraries msg = .ok data) : data.Positioned := by
  obtain ⟨block, entries⟩ := messageData_ok handed
  have source : ∀ entry ∈ data.txs, ∃ coreTx ∈ msg.transactions, Numbered coreTx entry ∧
      entry.tx.blockHeight = msg.blockHeight := by
    intro entry mem
    obtain ⟨coreTx, coreMem, entryOf, -⟩ := exists_left_of_forall₂ entries mem
    refine ⟨coreTx, coreMem, entryOf.numbered, ?_⟩
    obtain ⟨tx, recordOf, -⟩ := entryOf
    exact congrArg DbTx.blockHeight recordOf.inBlock
  have sameTx : ∀ first ∈ data.txs, ∀ second ∈ data.txs, first.tx.txIndex = second.tx.txIndex →
      first.tx.txId = second.tx.txId := by
    intro first firstMem second secondMem same
    obtain ⟨firstTx, firstTxMem, ⟨firstId, firstIndex⟩, -⟩ := source first firstMem
    obtain ⟨secondTx, secondTxMem, ⟨secondId, secondIndex⟩, -⟩ := source second secondMem
    rw [firstIndex, secondIndex] at same
    rw [firstId, secondId, unique firstTx firstTxMem secondTx secondTxMem same]
  obtain ⟨parsed, parsedOk, handed⟩ := Except.bind_eq_ok.mp handed
  obtain ⟨created, createdOk, handed⟩ := Except.bind_eq_ok.mp handed
  obtain ⟨txs, added, same⟩ := Except.bind_eq_ok.mp handed
  cases same
  have noEvents : ∀ entry ∈ created, entry.events = [] := by
    intro entry mem
    obtain ⟨tx, -, createdEntry⟩ := mem_of_mapM_ok createdOk mem
    have none := noEvents_createEntry createdEntry
    rw [TxEntry.events, none.stxEvents, none.ftEvents, none.nftEvents, none.contractLogEvents]
    rfl
  have numbered : ∀ entry ∈ txs, EventsNumbered msg.blockHeight entry := by
    have all : List.Forall₂ (fun _ entry => EventsNumbered msg.blockHeight entry)
        created created := by
      refine List.forall₂_same.mpr fun entry mem => ?_
      constructor
      · rw [noEvents entry mem]
        exact List.forall_mem_nil _
      · rw [noEvents entry mem]
        exact List.Perm.nil
    have kept := forall₂_foldlM_addEvent
      (fun _ _ _ _ numbered pushed => EventsNumbered.pushEvent numbered pushed) all added
    intro entry mem
    obtain ⟨-, -, holds⟩ := exists_left_of_forall₂ kept mem
    exact holds
  have collects : FirstCollects txs := by
    refine FirstCollects.foldlM_addEvent ?_ added
    exact List.pairwise_of_forall_mem_list fun _ _ second mem _ => noEvents second mem
  exact
    { txHeights := fun entry mem => by
        obtain ⟨-, -, -, height⟩ := source entry mem
        exact height
      txs := fun first firstMem second secondMem same =>
        congrArg hexToBuffer (sameTx first firstMem second secondMem same)
      eventHeights := fun entry mem event eventMem => ((numbered entry mem).shared event eventMem).1
      events := nodup_eventPositions numbered collects sameTx }

end Message

/-! ## Runs -/

/-- The index of a transaction is unique in every block that a message of the run stores. -/
def TxIndicesUnique (libraries : Libraries CV) (messages : List ServerMessage) : Prop :=
  ∀ past msg, past ++ [.newBlock msg] <+: messages →
    NewBlock (runServer libraries past) (messageBlock msg) →
      Succeeds (handleClientMessage libraries (runServer libraries past) msg) → msg.TxIndexUnique

theorem runServer_positioned {messages : List ServerMessage}
    (unique : TxIndicesUnique libraries messages) :
    Standing (runServer libraries messages) ∧ Positioned (runServer libraries messages) := by
  apply runServer_invariant (P := fun db => Standing db ∧ Positioned db)
    (Q := fun db message => ∀ msg, message = .newBlock msg → NewBlock db (messageBlock msg) →
      Succeeds (handleClientMessage libraries db msg) → msg.TxIndexUnique) libraries
    ⟨Standing.empty, Positioned.empty⟩
  · intro db message holds unique
    apply receive_invariant (P := fun db => Standing db ∧ Positioned db) libraries holds
    · rintro msg isBlock data handed db' events ok
      obtain ⟨standing, positioned⟩ := holds
      obtain ⟨-, reorged, pruned, row, accepted⟩ := update_ok ok
      obtain ⟨canonical, carries⟩ := messageData_carries handed
      have wired : data.Wired := ⟨canonical, carries⟩
      refine ⟨standing.update accepted wired, positioned.update standing accepted wired ?_⟩
      intro fresh
      have isNew : NewBlock db (messageBlock msg) := by
        rw [← (messageData_ok handed).1]
        intro stored mem same
        rw [(accepted.decodedBlock canonical).1] at same
        exact fresh stored mem (Except.ok.inj same).symm
      exact positioned_messageData
        (unique msg isBlock isNew ⟨_, Except.bind_eq_ok.mpr ⟨data, handed, ok⟩⟩) handed
    · rintro receiptDate rawTxs - txs - tx - pool after events ⟨standing, positioned⟩ ok
      obtain ⟨mempoolTx, row, -, -, rfl | rfl⟩ := insertMempoolTx_ok libraries ok
      · exact ⟨standing, positioned⟩
      · exact ⟨standing.withMempoolTxs _, positioned.withMempoolTxs _⟩
  · rintro past message isPrefix msg rfl isNew succeeds
    exact unique past msg isPrefix isNew succeeds

/-- Every stored transaction can be parsed. -/
theorem runServer_parses (messages : List ServerMessage) :
    ∀ tx ∈ (runServer libraries messages).txs, Succeeds (parseTxQueryResult tx) := by
  have parsed : TablesParsed libraries (runServer libraries messages) :=
    runServer_tablesParsed messages
  exact fun tx mem => parsed.succeeds_parseTx mem

/-- After every run of messages whose stored blocks have unique indices, the listings of
the store are complete page by page, whatever the size of the pages is. -/
theorem runServer_listedByPages {messages : List ServerMessage}
    (unique : TxIndicesUnique libraries messages) {read : Nat → Db}
    (scans : ∀ number, Scan (runServer libraries messages) (read number)) (limit : Nat) :
    ListedByPages (runServer libraries messages) read limit := by
  obtain ⟨standing, positioned⟩ := runServer_positioned unique
  exact positioned.listedByPages standing (runServer_parses messages) scans limit

/-- Every other query reads the transactions backwards. -/
def readInTurns (db : Db) (number : Nat) : Db :=
  if number % 2 = 0 then db else { db with txs := db.txs.reverse }

theorem scan_readInTurns (db : Db) (number : Nat) : Scan db (readInTurns db number) := by
  rw [readInTurns]
  split
  · exact Scan.refl db
  · refine ⟨⟨List.Perm.refl _, fun table => ?_⟩, List.Perm.refl _⟩
    cases table with
    | txs => exact (List.reverse_perm _).symm
    | _ => exact List.Perm.refl _

/-- The transfer and the coinbase with their events, one row a page. -/
theorem runServer_listedByPages_interleavedBlock :
    ListedByPages (runServer sampleLibraries [.newBlock interleavedBlock])
      (readInTurns (runServer sampleLibraries [.newBlock interleavedBlock])) 1 := by
  refine runServer_listedByPages ?_ (scan_readInTurns _) 1
  rintro past msg isPrefix - -
  have mem : ServerMessage.newBlock msg ∈ [ServerMessage.newBlock interleavedBlock] :=
    isPrefix.subset (List.mem_append_right _ (List.mem_singleton_self _))
  cases List.mem_singleton.mp mem
  intro first firstMem second secondMem same
  have firstCases : first = sampleCoreTx ∨ first = coinbaseCoreTx := by
    simpa [interleavedBlock, mixedBlock] using firstMem
  have secondCases : second = sampleCoreTx ∨ second = coinbaseCoreTx := by
    simpa [interleavedBlock, mixedBlock] using secondMem
  rcases firstCases with rfl | rfl <;> rcases secondCases with rfl | rfl
  · rfl
  · exact absurd same (by decide)
  · exact absurd same (by decide)
  · rfl

end StacksApi.EventStream
