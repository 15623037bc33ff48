import StacksApi.Controllers.Stepwise
import StacksApi.Datastore.TxEvents

/-!
# A transaction that is read among commits

What `getTxFromDataStore` reads in several queries, it could have read from one committed
state, but for the interface of the contract that a call names.  The events of a block
are there as soon as the block is, and only their canonical flags change, which are not
shown.
-/

namespace StacksApi.Controllers

open StacksApi.Binary
open StacksApi.Chain
open StacksApi.Relational
open StacksApi.Datastore
open StacksApi.Transition
open Reading
open CanonicalEntity

/-! ## Events -/

/-- The event with its flag raised. -/
def raiseEvent : DbEvent → DbEvent :=
  DbEvent.mapBase fun base => { base with canonical := true }

theorem eventIndex_raiseEvent (event : DbEvent) :
    (raiseEvent event).eventIndex = event.eventIndex := by
  cases event <;> rfl

/-- Sorting does not look at the flags. -/
theorem map_raiseEvent_insertionSort (events : List DbEvent) :
    (events.insertionSort fun a b => a.eventIndex ≤ b.eventIndex).map raiseEvent =
      (events.map raiseEvent).insertionSort fun a b => a.eventIndex ≤ b.eventIndex := by
  apply List.map_insertionSort
  intro a _ b _
  rw [eventIndex_raiseEvent, eventIndex_raiseEvent]

section Table

variable {α : Type} [CanonicalEntity α] {txIdOf : α → Buffer} {rows read : List (InBlock α)}
variable {txId hash : Buffer}

theorem filter_ofTx (rows : List (InBlock α)) :
    (rows.filter fun row => txIdOf row.entity = txId ∧ row.indexBlockHash = hash) =
      (rows.filter fun row => decide (Flagged.key row = hash)).filter fun row =>
        decide (txIdOf row.entity = txId) := by
  rw [List.filter_filter]
  apply List.filter_congr
  intro row _
  exact Bool.decide_and _ _

/-- The events of a transaction, read from a table that has the same rows of its block up
to flags, can be read from this one. -/
theorem exists_scan_ofTx (blind : ∀ event : α, txIdOf (withCanonical true event) = txIdOf event)
    (perm : (raised (rows.filter fun row => decide (Flagged.key row = hash))).Perm
      (raised (read.filter fun row => decide (Flagged.key row = hash)))) :
    ∃ scanned, rows.Perm scanned ∧
      (ofTx txIdOf txId hash scanned).map (withCanonical true) =
        (ofTx txIdOf txId hash read).map (withCanonical true) := by
  have images : ∀ table : List (InBlock α), (ofTx txIdOf txId hash table).map
      (withCanonical true) = (raised (table.filter fun row =>
        txIdOf row.entity = txId ∧ row.indexBlockHash = hash)).map InBlock.entity := by
    intro table
    rw [ofTx, raised, List.map_map, List.map_map]
    rfl
  have blindRow : ∀ row : InBlock α,
      decide (txIdOf (Flagged.withFlag true row).entity = txId) =
        decide (txIdOf row.entity = txId) := by
    intro row
    have same : txIdOf (Flagged.withFlag true row).entity = txIdOf row.entity := blind row.entity
    rw [same]
  have split : ∀ table : List (InBlock α), raised (table.filter fun row =>
      txIdOf row.entity = txId ∧ row.indexBlockHash = hash) =
        (raised (table.filter fun row => decide (Flagged.key row = hash))).filter fun row =>
          decide (txIdOf row.entity = txId) := by
    intro table
    rw [filter_ofTx]
    exact raised_filter blindRow _
  have inBlock : (raised (rows.filter fun row =>
      txIdOf row.entity = txId ∧ row.indexBlockHash = hash)).Perm
        (raised (read.filter fun row =>
          txIdOf row.entity = txId ∧ row.indexBlockHash = hash)) := by
    rw [split, split]
    exact perm.filter _
  obtain ⟨scanned, scan, same⟩ := exists_scan_of_raised inBlock
  exact ⟨scanned, scan, by rw [images, images, same]⟩

theorem map_raiseEvent {read : α → DbEvent}
    (commutes : ∀ event, raiseEvent (read event) = read (withCanonical true event))
    {events others : List α} (same : events.map (withCanonical true) =
      others.map (withCanonical true)) :
    (events.map read).map raiseEvent = (others.map read).map raiseEvent := by
  have through : ∀ events : List α, (events.map read).map raiseEvent =
      (events.map (withCanonical true)).map read := by
    intro events
    rw [List.map_map, List.map_map]
    exact List.map_congr_left fun event _ => commutes event
  rw [through, through, same]

end Table

section Read

variable {calls : List StoreCall} {first start last : Moment calls} {seen : Db}

/-- What a query of a later moment sees of a stored block is what there was of it. -/
theorem perm_rowsOfBlock (regular : RegularCalls calls) (order : first ≤ last)
    {seen read : Db} (sight : first.Sees seen) (readSight : last.Sees read) {b : Link Buffer}
    (stored : b ∈ first.db.links) (table : EntityTable) :
    (raised (rowsOfBlock b.hash seen table)).Perm (raised (rowsOfBlock b.hash read table)) := by
  have before : (raised (rowsOfBlock b.hash seen table)).Perm
      (raised (rowsOfBlock b.hash first.db table)) :=
    ((sight.rows table).symm.filter _).map _
  have after : (raised (rowsOfBlock b.hash last.db table)).Perm
      (raised (rowsOfBlock b.hash read table)) :=
    ((readSight.rows table).filter _).map _
  rw [Moment.rowsOfBlock regular order stored] at after
  exact before.trans after

theorem ends_getTxEvents (regular : RegularCalls calls) (order : first ≤ start)
    (sight : first.Sees seen) {b : Link Buffer} (stored : b ∈ first.db.links)
    {txId indexBlockHash : String} {txIdBuffer : Buffer}
    (txIdOk : hexToBuffer txId = .ok txIdBuffer) (hashOk : hexToBuffer indexBlockHash = .ok b.hash)
    {events : List DbEvent}
    (ends : Ends Moment.Sees start (Stepwise.getTxEvents txId indexBlockHash) last (.ok events)) :
    ∃ seen', first.Sees seen' ∧ seen'.txs = seen.txs ∧ ∃ events',
      getTxEvents seen' txId indexBlockHash = .ok events' ∧
        events'.map raiseEvent = events.map raiseEvent := by
  rw [Stepwise.getTxEvents] at ends
  obtain ⟨buffer, decoded, ends⟩ := ends_lift_bind_iff.mp ends
  cases txIdOk.symm.trans decoded
  obtain ⟨hash, decoded, ends⟩ := ends_lift_bind_iff.mp ends
  cases hashOk.symm.trans decoded
  obtain ⟨_, atStx, readStx, later₁, sightStx, ⟨⟩, ends⟩ := ends_ask_bind_iff.mp ends
  obtain ⟨_, atFt, readFt, later₂, sightFt, ⟨⟩, ends⟩ := ends_ask_bind_iff.mp ends
  obtain ⟨_, atNft, readNft, later₃, sightNft, ⟨⟩, ends⟩ := ends_ask_bind_iff.mp ends
  obtain ⟨_, atLogs, readLogs, later₄, sightLogs, ⟨⟩, ends⟩ := ends_ask_bind_iff.mp ends
  obtain ⟨rfl, ⟨⟩⟩ := ends_pure_iff.mp ends
  have rest : first ≤ atStx := le_trans order later₁
  obtain ⟨stxEvents, stxScan, stxSame⟩ := @exists_scan_ofTx _ _ (fun event => event.txId) _ _
    txIdBuffer b.hash (fun _ => rfl)
    (perm_rowsOfBlock regular rest sight sightStx stored .stxEvents)
  have rest := le_trans rest later₂
  obtain ⟨ftEvents, ftScan, ftSame⟩ := @exists_scan_ofTx _ _ (fun event => event.txId) _ _
    txIdBuffer b.hash (fun _ => rfl) (perm_rowsOfBlock regular rest sight sightFt stored .ftEvents)
  have rest := le_trans rest later₃
  obtain ⟨nftEvents, nftScan, nftSame⟩ := @exists_scan_ofTx _ _ (fun event => event.txId) _ _
    txIdBuffer b.hash (fun _ => rfl)
    (perm_rowsOfBlock regular rest sight sightNft stored .nftEvents)
  have rest := le_trans rest later₄
  obtain ⟨contractLogs, logScan, logSame⟩ := @exists_scan_ofTx _ _ (fun event => event.txId) _ _
    txIdBuffer b.hash (fun _ => rfl)
    (perm_rowsOfBlock regular rest sight sightLogs stored .contractLogs)
  let seen' : Db := { seen with stxEvents, ftEvents, nftEvents, contractLogs }
  have scan : Scan seen seen' := by
    refine ⟨⟨List.Perm.refl _, ?_⟩, List.Perm.refl _⟩
    intro table
    cases table with
    | txs => exact List.Perm.refl _
    | stxEvents => exact stxScan
    | ftEvents => exact ftScan
    | nftEvents => exact nftScan
    | contractLogs => exact logScan
    | smartContracts => exact List.Perm.refl _
  refine ⟨seen', sight.trans scan, rfl, _, getTxEvents_eq txIdOk hashOk, ?_⟩
  rw [map_raiseEvent_insertionSort, map_raiseEvent_insertionSort]
  congr 1
  simp only [readTxEvents, List.map_append]
  rw [@map_raiseEvent _ _ readStxEvent (fun _ => rfl) _ _ stxSame,
    @map_raiseEvent _ _ readFtEvent (fun _ => rfl) _ _ ftSame,
    @map_raiseEvent _ _ readNftEvent (fun _ => rfl) _ _ nftSame,
    @map_raiseEvent _ _ readContractLog (fun _ => rfl) _ _ logSame]
  rfl

theorem getTx_parsed {db : Db} {txId : String} {tx : DbTx String}
    (ok : getTx db txId = .ok (some tx)) :
    ∃ row ∈ db.txs, hexToBuffer txId = .ok row.txId ∧ parseTxQueryResult row = .ok tx := by
  obtain ⟨buffer, decoded, ok⟩ := Except.bind_eq_ok.mp ok
  dsimp only at ok
  split at ok
  · cases ok
  · next row head =>
      obtain ⟨parsed, parsedOk, same⟩ := Except.bind_eq_ok.mp ok
      cases same
      obtain ⟨mem, sameId⟩ := List.mem_filter.mp (le_of_head?_orderByDesc head).1
      exact ⟨row, mem, by rw [decoded, of_decide_eq_true sameId], parsedOk⟩

theorem getMempoolTx_parsed {db : Db} {txId : String} {tx : DbMempoolTx String}
    (ok : getMempoolTx db txId = .ok (some tx)) :
    ∃ row ∈ db.mempoolTxs, hexToBuffer txId = .ok row.txId ∧
      parseMempoolTxQueryResult row = .ok tx := by
  obtain ⟨buffer, decoded, ok⟩ := Except.bind_eq_ok.mp ok
  split at ok
  · cases ok
  · next row single =>
      obtain ⟨parsed, parsedOk, same⟩ := Except.bind_eq_ok.mp ok
      cases same
      obtain ⟨mem, sameId⟩ := List.mem_filter.mp (single ▸ List.mem_singleton_self row)
      exact ⟨row, mem, by rw [decoded, of_decide_eq_true sameId], parsedOk⟩
  · cases ok

/-- The row of a transaction that is found. -/
theorem getTx_row {db : Db} {txId : String} {tx : DbTx String}
    (ok : getTx db txId = .ok (some tx)) : ∃ row ∈ db.txs, hexToBuffer txId = .ok row.txId ∧
      hexToBuffer tx.indexBlockHash = .ok row.indexBlockHash ∧
      tx.blockHash = bufferToHexPrefixString row.blockHash := by
  obtain ⟨row, mem, decoded, parsed⟩ := getTx_parsed ok
  obtain ⟨columns, -, same⟩ := Except.bind_eq_ok.mp parsed
  cases same
  exact ⟨row, mem, decoded, hexToBuffer_bufferToHexPrefixString _, rfl⟩

/-- The row of a transaction and its events stand in one committed state. -/
theorem lookupTx_snapshot (regular : RegularCalls calls) {txId : String} {stored : StoredTx}
    (ends : Ends Moment.Sees start (Stepwise.lookupTx txId) last (.ok (some stored))) :
    ∃ (answered : Moment calls) (seen : Db), start ≤ answered ∧ answered ≤ last ∧
      answered.Sees seen ∧
      ((∃ pending, getMempoolTx seen txId = .ok (some pending) ∧ stored = .mempool pending) ∨
        ∃ mined events shown, getTx seen txId = .ok (some mined) ∧
          getTxEvents seen txId mined.indexBlockHash = .ok events ∧
          events.map raiseEvent = shown.map raiseEvent ∧ stored = .mined mined shown) := by
  obtain ⟨pending, atPool, seen, later, sight, pendingOk, ends⟩ := ends_ask_bind_iff.mp ends
  cases pending with
  | some tx =>
      obtain ⟨rfl, ⟨⟩⟩ := ends_pure_iff.mp ends
      exact ⟨_, seen, later, le_refl _, sight, Or.inl ⟨tx, pendingOk, rfl⟩⟩
  | none =>
      obtain ⟨mined, atTxs, seen, later', sight, minedOk, ends⟩ := ends_ask_bind_iff.mp ends
      cases mined with
      | none =>
          obtain ⟨-, same⟩ := ends_pure_iff.mp ends
          cases same
      | some tx =>
          obtain ⟨shown, middle, eventsRead, ends⟩ := ends_bind_ok_iff.mp ends
          obtain ⟨rfl, ⟨⟩⟩ := ends_pure_iff.mp ends
          obtain ⟨row, mem, txIdOk, hashOk, -⟩ := getTx_row minedOk
          obtain ⟨flag, invariant, -⟩ := runStore_invariant (atTxs.regular regular)
          obtain ⟨b, stored, bHash⟩ :=
            invariant.rows.attached .txs row ((sight.rows .txs).symm.subset mem)
          have blockHash : b.hash = row.indexBlockHash := bHash
          rw [← blockHash] at hashOk
          obtain ⟨seen', sight', sameTxs, events, eventsOk, same⟩ :=
            ends_getTxEvents regular (le_refl atTxs) sight stored txIdOk hashOk eventsRead
          refine ⟨atTxs, seen', le_trans later later', eventsRead.le, sight', Or.inr
            ⟨tx, events, shown, ?_, eventsOk, same, rfl⟩⟩
          rw [← minedOk, getTx, getTx, sameTxs]

section Api

variable {CV Ty : Type} {clarity : ClarityLibrary CV} {addresses : AddressLibrary}
variable {abis : AbiLibrary Ty}

theorem parseDbEvent_raiseEvent (event : DbEvent) :
    parseDbEvent clarity (raiseEvent event) = parseDbEvent clarity event := by
  cases event <;> rfl

/-- What is shown of events does not depend on their flags. -/
theorem parseEvents_congr {typeId : DbTxTypeId} {events shown : List DbEvent}
    (same : events.map raiseEvent = shown.map raiseEvent) :
    parseEvents clarity typeId events = parseEvents clarity typeId shown := by
  have raised : ∀ events : List DbEvent,
      (events.map raiseEvent).mapM (parseDbEvent clarity) = events.mapM (parseDbEvent clarity) := by
    intro events
    rw [List.mapM_map]
    exact congrArg (fun parse => events.mapM parse) (funext parseDbEvent_raiseEvent)
  have length : events.length = shown.length := by
    rw [← List.length_map (f := raiseEvent), same, List.length_map]
  rw [parseEvents, parseEvents, ← raised events, same, raised, length]

theorem parseStoredTx_congr {db : Db} {mined : DbTx String} {events shown : List DbEvent}
    (same : events.map raiseEvent = shown.map raiseEvent) :
    parseStoredTx clarity addresses abis db (.mined mined events) =
      parseStoredTx clarity addresses abis db (.mined mined shown) := by
  have parts : parseEvents clarity (StoredTx.mined mined events).toDbTxBase.typeId
      (StoredTx.mined mined events).events =
        parseEvents clarity (StoredTx.mined mined shown).toDbTxBase.typeId
          (StoredTx.mined mined shown).events :=
    parseEvents_congr same
  dsimp only [parseStoredTx]
  rw [parts]
  rfl

/-- What is shown of a transaction comes from one committed state, but for the interface of
the contract, which is that of the same or a later one. -/
theorem getTxFromDataStore_snapshot (regular : RegularCalls calls) {txId : String}
    {shown : Transaction}
    (ends : Ends Moment.Sees start (Stepwise.getTxFromDataStore clarity addresses abis txId) last
      (.ok (some shown))) :
    ∃ (answered : Moment calls) (seen seen' : Db) (stored : StoredTx), start ≤ answered ∧
      answered ≤ last ∧ answered.Sees seen ∧ last.Sees seen' ∧
      parseStoredTx clarity addresses abis seen' stored = .ok shown ∧
      ((∃ pending, stored = .mempool pending ∧ getMempoolTx seen txId = .ok (some pending)) ∨
        ∃ mined events, stored = .mined mined events ∧ getTx seen txId = .ok (some mined) ∧
          getTxEvents seen txId mined.indexBlockHash = .ok events) := by
  obtain ⟨stored, middle, looked, ends⟩ := ends_bind_ok_iff.mp ends
  cases stored with
  | none =>
      obtain ⟨-, same⟩ := ends_pure_iff.mp ends
      cases same
  | some stored =>
      obtain ⟨tx, middle', seen', later, sight', parsed, ends⟩ := ends_ask_bind_iff.mp ends
      obtain ⟨rfl, ⟨⟩⟩ := ends_pure_iff.mp ends
      obtain ⟨answered, seen, later', earlier, sight, ⟨pending, found, rfl⟩ |
        ⟨mined, events, read, found, eventsOk, same, rfl⟩⟩ := lookupTx_snapshot regular looked
      · exact ⟨answered, seen, seen', _, later', le_trans earlier later, sight, sight', parsed,
          Or.inl ⟨pending, rfl, found⟩⟩
      · refine ⟨answered, seen, seen', .mined mined events, later', le_trans earlier later, sight,
          sight', ?_, Or.inr ⟨mined, events, rfl, found, eventsOk⟩⟩
        rw [parseStoredTx_congr same]
        exact parsed

end Api

end Read

end StacksApi.Controllers
