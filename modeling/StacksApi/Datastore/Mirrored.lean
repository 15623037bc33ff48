import StacksApi.Datastore.MemoryRun
import StacksApi.Datastore.PageByPage

/-!
# The tables and the maps

The store in memory answers as the tables do when its maps hold the records to which the
rows are parsed, every row is canonical, and the rows have distinct keys and places in the
listings.
-/

namespace StacksApi.Datastore

open StacksApi.Binary
open StacksApi.Collections
open StacksApi.Relational
open StacksApi.Transition
open CanonicalEntity

/-! ## Pages of an array -/

namespace MemoryDataStore

theorem filter_zipIdx_page {α : Type} (limit offset start : Nat) (rows : List α) :
    ((rows.zipIdx start).filter fun entry =>
        offset ≤ entry.2 ∧ entry.2 ≤ offset + limit).map Prod.fst =
      (rows.drop (offset - start)).take (offset + limit + 1 - max start offset) := by
  induction rows generalizing start with
  | nil => simp
  | cons row rows ih =>
      rw [List.zipIdx_cons, List.filter_cons]
      by_cases before : start < offset
      · have skipped : offset - start = offset - (start + 1) + 1 := by omega
        have same : max start offset = max (start + 1) offset := by omega
        rw [if_neg (by simp; omega), ih, skipped, List.drop_succ_cons, same]
      · have none : offset - start = 0 ∧ offset - (start + 1) = 0 := by omega
        have place : max start offset = start ∧ max (start + 1) offset = start + 1 := by omega
        rw [none.1, List.drop_zero, place.1]
        by_cases within : start ≤ offset + limit
        · have left : offset + limit + 1 - start = offset + limit + 1 - (start + 1) + 1 := by omega
          rw [if_pos (by simp; omega), List.map_cons, ih, none.2, List.drop_zero, place.2, left,
            List.take_succ_cons]
        · have left : offset + limit + 1 - start = 0 ∧
              offset + limit + 1 - (start + 1) = 0 := by omega
          rw [if_neg (by simp; omega), ih, none.2, List.drop_zero, place.2, left.1, left.2,
            List.take_zero, List.take_zero]

/-- The filter of the source keeps a row too many, which `slice` drops. -/
theorem pageOf_eq_page {α : Type} (limit offset : Nat) (rows : List α) :
    pageOf limit offset rows = page limit offset rows := by
  have kept : pageOf limit offset rows =
      (((rows.zipIdx 0).filter fun entry =>
        offset ≤ entry.2 ∧ entry.2 ≤ offset + limit).map Prod.fst).take limit := rfl
  rw [kept, filter_zipIdx_page, page, List.take_take]
  congr 1
  omega

end MemoryDataStore

/-! ## Tables and maps -/

section Mirrors

variable {α β κ : Type} {parse : α → Except ApiError β} {rows : List α}
variable {entries : List (String × β)}

/-- The map holds the records to which the rows are parsed. -/
def Mirrors (parse : α → Except ApiError β) (rows : List α) (entries : List (String × β)) : Prop :=
  ∃ records, rows.mapM parse = .ok records ∧ records.Perm (mapValues entries)

theorem Mirrors.perm {others : List α} (mirrors : Mirrors parse rows entries)
    (perm : rows.Perm others) : Mirrors parse others entries := by
  obtain ⟨records, parsed, held⟩ := mirrors
  obtain ⟨otherRecords, otherParsed, same⟩ := mapM_perm_ok perm.symm parsed
  exact ⟨otherRecords, otherParsed, same.trans held⟩

theorem Mirrors.exists_record (mirrors : Mirrors parse rows entries) {row : α} (mem : row ∈ rows) :
    ∃ record ∈ mapValues entries, parse row = .ok record := by
  obtain ⟨records, parsed, held⟩ := mirrors
  obtain ⟨record, recordMem, ok⟩ := exists_of_mapM_ok parsed mem
  exact ⟨record, held.mem_iff.mp recordMem, ok⟩

theorem Mirrors.exists_row (mirrors : Mirrors parse rows entries) {record : β}
    (mem : record ∈ mapValues entries) : ∃ row ∈ rows, parse row = .ok record := by
  obtain ⟨records, parsed, held⟩ := mirrors
  exact mem_of_mapM_ok parsed (held.mem_iff.mpr mem)

/-- Rows and values without repetitions mirror each other when they have the same records. -/
theorem Mirrors.of_mem_iff {γ : Type} {id : α → γ} (distinct : (rows.map id).Nodup)
    (values : (mapValues entries).Nodup)
    (told : ∀ first second record, parse first = .ok record → parse second = .ok record →
      id first = id second)
    (parses : ∀ row ∈ rows, ∃ record, parse row = .ok record)
    (same : ∀ record, (∃ row ∈ rows, parse row = .ok record) ↔ record ∈ mapValues entries) :
    Mirrors parse rows entries := by
  obtain ⟨records, parsed⟩ := exists_mapM_ok parses
  refine ⟨records, parsed, ?_⟩
  refine (List.perm_ext_iff_of_nodup (nodup_of_mapM_ok parsed distinct told) values).mpr ?_
  intro record
  rw [← same]
  constructor
  · exact fun mem => mem_of_mapM_ok parsed mem
  · rintro ⟨row, mem, ok⟩
    obtain ⟨parsedRecord, recordMem, parsedOk⟩ := exists_of_mapM_ok parsed mem
    rw [ok] at parsedOk
    rw [Except.ok.inj parsedOk]
    exact recordMem

/-- The record of a row with its flag raised. -/
def parseRaised [CanonicalEntity β] (parse : α → Except ApiError β) (row : α) :
    Except ApiError β :=
  (parse row).map (withCanonical true)

/-- Up to flags the values are the same; where all flags are raised, they are the same. -/
theorem Mirrors.of_raised [CanonicalEntity β]
    (mirrors : Mirrors (parseRaised parse) rows (updateValues (withCanonical true) entries))
    (rowFlags : ∀ row ∈ rows, ∀ record, parse row = .ok record → canonical record = true)
    (entryFlags : ∀ record ∈ mapValues entries, canonical record = true) :
    Mirrors parse rows entries := by
  have kept : ∀ record : β, canonical record = true → withCanonical true record = record := by
    intro record flag
    rw [← flag, withCanonical_canonical]
  have sameRecord : ∀ row ∈ rows, parseRaised parse row = parse row := by
    intro row mem
    rw [parseRaised]
    cases parsed : parse row with
    | error error => rfl
    | ok record => exact congrArg Except.ok (kept record (rowFlags row mem record parsed))
  have sameValues : (mapValues entries).map (withCanonical true) = mapValues entries := by
    rw [List.map_congr_left fun record mem => kept record (entryFlags record mem), List.map_id']
  obtain ⟨records, parsed, held⟩ := mirrors
  rw [mapM_congr_of_mem sameRecord] at parsed
  rw [mapValues_updateValues, sameValues] at held
  exact ⟨records, parsed, held⟩

/-- What both find for an id that the record repeats as text. -/
theorem Mirrors.lookup (mirrors : Mirrors parse rows entries) {idOf : α → Buffer}
    {keyOf : β → String} (keyed : Keyed keyOf entries)
    (own : ∀ row record, parse row = .ok record → keyOf record = bufferToHexPrefixString (idOf row))
    (buffer : Buffer) :
    ∃ found : Option α, rows.filter (fun row => idOf row = buffer) = found.toList ∧
      found.mapM parse = .ok (entries.lookup (bufferToHexPrefixString buffer)) := by
  have distinct : (rows.map idOf).Nodup := by
    obtain ⟨records, parsed, held⟩ := mirrors
    have texts : records.map keyOf = rows.map fun row => bufferToHexPrefixString (idOf row) :=
      map_eq_map_of_mapM_ok parsed fun row _ record ok => own row record ok
    apply List.Nodup.of_map bufferToHexPrefixString
    rw [List.map_map]
    change (rows.map fun row => bufferToHexPrefixString (idOf row)).Nodup
    rw [← texts, (held.map keyOf).nodup_iff]
    exact keyed.nodup_map_keyOf
  cases stored : entries.lookup (bufferToHexPrefixString buffer) with
  | none =>
      refine ⟨none, List.filter_eq_nil_iff.mpr fun row mem same => ?_, rfl⟩
      obtain ⟨record, recordMem, ok⟩ := mirrors.exists_record mem
      have present := keyed.lookup_eq_some_iff.mpr ⟨recordMem, own row record ok⟩
      rw [of_decide_eq_true same, stored] at present
      exact (Option.some_ne_none record).symm present
  | some record =>
      obtain ⟨recordMem, key⟩ := keyed.lookup_eq_some_iff.mp stored
      obtain ⟨row, mem, ok⟩ := mirrors.exists_row recordMem
      have id : idOf row = buffer :=
        bufferToHexPrefixString_injective ((own row record ok).symm.trans key)
      refine ⟨some row, ?_, ?_⟩
      · apply filter_eq_singleton distinct mem (decide_eq_true id)
        exact fun other _ same => (of_decide_eq_true same).trans id.symm
      · rw [Option.mapM_some, ok]
        rfl

/-- A page of the sorted rows is parsed to the page of the sorted records. -/
theorem Mirrors.listed [LinearOrder κ] (mirrors : Mirrors parse rows entries) {key : α → κ}
    {keyOf : β → κ} (distinct : (rows.map key).Nodup) {p : α → Bool} {q : β → Bool}
    (same : ∀ row record, parse row = .ok record → keyOf record = key row ∧ p row = q record)
    {compare : β → β → Int}
    (descending : ∀ first second, compare first second < 0 ↔ keyOf second < keyOf first)
    (limit offset : Nat) :
    (page limit offset (orderByDesc key (rows.filter p))).mapM parse =
        .ok (MemoryDataStore.pageOf limit offset
          (arraySort compare ((mapValues entries).filter q))) ∧
      (rows.filter p).length = ((mapValues entries).filter q).length := by
  obtain ⟨records, parsed, held⟩ := mirrors
  have selected := mapM_filter_ok parsed fun row record ok => (same row record ok).2
  obtain ⟨ordered, orderedOk, orderedPerm⟩ :=
    mapM_perm_ok (orderByDesc_perm key (rows.filter p)) selected
  have keys : ordered.map keyOf = (orderByDesc key (rows.filter p)).map key :=
    map_eq_map_of_mapM_ok orderedOk fun row _ record ok => (same row record ok).1
  have sorted : ordered.Pairwise fun first second => keyOf second ≤ keyOf first := by
    rw [← List.pairwise_map (R := fun first second => second ≤ first), keys, List.pairwise_map]
    exact pairwise_orderByDesc key _
  have nodup : (ordered.map keyOf).Nodup := by
    rw [keys]
    apply ((orderByDesc_perm key (rows.filter p)).map key).nodup_iff.mpr
    exact distinct.sublist (List.filter_sublist.map key)
  have arrayPerm := arraySort_perm compare ((mapValues entries).filter q)
  have perm : ordered.Perm (arraySort compare ((mapValues entries).filter q)) :=
    (orderedPerm.trans (held.filter q)).trans arrayPerm.symm
  have array : ordered = arraySort compare ((mapValues entries).filter q) := by
    apply perm.eq_of_pairwise ?_ sorted (pairwise_arraySort descending _)
    intro first second firstMem secondMem below above
    exact List.inj_on_of_nodup_map nodup firstMem (perm.mem_iff.mpr secondMem)
      (le_antisymm above below)
  constructor
  · rw [MemoryDataStore.pageOf_eq_page, ← array, mapM_eq_ok_iff]
    exact List.forall₂_take _ (List.forall₂_drop _ (mapM_eq_ok_iff.mp orderedOk))
  · rw [(mapM_eq_ok_iff.mp selected).length_eq]
    exact (held.filter q).length_eq

end Mirrors

/-! ## Queries for one record -/

section Queries

variable {db : Db} {buffer : Buffer}

theorem getBlock_of_filter {found : Option (DbBlock Buffer)}
    (rows : db.blocks.filter (fun row => row.blockHash = buffer) = found.toList) :
    getBlock db (bufferToHexPrefixString buffer) = found.mapM fun row =>
      .ok (parseBlockQueryResult row) := by
  rw [getBlock, hexToBuffer_bufferToHexPrefixString]
  simp only [bind, Except.bind, rows]
  cases found with
  | none => rfl
  | some row => rfl

theorem getTx_of_filter {found : Option (DbTx Buffer)}
    (rows : db.txs.filter (fun row => row.txId = buffer) = found.toList) :
    getTx db (bufferToHexPrefixString buffer) = found.mapM parseTxQueryResult := by
  rw [getTx, hexToBuffer_bufferToHexPrefixString]
  simp only [bind, Except.bind, rows]
  cases found with
  | none => rfl
  | some row =>
      have head : (orderByDesc (fun row : DbTx Buffer => toLex (row.canonical, row.blockHeight))
          [row]).head? = some row := rfl
      simp only [Option.toList, head, Option.mapM_some]
      cases parseTxQueryResult row with
      | error error => rfl
      | ok tx => rfl

theorem getMempoolTx_of_filter {found : Option (DbMempoolTx Buffer)}
    (rows : db.mempoolTxs.filter (fun row => row.txId = buffer) = found.toList) :
    getMempoolTx db (bufferToHexPrefixString buffer) = found.mapM parseMempoolTxQueryResult := by
  rw [getMempoolTx, hexToBuffer_bufferToHexPrefixString]
  simp only [bind, Except.bind, rows]
  cases found with
  | none => rfl
  | some row =>
      simp only [Option.toList, Option.mapM_some]
      cases parseMempoolTxQueryResult row with
      | error error => rfl
      | ok tx => rfl

theorem blockHash_of_parsed {row : DbBlock Buffer} {block : DbBlock String}
    (parsed : (.ok (parseBlockQueryResult row) : Except ApiError _) = .ok block) :
    block.blockHash = bufferToHexPrefixString row.blockHash := by
  cases parsed
  rfl

end Queries

/-! ## The two stores -/

/-- Both stores give the same answers for ids as the tables write them and for pages whose
numbers the database takes. -/
structure StoresAgree (db : Db) (store : MemoryDataStore) : Prop where
  getBlock : ∀ buffer, getBlock db (bufferToHexPrefixString buffer) =
    .ok (store.getBlock (bufferToHexPrefixString buffer))
  getBlocks : ∀ request : PageRequest, getBlocks db request.limit request.offset =
    .ok (store.getBlocks request.limit request.offset)
  getTx : ∀ buffer, getTx db (bufferToHexPrefixString buffer) =
    .ok (store.getTx (bufferToHexPrefixString buffer))
  getTxList : ∀ (request : PageRequest) (txTypeFilter : List String),
    getTxList db request.limit request.offset txTypeFilter =
      store.getTxList request.limit request.offset txTypeFilter
  getMempoolTx : ∀ buffer, getMempoolTx db (bufferToHexPrefixString buffer) =
    .ok (store.getMempoolTx (bufferToHexPrefixString buffer))

/-- The maps hold the records of the tables, in which no two blocks have the same height and
no two transactions the same height and index. -/
structure Mirrored (db : Db) (store : MemoryDataStore) : Prop where
  blocks : Mirrors (fun row => .ok (parseBlockQueryResult row)) db.blocks store.blocks
  txs : Mirrors parseTxQueryResult db.txs store.txs
  mempoolTxs : Mirrors parseMempoolTxQueryResult db.mempoolTxs store.txMempool
  keys : MemoryKeys store
  heights : (db.blocks.map DbBlock.blockHeight).Nodup
  positions : (db.txs.map txOrder).Nodup

namespace Mirrored

variable {db scanned : Db} {store : MemoryDataStore}

/-- The order in which the tables are read does not matter. -/
theorem scan (mirrored : Mirrored db store) (scan : Scan db scanned) : Mirrored scanned store where
  blocks := mirrored.blocks.perm scan.blocks
  txs := mirrored.txs.perm (scan.rows .txs)
  mempoolTxs := mirrored.mempoolTxs.perm scan.mempoolTxs
  keys := mirrored.keys
  heights := (scan.blocks.map _).nodup_iff.mp mirrored.heights
  positions := by
    have perm : db.txs.Perm scanned.txs := scan.rows .txs
    exact (perm.map _).nodup_iff.mp mirrored.positions

theorem getBlock_eq (mirrored : Mirrored db store) (buffer : Buffer) :
    getBlock db (bufferToHexPrefixString buffer) =
      .ok (store.getBlock (bufferToHexPrefixString buffer)) := by
  obtain ⟨found, rows, parsed⟩ := mirrored.blocks.lookup mirrored.keys.blocks
    (fun _ _ parsed => blockHash_of_parsed parsed) buffer
  rw [getBlock_of_filter rows, parsed, MemoryDataStore.getBlock]

theorem getTx_eq (mirrored : Mirrored db store) (buffer : Buffer) :
    getTx db (bufferToHexPrefixString buffer) =
      .ok (store.getTx (bufferToHexPrefixString buffer)) := by
  obtain ⟨found, rows, parsed⟩ := mirrored.txs.lookup mirrored.keys.txs
    (fun _ _ parsed => (parsedTx_of_ok parsed).txId) buffer
  rw [getTx_of_filter rows, parsed, MemoryDataStore.getTx]

theorem getMempoolTx_eq (mirrored : Mirrored db store) (buffer : Buffer) :
    getMempoolTx db (bufferToHexPrefixString buffer) =
      .ok (store.getMempoolTx (bufferToHexPrefixString buffer)) := by
  obtain ⟨found, rows, parsed⟩ := mirrored.mempoolTxs.lookup mirrored.keys.txMempool
    (fun _ _ parsed => txId_of_parsedMempool parsed) buffer
  rw [getMempoolTx_of_filter rows, parsed, MemoryDataStore.getMempoolTx]

theorem getBlocks_eq (mirrored : Mirrored db store) (limit offset : Nat) :
    getBlocks db limit offset = .ok (store.getBlocks limit offset) := by
  have descending : ∀ first second : DbBlock String,
      (second.blockHeight : Int) - first.blockHeight < 0 ↔
        second.blockHeight < first.blockHeight := by
    intro first second
    omega
  have kept : ∀ row record, (.ok (parseBlockQueryResult row) : Except ApiError _) = .ok record →
      record.blockHeight = row.blockHeight ∧ DbBlock.canonical row = record.canonical := by
    rintro row record ⟨⟩
    exact ⟨rfl, rfl⟩
  obtain ⟨results, total⟩ :=
    mirrored.blocks.listed mirrored.heights kept descending limit offset
  rw [mapM_ok, Except.ok.injEq] at results
  rw [Datastore.getBlocks, paged_natCast, MemoryDataStore.getBlocks]
  change Except.ok _ = Except.ok _
  rw [results, total]

theorem getTxList_eq (mirrored : Mirrored db store) (limit offset : Nat)
    (txTypeFilter : List String) :
    getTxList db limit offset txTypeFilter = store.getTxList limit offset txTypeFilter := by
  rw [Datastore.getTxList, MemoryDataStore.getTxList]
  cases txTypeFilter.mapM getTxTypeId with
  | error error => rfl
  | ok txTypeIds =>
      have descending : ∀ first second : DbTx String,
          MemoryDataStore.compareTxs first second < 0 ↔
            toLex (second.blockHeight, second.txIndex) <
              toLex (first.blockHeight, first.txIndex) := by
        intro first second
        rw [MemoryDataStore.compareTxs, Prod.Lex.toLex_lt_toLex]
        dsimp only
        split <;> omega
      have kept : ∀ row record, parseTxQueryResult row = .ok record →
          toLex (record.blockHeight, record.txIndex) = txOrder row ∧
            (row.canonical && (txTypeIds.isEmpty || decide (row.typeId ∈ txTypeIds))) =
              (record.canonical && (txTypeIds.isEmpty || decide (record.typeId ∈ txTypeIds))) := by
        intro row record parsed
        have kept := parsedTx_of_ok parsed
        rw [kept.canonical, kept.typeId]
        exact ⟨kept.place, rfl⟩
      obtain ⟨results, total⟩ :=
        mirrored.txs.listed mirrored.positions kept descending limit offset
      have order : (fun row : DbTx Buffer => toLex (row.blockHeight, row.txIndex)) = txOrder := rfl
      simp only [bind, Except.bind, paged_natCast, order, results, total]

theorem storesAgree (mirrored : Mirrored db store) : StoresAgree db store where
  getBlock := mirrored.getBlock_eq
  getBlocks request := mirrored.getBlocks_eq request.limit request.offset
  getTx := mirrored.getTx_eq
  getTxList request := mirrored.getTxList_eq request.limit request.offset
  getMempoolTx := mirrored.getMempoolTx_eq

end Mirrored

/-! ## Records up to flags -/

/-- Both stores find the same blocks and transactions for ids as the tables write them, but
for the flags. -/
structure RecordsAgree (db : Db) (store : MemoryDataStore) : Prop where
  getBlock : ∀ buffer,
    (getBlock db (bufferToHexPrefixString buffer)).map (Option.map (withCanonical true)) =
      .ok ((store.getBlock (bufferToHexPrefixString buffer)).map (withCanonical true))
  getTx : ∀ buffer,
    (getTx db (bufferToHexPrefixString buffer)).map (Option.map (withCanonical true)) =
      .ok ((store.getTx (bufferToHexPrefixString buffer)).map (withCanonical true))

/-- The maps hold the blocks and transactions of the tables, but for the flags. -/
structure MirroredRaised (db : Db) (store : MemoryDataStore) : Prop where
  blocks : Mirrors (parseRaised fun row => .ok (parseBlockQueryResult row)) db.blocks
    (updateValues (withCanonical true) store.blocks)
  txs : Mirrors (parseRaised parseTxQueryResult) db.txs
    (updateValues (withCanonical true) store.txs)
  keys : MemoryKeys store

theorem mapM_parseRaised {α β : Type} [CanonicalEntity β] (parse : α → Except ApiError β)
    (found : Option α) :
    found.mapM (parseRaised parse) = (found.mapM parse).map (Option.map (withCanonical true)) := by
  cases found with
  | none => rfl
  | some row =>
      rw [Option.mapM_some, Option.mapM_some, parseRaised]
      cases parse row with
      | error error => rfl
      | ok record => rfl

theorem exists_of_parseRaised {α β : Type} [CanonicalEntity β] {parse : α → Except ApiError β}
    {row : α} {raisedRecord : β} (parsed : parseRaised parse row = .ok raisedRecord) :
    ∃ record, parse row = .ok record ∧ raisedRecord = withCanonical true record := by
  obtain ⟨record, ok, same⟩ := Except.map_eq_ok.mp parsed
  exact ⟨record, ok, same.symm⟩

namespace MirroredRaised

variable {db scanned : Db} {store : MemoryDataStore}

theorem scan (mirrored : MirroredRaised db store) (scan : Scan db scanned) :
    MirroredRaised scanned store where
  blocks := mirrored.blocks.perm scan.blocks
  txs := mirrored.txs.perm (scan.rows .txs)
  keys := mirrored.keys

theorem recordsAgree (mirrored : MirroredRaised db store) : RecordsAgree db store where
  getBlock buffer := by
    have own : ∀ row block,
        parseRaised (fun row => .ok (parseBlockQueryResult row)) row = .ok block →
        block.blockHash = bufferToHexPrefixString (DbBlock.blockHash row) := by
      intro row block parsed
      obtain ⟨record, ok, rfl⟩ := exists_of_parseRaised parsed
      have kept := blockHash_of_parsed ok
      exact kept
    obtain ⟨found, rows, parsed⟩ := mirrored.blocks.lookup
      (mirrored.keys.blocks.updateValues fun _ => rfl) own buffer
    rw [getBlock_of_filter rows, ← mapM_parseRaised, parsed, lookup_updateValues]
    rfl
  getTx buffer := by
    have own : ∀ row tx, parseRaised parseTxQueryResult row = .ok tx →
        tx.txId = bufferToHexPrefixString row.txId := by
      intro row tx parsed
      obtain ⟨record, ok, rfl⟩ := exists_of_parseRaised parsed
      exact (parsedTx_of_ok ok).txId
    obtain ⟨found, rows, parsed⟩ := mirrored.txs.lookup
      (mirrored.keys.txs.updateValues fun _ => rfl) own buffer
    rw [getTx_of_filter rows, ← mapM_parseRaised, parsed, lookup_updateValues]
    rfl

end MirroredRaised

end StacksApi.Datastore
