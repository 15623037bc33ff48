import StacksApi.Datastore.Mirrored
import StacksApi.Datastore.Order

/-!
# Runs in which hashes and ids tell records apart

When no two blocks share a hash, no two transactions an id, and the tables give every
record back as it is, both stores hold exactly what was delivered, whatever chains the
blocks belong to.  They may differ in the flags.
-/

namespace StacksApi.Datastore

open StacksApi.Binary
open StacksApi.Chain
open StacksApi.Collections
open StacksApi.Relational
open StacksApi.Transition
open CanonicalEntity

/-! ## What is delivered -/

/-- The transactions in the updates among the calls. -/
def deliveredTxs (calls : List StoreCall) : List (DbTx String) :=
  (updatesOf calls).flatMap fun data => data.txs.map TxEntry.tx

/-- The transactions that the calls insert in the mempool. -/
def pendingOf (calls : List StoreCall) : List (DbMempoolTx String) :=
  calls.filterMap fun call =>
    match call with
    | .update _ => none
    | .updateMempoolTx mempoolTx => some mempoolTx

@[simp]
theorem deliveredTxs_append (first second : List StoreCall) :
    deliveredTxs (first ++ second) = deliveredTxs first ++ deliveredTxs second := by
  rw [deliveredTxs, updatesOf_append, List.flatMap_append]
  rfl

@[simp]
theorem pendingOf_append (first second : List StoreCall) :
    pendingOf (first ++ second) = pendingOf first ++ pendingOf second :=
  List.filterMap_append

theorem mem_deliveredTxs {calls : List StoreCall} {tx : DbTx String} :
    tx ∈ deliveredTxs calls ↔ ∃ data ∈ updatesOf calls, ∃ entry ∈ data.txs, entry.tx = tx := by
  rw [deliveredTxs, List.mem_flatMap]
  exact exists_congr fun data => and_congr_right fun _ => List.mem_map

/-- The update comes as `handleClientMessage` builds it, and the tables admit its records
and give them back as they are. -/
structure DataStoreUpdateData.Lossless (data : DataStoreUpdateData) : Prop
    extends data.Wired, data.Attributed where
  block : ∃ row, blockRow data.block = .ok row ∧ parseBlockQueryResult row = data.block
  entries : ∀ entry ∈ data.txs,
    ∃ rows, entryRows entry = .ok rows ∧ parseTxQueryResult rows.tx = .ok entry.tx

/-- The mempool table admits the record and gives it back as it is. -/
def DbMempoolTx.Lossless (tx : DbMempoolTx String) : Prop :=
  ∃ row, mempoolTxRow tx = .ok row ∧ parseMempoolTxQueryResult row = .ok tx

/-- Parents come first, each hash belongs to one block, each id to one transaction, and the
positions in a block differ. -/
structure ToldApart (calls : List StoreCall) : Prop where
  heightPos : ∀ data ∈ updatesOf calls, 1 ≤ data.block.blockHeight
  parentsFirst : ParentsFirst (updatesOf calls)
  updates : ∀ data ∈ updatesOf calls, data.Lossless
  pending : ∀ tx ∈ pendingOf calls, tx.Lossless
  blockOfHash : ∀ first ∈ updatesOf calls, ∀ second ∈ updatesOf calls,
    first.block.blockHash = second.block.blockHash ∨
      first.block.indexBlockHash = second.block.indexBlockHash → first = second
  txOfId : ∀ first ∈ deliveredTxs calls, ∀ second ∈ deliveredTxs calls,
    first.txId = second.txId → first = second
  txOfPosition : ∀ first ∈ deliveredTxs calls, ∀ second ∈ deliveredTxs calls,
    first.indexBlockHash = second.indexBlockHash → first.txIndex = second.txIndex → first = second
  pendingOfId : ∀ first ∈ pendingOf calls, ∀ second ∈ pendingOf calls,
    first.txId = second.txId → first = second

section Lossless

variable {data : DataStoreUpdateData}

theorem DataStoreUpdateData.Lossless.admissible (lossless : data.Lossless) : data.Admissible := by
  obtain ⟨row, decoded, -⟩ := lossless.block
  refine DataStoreUpdateData.admissible_iff.mpr ⟨⟨row, decoded⟩, fun entry mem => ?_⟩
  obtain ⟨rows, computed, -⟩ := lossless.entries entry mem
  exact ⟨rows, computed⟩

/-- The index hash is written as the tables write it. -/
theorem DataStoreUpdateData.Lossless.indexBlockHash_eq (lossless : data.Lossless) {hash : Buffer}
    (decoded : hexToBuffer data.block.indexBlockHash = .ok hash) :
    data.block.indexBlockHash = bufferToHexPrefixString hash := by
  obtain ⟨row, rowOk, same⟩ := lossless.block
  have rowHash := (blockRow_ok rowOk).indexBlockHash
  rw [decoded] at rowHash
  have text : bufferToHexPrefixString row.indexBlockHash = data.block.indexBlockHash :=
    congrArg DbBlock.indexBlockHash same
  rw [← text, Except.ok.inj rowHash]

/-- So are the ids of its transactions. -/
theorem DataStoreUpdateData.Lossless.txId_eq (lossless : data.Lossless) {entry : TxEntry}
    (mem : entry ∈ data.txs) {txId : Buffer} (decoded : hexToBuffer entry.tx.txId = .ok txId) :
    entry.tx.txId = bufferToHexPrefixString txId := by
  obtain ⟨rows, rowsOk, parsed⟩ := lossless.entries entry mem
  have rowId := (txRow_ok (entryRows_ok rowsOk).tx).txId
  rw [decoded] at rowId
  rw [(parsedTx_of_ok parsed).txId, Except.ok.inj rowId]

end Lossless

namespace ToldApart

variable {first second calls : List StoreCall}

theorem of_prefix (toldApart : ToldApart second) (isPrefix : first <+: second) :
    ToldApart first := by
  obtain ⟨rest, rfl⟩ := isPrefix
  have updates : ∀ data ∈ updatesOf first, data ∈ updatesOf (first ++ rest) := fun data mem => by
    rw [updatesOf_append]
    exact List.mem_append_left _ mem
  have txs : ∀ tx ∈ deliveredTxs first, tx ∈ deliveredTxs (first ++ rest) := fun tx mem => by
    rw [deliveredTxs_append]
    exact List.mem_append_left _ mem
  have pending : ∀ tx ∈ pendingOf first, tx ∈ pendingOf (first ++ rest) := fun tx mem => by
    rw [pendingOf_append]
    exact List.mem_append_left _ mem
  exact
    { heightPos := fun data mem => toldApart.heightPos data (updates data mem)
      parentsFirst := fun past data isPrefix => toldApart.parentsFirst past data
        (isPrefix.trans (by rw [updatesOf_append]; exact List.prefix_append _ _))
      updates := fun data mem => toldApart.updates data (updates data mem)
      pending := fun tx mem => toldApart.pending tx (pending tx mem)
      blockOfHash := fun a aMem b bMem =>
        toldApart.blockOfHash a (updates a aMem) b (updates b bMem)
      txOfId := fun a aMem b bMem => toldApart.txOfId a (txs a aMem) b (txs b bMem)
      txOfPosition := fun a aMem b bMem => toldApart.txOfPosition a (txs a aMem) b (txs b bMem)
      pendingOfId := fun a aMem b bMem =>
        toldApart.pendingOfId a (pending a aMem) b (pending b bMem) }

/-- Decoded index hashes tell the updates apart. -/
theorem eq_of_decoded (toldApart : ToldApart calls) {a b : DataStoreUpdateData}
    (aMem : a ∈ updatesOf calls) (bMem : b ∈ updatesOf calls) {hash : Buffer}
    (aHash : hexToBuffer a.block.indexBlockHash = .ok hash)
    (bHash : hexToBuffer b.block.indexBlockHash = .ok hash) : a = b := by
  apply toldApart.blockOfHash a aMem b bMem
  right
  rw [(toldApart.updates a aMem).indexBlockHash_eq aHash,
    (toldApart.updates b bMem).indexBlockHash_eq bHash]

theorem regular (toldApart : ToldApart calls) : RegularCalls calls where
  consistent :=
    { heightPos := toldApart.heightPos
      canonical := fun data mem => (toldApart.updates data mem).canonical
      identified := fun a aMem b bMem hash aHash bHash => by
        rw [toldApart.eq_of_decoded aMem bMem aHash bHash] }
  attributed data mem := (toldApart.updates data mem).toAttributed

theorem wired (toldApart : ToldApart calls) : WiredCalls calls :=
  fun data mem => (toldApart.updates data mem).toWired

end ToldApart

/-! ## The maps -/

namespace MemoryDataStore

variable {store : MemoryDataStore}

theorem withCanonical_orphanFrom {α : Type} [CanonicalEntity α] (blockHeight : α → Nat)
    (height : Nat) (record : α) :
    withCanonical true (orphanFrom blockHeight height record) = withCanonical true record := by
  rw [orphanFrom]
  split
  · exact withCanonical_withCanonical true false record
  · rfl

/-- A block is set under its hash, and nothing else changes but flags. -/
theorem raised_updateBlock (store : MemoryDataStore) (block : DbBlock String) :
    updateValues (withCanonical true) (store.updateBlock block).blocks =
        setEntry block.blockHash (withCanonical true block)
          (updateValues (withCanonical true) store.blocks) ∧
      updateValues (withCanonical true) (store.updateBlock block).txs =
        updateValues (withCanonical true) store.txs ∧
      (store.updateBlock block).txMempool = store.txMempool := by
  rw [updateBlock]
  split
  · refine ⟨?_, ?_, rfl⟩
    · simp only [updateCanonicalStatus, updateValues_setEntry, updateValues_updateValues,
        withCanonical_orphanFrom]
    · simp only [updateCanonicalStatus, updateValues_updateValues, withCanonical_orphanFrom]
  · exact ⟨updateValues_setEntry _ _ _ _, rfl, rfl⟩

/-- The maps that do not belong to events and contracts. -/
def records (store : MemoryDataStore) :
    List (String × DbBlock String) × List (String × DbTx String) ×
      List (String × DbMempoolTx String) :=
  (store.blocks, store.txs, store.txMempool)

/-- An entry sets its transaction, and touches neither blocks nor the mempool. -/
theorem records_updateEntry (store : MemoryDataStore) (entry : TxEntry) :
    (store.updateEntry entry).records =
      (store.blocks, setEntry entry.tx.txId entry.tx store.txs, store.txMempool) := by
  rw [updateEntry]
  refine List.foldlRecOn (motive := fun after : MemoryDataStore => after.records = _)
    _ _ ?_ fun _ kept _ _ => kept
  refine List.foldlRecOn (motive := fun after : MemoryDataStore => after.records = _)
    _ _ ?_ fun _ kept _ _ => kept
  refine List.foldlRecOn (motive := fun after : MemoryDataStore => after.records = _)
    _ _ ?_ fun _ kept _ _ => kept
  refine List.foldlRecOn (motive := fun after : MemoryDataStore => after.records = _)
    _ _ ?_ fun _ kept _ _ => kept
  exact List.foldlRecOn (motive := fun after : MemoryDataStore => after.records = _)
    _ _ rfl fun _ kept _ _ => kept

theorem records_foldl_updateEntry (entries : List TxEntry) (store : MemoryDataStore) :
    (entries.foldl updateEntry store).records = (store.blocks, (entries.map TxEntry.tx).foldl
      (fun txs tx => setEntry tx.txId tx txs) store.txs, store.txMempool) := by
  induction entries generalizing store with
  | nil => rfl
  | cons entry entries ih =>
      obtain ⟨blocks, kept⟩ := Prod.mk.inj (records_updateEntry store entry)
      obtain ⟨txs, pool⟩ := Prod.mk.inj kept
      rw [List.foldl_cons, ih, blocks, txs, pool]
      rfl

theorem blocks_update (store : MemoryDataStore) (data : DataStoreUpdateData) :
    (store.update data).1.blocks = (store.updateBlock data.block).blocks :=
  congrArg Prod.fst (records_foldl_updateEntry data.txs (store.updateBlock data.block))

theorem txs_update (store : MemoryDataStore) (data : DataStoreUpdateData) :
    (store.update data).1.txs = (data.txs.map TxEntry.tx).foldl
      (fun txs tx => setEntry tx.txId tx txs) (store.updateBlock data.block).txs :=
  congrArg (fun records => records.2.1)
    (records_foldl_updateEntry data.txs (store.updateBlock data.block))

theorem txMempool_update (store : MemoryDataStore) (data : DataStoreUpdateData) :
    (store.update data).1.txMempool = (store.updateBlock data.block).txMempool :=
  congrArg (fun records => records.2.2)
    (records_foldl_updateEntry data.txs (store.updateBlock data.block))

end MemoryDataStore

theorem runMemory_append_singleton (calls : List StoreCall) (call : StoreCall) :
    runMemory (calls ++ [call]) = performMemoryCall (runMemory calls) call :=
  List.foldl_append

/-- Up to flags, the map of blocks is made by setting the delivered ones. -/
theorem raised_runMemory_blocks (calls : List StoreCall) :
    updateValues (withCanonical true) (runMemory calls).blocks =
      setAll (fun block => block.blockHash)
        ((updatesOf calls).map fun data => withCanonical true data.block) := by
  induction calls using List.reverseRecOn with
  | nil => rfl
  | append_singleton past call ih =>
      rw [runMemory_append_singleton]
      cases call with
      | update data =>
          obtain ⟨set, -⟩ := (runMemory past).raised_updateBlock data.block
          rw [performMemoryCall, MemoryDataStore.blocks_update, set, ih, updatesOf_append,
            List.map_append, setAll_append]
          rfl
      | updateMempoolTx mempoolTx =>
          have none : updatesOf [.updateMempoolTx mempoolTx] = [] := rfl
          rw [updatesOf_append, none, List.append_nil]
          exact ih

/-- Up to flags, the map of transactions is made by setting the delivered ones. -/
theorem raised_runMemory_txs (calls : List StoreCall) :
    updateValues (withCanonical true) (runMemory calls).txs =
      setAll (fun tx => tx.txId) ((deliveredTxs calls).map (withCanonical true)) := by
  induction calls using List.reverseRecOn with
  | nil => rfl
  | append_singleton past call ih =>
      rw [runMemory_append_singleton]
      cases call with
      | update data =>
          obtain ⟨-, kept, -⟩ := (runMemory past).raised_updateBlock data.block
          have delivered : deliveredTxs [.update data] = data.txs.map TxEntry.tx :=
            List.append_nil _
          rw [performMemoryCall, MemoryDataStore.txs_update, deliveredTxs_append, delivered,
            List.map_append, setAll_append, ← ih, ← kept]
          have sameId : ∀ tx : DbTx String, (withCanonical true tx).txId = tx.txId := fun _ => rfl
          exact updateValues_foldl_setEntry sameId _ _
      | updateMempoolTx mempoolTx =>
          have none : deliveredTxs [.updateMempoolTx mempoolTx] = [] := rfl
          rw [deliveredTxs_append, none, List.append_nil]
          exact ih

/-- The mempool is made by setting what was inserted. -/
theorem runMemory_txMempool (calls : List StoreCall) :
    (runMemory calls).txMempool = setAll (fun tx => tx.txId) (pendingOf calls) := by
  induction calls using List.reverseRecOn with
  | nil => rfl
  | append_singleton past call ih =>
      rw [runMemory_append_singleton, pendingOf_append, setAll_append, ← ih]
      cases call with
      | update data =>
          obtain ⟨-, -, kept⟩ := (runMemory past).raised_updateBlock data.block
          exact ((runMemory past).txMempool_update data).trans kept
      | updateMempoolTx mempoolTx => rfl

/-! ## The tables -/

/-- Up to flags, the tables hold the rows of the updates, once each. -/
def Stores (db : Db) (updates : List DataStoreUpdateData) : Prop :=
  ∃ stored : List DataStoreUpdateData, (∀ data, data ∈ stored ↔ data ∈ updates) ∧
    raised db.blocks = stored.flatMap DataStoreUpdateData.blockRows ∧
      ∀ table, raised (db.rows table) = stored.flatMap fun data => data.tableRows table

namespace Stores

variable {db : Db} {updates : List DataStoreUpdateData}

theorem empty : Stores Db.empty [] :=
  ⟨[], fun _ => Iff.rfl, rfl, fun table => by cases table <;> rfl⟩

theorem withMempoolTxs (stores : Stores db updates) (pool : List (DbMempoolTx Buffer)) :
    Stores { db with mempoolTxs := pool } updates := by
  obtain ⟨stored, same, blocks, tables⟩ := stores
  refine ⟨stored, same, blocks, fun table => ?_⟩
  rw [← tables]
  cases table <;> rfl

theorem mem_links (stores : Stores db updates) {b : Link Buffer} :
    b ∈ db.links ↔ ∃ data ∈ updates, ∃ row, blockRow data.block = .ok row ∧ row.link = b := by
  obtain ⟨stored, same, blocks, -⟩ := stores
  rw [mem_links_of_blocks blocks]
  exact exists_congr fun data => and_congr_left fun _ => same data

theorem append {reorged pruned db' : Db} {flag flag' : Buffer → Bool} {data : DataStoreUpdateData}
    {row : DbBlock Buffer} (stores : Stores db updates) (rowsInvariant : RowsInvariant db flag)
    (extended : Extended db reorged pruned db' flag flag' data row)
    (accepted : Accepted db data reorged pruned row db') (wired : data.Wired) :
    Stores db' (updates ++ [data]) := by
  obtain ⟨stored, same, blocks, tables⟩ := stores
  obtain ⟨addedBlocks, addedRows⟩ :=
    extended.raised_tables rowsInvariant accepted wired.canonical wired.carries
  refine ⟨stored ++ [data], fun other => ?_, ?_, fun table => ?_⟩
  · rw [List.mem_append, List.mem_append, same]
  · rw [addedBlocks, blocks, List.flatMap_append, List.flatMap_singleton]
  · rw [addedRows, tables, List.flatMap_append, List.flatMap_singleton]

/-- What is delivered again is stored already. -/
theorem repeated (stores : Stores db updates) {data : DataStoreUpdateData} (mem : data ∈ updates) :
    Stores db (updates ++ [data]) := by
  obtain ⟨stored, same, tables⟩ := stores
  refine ⟨stored, fun other => ?_, tables⟩
  rw [same, List.mem_append, List.mem_singleton]
  constructor
  · exact Or.inl
  · rintro (earlier | rfl)
    · exact earlier
    · exact mem

end Stores

section Delivered

variable {past : List StoreCall} {data : DataStoreUpdateData} {db : Db}

/-- The parent of a delivered block is stored. -/
theorem ToldApart.parentStored (toldApart : ToldApart (past ++ [.update data]))
    (stores : Stores db (updatesOf past)) (high : 1 < data.block.blockHeight) :
    ∃ p ∈ db.links, hexToBuffer data.block.parentIndexBlockHash = .ok p.hash ∧
      p.height + 1 = data.block.blockHeight := by
  have delivered : updatesOf past ++ [data] <+: updatesOf (past ++ [.update data]) := by
    rw [updatesOf_append]
    exact List.prefix_refl _
  obtain ⟨p, mem, below, hash, pHash, parentHash⟩ :=
    toldApart.parentsFirst (updatesOf past) data delivered high
  have lossless := toldApart.updates p (delivered.subset (List.mem_append_left _ mem))
  obtain ⟨row, decoded, -⟩ := lossless.block
  have rowOk := blockRow_ok decoded
  have rowHash := rowOk.indexBlockHash
  rw [pHash] at rowHash
  refine ⟨row.link, stores.mem_links.mpr ⟨p, mem, row, decoded, rfl⟩, ?_, ?_⟩
  · rw [parentHash, Except.ok.inj rowHash]
    rfl
  · rw [← below, ← rowOk.blockHeight]
    rfl

/-- An update whose block is stored was delivered before. -/
theorem ToldApart.mem_of_stored (toldApart : ToldApart (past ++ [.update data]))
    (stores : Stores db (updatesOf past)) {b : Link Buffer} (mem : b ∈ db.links)
    (hash : hexToBuffer data.block.indexBlockHash = .ok b.hash) : data ∈ updatesOf past := by
  obtain ⟨earlier, earlierMem, row, decoded, rfl⟩ := stores.mem_links.mp mem
  have same : earlier = data := by
    apply toldApart.eq_of_decoded _ _ (blockRow_ok decoded).indexBlockHash hash
    · rw [updatesOf_append]
      exact List.mem_append_left _ earlierMem
    · exact mem_updatesOf_last past data
  exact same ▸ earlierMem

/-- An update is stored unless it was delivered before, and then nothing changes. -/
theorem ToldApart.commit_update {flag : Buffer → Bool}
    (toldApart : ToldApart (past ++ [.update data])) (invariant : StoreInvariant db flag)
    (linksFrom : LinksFrom (updatesOf past) db.links) (stores : Stores db (updatesOf past)) :
    data ∈ updatesOf past ∧ commit performCall db (.update data) = db ∨
      ∃ reorged pruned row flag',
        Accepted db data reorged pruned row (commit performCall db (.update data)) ∧
          Extended db reorged pruned (commit performCall db (.update data)) flag flag' data
            row := by
  have last := mem_updatesOf_last past data
  have incoming := incoming_of_call toldApart.regular.consistent linksFrom data rfl
  rcases invariant.chain.commit_update incoming with ⟨skipped, same⟩ | extended
  · left
    refine ⟨?_, same⟩
    cases skipped with
    | refused error result =>
        obtain ⟨db', events, ok⟩ := invariant.chain.update_accepts
          (toldApart.updates data last).admissible (toldApart.parentStored stores)
        rw [result] at ok
        cases ok
    | repeated b mem hash => exact toldApart.mem_of_stored stores mem hash
  · exact Or.inr extended

/-- What adds its block to the tables was not delivered before. -/
theorem Extended.not_delivered {reorged pruned db' : Db} {flag flag' : Buffer → Bool}
    {row : DbBlock Buffer} (extended : Extended db reorged pruned db' flag flag' data row)
    (accepted : Accepted db data reorged pruned row db') (lossless : data.Lossless)
    (stores : Stores db (updatesOf past)) : data ∉ updatesOf past := by
  intro mem
  obtain ⟨original, decoded, -⟩ := lossless.block
  obtain ⟨hash, -⟩ := accepted.decodedBlock lossless.canonical
  rw [(blockRow_ok decoded).indexBlockHash] at hash
  exact extended.fresh original.link (stores.mem_links.mpr ⟨data, mem, original, decoded, rfl⟩)
    (Except.ok.inj hash)

end Delivered

/-- After every run the tables hold what was delivered. -/
theorem runStore_stores {calls : List StoreCall} (toldApart : ToldApart calls) :
    Stores (runStore calls) (updatesOf calls) := by
  induction calls using List.reverseRecOn with
  | nil => exact Stores.empty
  | append_singleton past call ih =>
      have earlier := toldApart.of_prefix (List.prefix_append past [call])
      have stores := ih earlier
      obtain ⟨flag, invariant, linksFrom⟩ := runStore_invariant earlier.regular
      rw [runStore_append_singleton]
      cases call with
      | update data =>
          have delivered : updatesOf (past ++ [.update data]) = updatesOf past ++ [data] :=
            updatesOf_append _ _
          have wired := toldApart.wired data
            (delivered ▸ List.mem_append_right _ (List.mem_singleton_self data))
          rw [delivered]
          rcases toldApart.commit_update invariant linksFrom stores with
            ⟨mem, same⟩ | ⟨reorged, pruned, row, flag', accepted, extended⟩
          · rw [same]
            exact stores.repeated mem
          · exact stores.append invariant.rows extended accepted wired
      | updateMempoolTx mempoolTx =>
          have none : updatesOf [.updateMempoolTx mempoolTx] = [] := rfl
          rw [updatesOf_append, none, List.append_nil]
          have incoming : ∀ data, StoreCall.updateMempoolTx mempoolTx = .update data →
              Incoming (runStore past) data := by
            rintro data ⟨⟩
          rcases invariant.chain.commit_performCall incoming with
            ⟨pool, same⟩ | ⟨data, _, _, _, _, isUpdate, _⟩
          · rw [same]
            exact stores.withMempoolTxs pool
          · cases isUpdate

/-! ## Rows and records -/

theorem parseTxQueryResult_withCanonical (value : Bool) (row : DbTx Buffer) :
    parseTxQueryResult (withCanonical value row) =
      (parseTxQueryResult row).map (withCanonical value) := by
  rw [parseTxQueryResult, parseTxQueryResult]
  change parseTxColumns row.toDbTxBase >>= _ = _
  cases parseTxColumns row.toDbTxBase with
  | error error => rfl
  | ok columns => rfl

/-- Rows that are parsed to one record are the same inclusion. -/
theorem inclusion_eq_of_parseRaised {first second : DbTx Buffer} {tx : DbTx String}
    (firstOk : parseRaised parseTxQueryResult first = .ok tx)
    (secondOk : parseRaised parseTxQueryResult second = .ok tx) :
    (first.txId, first.indexBlockHash) = (second.txId, second.indexBlockHash) := by
  obtain ⟨firstTx, firstParsed, rfl⟩ := exists_of_parseRaised firstOk
  obtain ⟨secondTx, secondParsed, same⟩ := exists_of_parseRaised secondOk
  have firstKept := parsedTx_of_ok firstParsed
  have secondKept := parsedTx_of_ok secondParsed
  have sameId := congrArg (fun tx : DbTx String => tx.txId) same
  change firstTx.txId = secondTx.txId at sameId
  have sameHash := congrArg DbTx.indexBlockHash same
  change firstTx.indexBlockHash = secondTx.indexBlockHash at sameHash
  rw [firstKept.txId, secondKept.txId] at sameId
  rw [firstKept.indexBlockHash, secondKept.indexBlockHash] at sameHash
  exact Prod.ext (bufferToHexPrefixString_injective sameId)
    (bufferToHexPrefixString_injective sameHash)

theorem place_of_parseRaised {row : DbTx Buffer} {tx : DbTx String}
    (parsed : parseRaised parseTxQueryResult row = .ok tx) :
    toLex (tx.blockHeight, tx.txIndex) = txOrder row := by
  obtain ⟨record, ok, rfl⟩ := exists_of_parseRaised parsed
  exact (parsedTx_of_ok ok).place

section Records

variable {data : DataStoreUpdateData} {calls : List StoreCall}

theorem DataStoreUpdateData.Lossless.blockRows_eq (lossless : data.Lossless) :
    ∃ row, data.blockRows = [row] ∧ parseBlockQueryResult row = data.block := by
  obtain ⟨row, decoded, parsed⟩ := lossless.block
  refine ⟨withCanonical true row, by rw [DataStoreUpdateData.blockRows, decoded], ?_⟩
  have flag : data.block.canonical = true := lossless.canonical
  change withCanonical true (parseBlockQueryResult row) = data.block
  rw [parsed, ← flag]
  rfl

/-- The row of a transaction, flag raised, is parsed to the transaction. -/
theorem DataStoreUpdateData.Lossless.parse_row (lossless : data.Lossless) {entry : TxEntry}
    (mem : entry ∈ data.txs) {rows : EntryRows} (ok : entryRows entry = .ok rows) :
    parseTxQueryResult (withCanonical true rows.tx) = .ok entry.tx := by
  obtain ⟨rows', ok', parsed⟩ := lossless.entries entry mem
  rw [ok] at ok'
  cases ok'
  have flag : entry.tx.canonical = true := (lossless.carries entry mem).tx
  rw [parseTxQueryResult_withCanonical, parsed, Except.map, ← flag]
  rfl

/-- A transaction whose row is not inserted has the same inclusion as one whose row is. -/
theorem exists_insertedTx {entries : List EntryRows} {rows : EntryRows} (mem : rows ∈ entries) :
    ∃ tx ∈ (entries.foldl Db.addEntry Db.empty).txs, sameInclusion rows.tx tx = true := by
  have found : ((entries.foldl Db.addEntry Db.empty).txs.find? (sameInclusion rows.tx)).isSome := by
    rw [find?_foldl_addEntry, List.find?_isSome]
    exact ⟨rows.tx, List.mem_map_of_mem mem, decide_eq_true ⟨rfl, rfl⟩⟩
  obtain ⟨tx, isFound⟩ := Option.isSome_iff_exists.mp found
  exact ⟨tx, List.mem_of_find?_eq_some isFound, List.find?_some isFound⟩

/-- Each row of a block is one of its transactions. -/
theorem DataStoreUpdateData.Lossless.exists_entry (lossless : data.Lossless) {row : DbTx Buffer}
    (mem : row ∈ data.tableRows .txs) :
    ∃ entry ∈ data.txs, parseTxQueryResult row = .ok entry.tx := by
  obtain ⟨-, entries, -, computed⟩ := lossless.admissible
  rw [DataStoreUpdateData.tableRows, computed] at mem
  obtain ⟨original, originalMem, rfl⟩ := List.mem_map.mp mem
  obtain ⟨rows, rowsMem, inRows⟩ := mem_insertedRows originalMem
  obtain ⟨entry, entryMem, ok⟩ := mem_of_mapM_ok computed rowsMem
  rw [List.mem_singleton.mp inRows]
  exact ⟨entry, entryMem, lossless.parse_row entryMem ok⟩

/-- Each transaction of a block is in its rows, and they hold nothing else. -/
theorem ToldApart.tableRows_txs (toldApart : ToldApart calls) (mem : data ∈ updatesOf calls)
    (tx : DbTx String) :
    (∃ row : DbTx Buffer, row ∈ data.tableRows .txs ∧ parseTxQueryResult row = .ok tx) ↔
      ∃ entry ∈ data.txs, entry.tx = tx := by
  have lossless := toldApart.updates data mem
  constructor
  · rintro ⟨row, rowMem, parsed⟩
    obtain ⟨entry, entryMem, ok⟩ := lossless.exists_entry rowMem
    rw [parsed] at ok
    exact ⟨entry, entryMem, (Except.ok.inj ok).symm⟩
  · rintro ⟨entry, entryMem, rfl⟩
    obtain ⟨-, entries, -, computed⟩ := lossless.admissible
    obtain ⟨rows, rowsMem, ok⟩ := exists_of_mapM_ok computed entryMem
    obtain ⟨inserted, insertedMem, same⟩ := exists_insertedTx rowsMem
    have inTable : withCanonical true inserted ∈ data.tableRows .txs := by
      rw [DataStoreUpdateData.tableRows, computed]
      exact List.mem_map_of_mem insertedMem
    obtain ⟨other, otherMem, parsed⟩ := lossless.exists_entry inTable
    refine ⟨withCanonical true inserted, inTable, ?_⟩
    -- the inserted row has the id of the entry, which belongs to one transaction
    have sameId : other.tx.txId = entry.tx.txId := by
      rw [(parsedTx_of_ok parsed).txId, (parsedTx_of_ok (lossless.parse_row entryMem ok)).txId]
      exact congrArg bufferToHexPrefixString (of_decide_eq_true same).1.symm
    have delivered : ∀ entry ∈ data.txs, entry.tx ∈ deliveredTxs calls := fun entry entryMem =>
      mem_deliveredTxs.mpr ⟨data, mem, entry, entryMem, rfl⟩
    rw [parsed, toldApart.txOfId _ (delivered other otherMem) _ (delivered entry entryMem) sameId]

end Records

/-! ## Both stores -/

section Run

variable {calls : List StoreCall}

/-- Up to flags, the table and the map of blocks hold the delivered blocks. -/
theorem ToldApart.mem_blocks_iff (toldApart : ToldApart calls) (block : DbBlock String) :
    (∃ row ∈ (runStore calls).blocks,
        parseRaised (fun row => .ok (parseBlockQueryResult row)) row = .ok block) ↔
      ∃ data ∈ updatesOf calls, data.block = block := by
  obtain ⟨stored, same, blocks, -⟩ := runStore_stores toldApart
  constructor
  · rintro ⟨row, mem, parsed⟩
    have inRaised : withCanonical true row ∈ raised (runStore calls).blocks :=
      List.mem_map_of_mem mem
    rw [blocks] at inRaised
    obtain ⟨data, dataMem, inRows⟩ := List.mem_flatMap.mp inRaised
    have delivered := (same data).mp dataMem
    obtain ⟨original, rows, own⟩ := (toldApart.updates data delivered).blockRows_eq
    rw [rows, List.mem_singleton] at inRows
    have parsedRaised : Except.ok (parseBlockQueryResult (withCanonical true row)) =
        (Except.ok block : Except ApiError _) := parsed
    refine ⟨data, delivered, ?_⟩
    rw [← own, ← inRows]
    exact Except.ok.inj parsedRaised
  · rintro ⟨data, mem, rfl⟩
    obtain ⟨original, rows, own⟩ := (toldApart.updates data mem).blockRows_eq
    have inRaised : original ∈ raised (runStore calls).blocks := by
      rw [blocks]
      refine List.mem_flatMap.mpr ⟨data, (same data).mpr mem, ?_⟩
      rw [rows]
      exact List.mem_singleton_self original
    obtain ⟨row, rowMem, rfl⟩ := List.mem_map.mp inRaised
    exact ⟨row, rowMem, congrArg Except.ok own⟩

theorem ToldApart.parses_txs (toldApart : ToldApart calls) {row : DbTx Buffer}
    (mem : row ∈ (runStore calls).txs) :
    ∃ tx ∈ deliveredTxs calls, parseRaised parseTxQueryResult row = .ok tx := by
  obtain ⟨stored, same, -, tables⟩ := runStore_stores toldApart
  have rows : raised (runStore calls).txs = stored.flatMap fun data => data.tableRows .txs :=
    tables .txs
  have inRaised : withCanonical true row ∈ raised (runStore calls).txs := List.mem_map_of_mem mem
  rw [rows] at inRaised
  obtain ⟨data, dataMem, inRows⟩ := List.mem_flatMap.mp inRaised
  have delivered := (same data).mp dataMem
  obtain ⟨entry, entryMem, parsed⟩ := (toldApart.updates data delivered).exists_entry inRows
  rw [parseTxQueryResult_withCanonical] at parsed
  exact ⟨entry.tx, mem_deliveredTxs.mpr ⟨data, delivered, entry, entryMem, rfl⟩, parsed⟩

/-- Up to flags, the table and the map of transactions hold the delivered ones. -/
theorem ToldApart.mem_txs_iff (toldApart : ToldApart calls) (tx : DbTx String) :
    (∃ row ∈ (runStore calls).txs, parseRaised parseTxQueryResult row = .ok tx) ↔
      tx ∈ deliveredTxs calls := by
  constructor
  · rintro ⟨row, mem, parsed⟩
    obtain ⟨delivered, deliveredMem, ok⟩ := toldApart.parses_txs mem
    rw [parsed] at ok
    rw [Except.ok.inj ok]
    exact deliveredMem
  · intro delivered
    obtain ⟨data, mem, entry⟩ := mem_deliveredTxs.mp delivered
    obtain ⟨stored, same, -, tables⟩ := runStore_stores toldApart
    have rows : raised (runStore calls).txs = stored.flatMap fun data => data.tableRows .txs :=
      tables .txs
    obtain ⟨row, inRows, parsed⟩ := (toldApart.tableRows_txs mem tx).mpr entry
    have inRaised : row ∈ raised (runStore calls).txs := by
      rw [rows]
      exact List.mem_flatMap.mpr ⟨data, (same data).mpr mem, inRows⟩
    obtain ⟨original, originalMem, rfl⟩ := List.mem_map.mp inRaised
    refine ⟨original, originalMem, ?_⟩
    rw [parseRaised, ← parseTxQueryResult_withCanonical]
    exact parsed

theorem ToldApart.mem_mapValues_blocks_iff (toldApart : ToldApart calls)
    (block : DbBlock String) :
    block ∈ mapValues (updateValues (withCanonical true) (runMemory calls).blocks) ↔
      ∃ data ∈ updatesOf calls, data.block = block := by
  have unchanged : (updatesOf calls).map (fun data => withCanonical true data.block) =
      (updatesOf calls).map DataStoreUpdateData.block := by
    apply List.map_congr_left
    intro data mem
    rw [← (toldApart.updates data mem).canonical]
    rfl
  rw [raised_runMemory_blocks, unchanged, mem_setAll_iff, List.mem_map]
  intro first firstMem second secondMem sameHash
  obtain ⟨a, aMem, rfl⟩ := List.mem_map.mp firstMem
  obtain ⟨b, bMem, rfl⟩ := List.mem_map.mp secondMem
  rw [toldApart.blockOfHash a aMem b bMem (Or.inl sameHash)]

theorem ToldApart.mem_mapValues_txs_iff (toldApart : ToldApart calls) (tx : DbTx String) :
    tx ∈ mapValues (updateValues (withCanonical true) (runMemory calls).txs) ↔
      tx ∈ deliveredTxs calls := by
  have unchanged : (deliveredTxs calls).map (withCanonical true) = deliveredTxs calls := by
    rw [List.map_congr_left, List.map_id]
    intro tx mem
    obtain ⟨data, dataMem, entry, entryMem, rfl⟩ := mem_deliveredTxs.mp mem
    rw [← ((toldApart.updates data dataMem).carries entry entryMem).tx]
    rfl
  rw [raised_runMemory_txs, unchanged, mem_setAll_iff toldApart.txOfId]

/-- After every run both stores hold the same blocks and transactions, but for the flags. -/
theorem runStore_mirroredRaised (toldApart : ToldApart calls) :
    MirroredRaised (runStore calls) (runMemory calls) := by
  have keys := runMemory_keys calls
  refine ⟨?_, ?_, keys⟩
  · obtain ⟨flag, invariant, -⟩ := runStore_invariant toldApart.regular
    have values := (keys.blocks.updateValues (f := withCanonical true) fun _ => rfl).nodup_map_keyOf
    refine Mirrors.of_mem_iff (nodup_indexBlockHash invariant.chain.grounded)
      (List.Nodup.of_map _ values) ?_ (fun row _ => ⟨_, rfl⟩) fun block => ?_
    · intro first second block firstOk secondOk
      have same := congrArg DbBlock.indexBlockHash (Except.ok.inj (firstOk.trans secondOk.symm))
      exact bufferToHexPrefixString_injective same
    · rw [toldApart.mem_blocks_iff, toldApart.mem_mapValues_blocks_iff]
  · have values := (keys.txs.updateValues (f := withCanonical true) fun _ => rfl).nodup_map_keyOf
    refine Mirrors.of_mem_iff (runStore_inclusionsUnique calls) (List.Nodup.of_map _ values) ?_ ?_
      fun tx => ?_
    · exact fun _ _ _ => inclusion_eq_of_parseRaised
    · intro row mem
      obtain ⟨tx, -, parsed⟩ := toldApart.parses_txs mem
      exact ⟨tx, parsed⟩
    · rw [toldApart.mem_txs_iff, toldApart.mem_mapValues_txs_iff]

end Run

end StacksApi.Datastore
