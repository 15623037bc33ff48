import StacksApi.Datastore.Tables
import StacksApi.Transition.Fallible

/-!
# Accepted and refused updates

An accepted update is a reorganisation, a removal of mempool rows, and either a
conflict on the index hash of the block or the insertion of the block and of the
rows of its entries.  An update is refused with a reorganisation error only by
`handleReorg`; all other failures are about its own data.
-/

namespace StacksApi.Datastore

open StacksApi.Binary
open StacksApi.Relational
open StacksApi.Transition
open CanonicalEntity

/-- The block is of greater height than the chain tip. -/
def Heightens (db : Db) (data : DataStoreUpdateData) : Prop :=
  (getChainTipHeight db).blockHeight < data.block.blockHeight

instance (db : Db) (data : DataStoreUpdateData) : Decidable (Heightens db data) :=
  inferInstanceAs (Decidable (_ < _))

/-- The data as it is stored and announced. -/
def DataStoreUpdateData.settled (data : DataStoreUpdateData) (db : Db) : DataStoreUpdateData :=
  if Heightens db data then data else data.markNonCanonical

/-- The steps of an accepted update from `db` to `db'`. -/
structure Accepted (db : Db) (data : DataStoreUpdateData) (reorged pruned : Db)
    (row : DbBlock Buffer) (db' : Db) : Prop where
  reorg : ∃ counts,
    handleReorg db data.block (getChainTipHeight db).blockHeight = .ok (reorged, counts)
  prune : Heightens db data → ∃ buffers, (candidateTxIds data).mapM hexToBuffer = .ok buffers ∧
    pruned = reorged.withoutMempoolTxs buffers
  keep : ¬ Heightens db data → pruned = reorged
  decoded : blockRow (data.settled db).block = .ok row
  store : (∃ stored ∈ pruned.blocks, stored.indexBlockHash = row.indexBlockHash) ∧ db' = pruned ∨
    (∀ stored ∈ pruned.blocks, stored.indexBlockHash ≠ row.indexBlockHash) ∧
      ∃ rows, (data.settled db).txs.mapM entryRows = .ok rows ∧
        db' = rows.foldl Db.addEntry { pruned with blocks := pruned.blocks ++ [row] }

/-- What `storeBlock` does to the tables. -/
theorem storeBlock_ok {db db' : Db} {data : DataStoreUpdateData}
    (stored : storeBlock db data = .ok db') : ∃ row, blockRow data.block = .ok row ∧
    ((∃ stored ∈ db.blocks, stored.indexBlockHash = row.indexBlockHash) ∧ db' = db ∨
      (∀ stored ∈ db.blocks, stored.indexBlockHash ≠ row.indexBlockHash) ∧
        ∃ rows, data.txs.mapM entryRows = .ok rows ∧
          db' = rows.foldl Db.addEntry { db with blocks := db.blocks ++ [row] }) := by
  rw [storeBlock, updateBlock] at stored
  cases decoded : blockRow data.block with
  | error error =>
      rw [decoded] at stored
      cases stored
  | ok row =>
      refine ⟨row, rfl, ?_⟩
      rw [decoded] at stored
      simp only [bind, Except.bind, pure, Except.pure] at stored
      cases conflict :
          db.blocks.any fun stored => decide (row.indexBlockHash = stored.indexBlockHash) with
      | true =>
          left
          rw [insertRow_of_conflict conflict] at stored
          obtain ⟨original, mem, same⟩ := List.any_eq_true.mp conflict
          cases stored
          exact ⟨⟨original, mem, (of_decide_eq_true same).symm⟩, rfl⟩
      | false =>
          right
          rw [insertRow_of_fresh conflict] at stored
          constructor
          · intro original mem same
            exact List.any_eq_false.mp conflict original mem (decide_eq_true same.symm)
          · simp only [ne_eq, one_ne_zero, not_false_eq_true, if_true] at stored
            rw [foldlM_updateEntry] at stored
            cases computed : data.txs.mapM entryRows with
            | error error =>
                rw [computed] at stored
                cases stored
            | ok rows =>
                rw [computed] at stored
                cases stored
                exact ⟨rows, rfl, rfl⟩

theorem update_ok {db db' : Db} {data : DataStoreUpdateData} {events : List DataStoreEvent}
    (accepted : update db data = .ok (db', events)) :
    events = updateEvents (data.settled db) ∧
      ∃ reorged pruned row, Accepted db data reorged pruned row db' := by
  rw [update] at accepted
  obtain ⟨⟨reorged, counts⟩, handled, accepted⟩ := Except.bind_eq_ok.mp accepted
  by_cases high : Heightens db data
  · have isCanonical :
        decide (data.block.blockHeight > (getChainTipHeight db).blockHeight) = true :=
      decide_eq_true high
    have settled : data.settled db = data := if_pos high
    simp only [isCanonical, if_true] at accepted
    obtain ⟨pruned, prune, accepted⟩ := Except.bind_eq_ok.mp accepted
    obtain ⟨⟨kept, removed⟩, prune, same⟩ := Except.bind_eq_ok.mp prune
    obtain ⟨buffers, decodedIds, kept_eq⟩ := pruneMempoolTxs_ok prune
    obtain ⟨stored, store, result⟩ := Except.bind_eq_ok.mp accepted
    obtain ⟨row, decoded, outcome⟩ := storeBlock_ok store
    cases same
    cases result
    rw [settled]
    exact ⟨rfl, reorged, pruned, row,
      { reorg := ⟨counts, handled⟩
        prune := fun _ => ⟨buffers, decodedIds, kept_eq⟩
        keep := fun low => absurd high low
        decoded := by rw [settled]; exact decoded
        store := by rw [settled]; exact outcome }⟩
  · have notCanonical :
        decide (data.block.blockHeight > (getChainTipHeight db).blockHeight) = false :=
      decide_eq_false high
    have settled : data.settled db = data.markNonCanonical := if_neg high
    simp only [notCanonical, Bool.false_eq_true, if_false] at accepted
    obtain ⟨pruned, same, accepted⟩ := Except.bind_eq_ok.mp accepted
    obtain ⟨stored, store, result⟩ := Except.bind_eq_ok.mp accepted
    obtain ⟨row, decoded, outcome⟩ := storeBlock_ok store
    cases same
    cases result
    rw [settled]
    exact ⟨rfl, reorged, reorged, row,
      { reorg := ⟨counts, handled⟩
        prune := fun higher => absurd higher high
        keep := fun _ => rfl
        decoded := by rw [settled]; exact decoded
        store := by rw [settled]; exact outcome }⟩

/-! ## Mempool insertions -/

/-- A row of the mempool keeps the columns of its record. -/
structure DecodedMempool (tx : DbMempoolTx String) (row : DbMempoolTx Buffer) : Prop where
  txId : hexToBuffer tx.txId = .ok row.txId
  columns : row = { toDbTxBase := tx.toDbTxBase.withTxId row.txId, receiptTime := tx.receiptTime }
  admitted : row.admitted = true

theorem mempoolTxRow_ok {tx : DbMempoolTx String} {row : DbMempoolTx Buffer}
    (decoded : mempoolTxRow tx = .ok row) : DecodedMempool tx row := by
  rw [mempoolTxRow] at decoded
  obtain ⟨txId, txIdOk, decoded⟩ := Except.bind_eq_ok.mp decoded
  rw [admitRow] at decoded
  split at decoded
  · next admitted =>
      cases decoded
      exact ⟨txIdOk, rfl, admitted⟩
  · cases decoded

/-- A mempool transaction is inserted and announced unless its id is present. -/
theorem updateMempoolTx_ok {db db' : Db} {mempoolTx : DbMempoolTx String}
    {events : List DataStoreEvent} (ok : updateMempoolTx db mempoolTx = .ok (db', events)) :
    ∃ row, mempoolTxRow mempoolTx = .ok row ∧
      ((∃ stored ∈ db.mempoolTxs, stored.txId = row.txId) ∧ db' = db ∧ events = [] ∨
        (∀ stored ∈ db.mempoolTxs, stored.txId ≠ row.txId) ∧
          db' = { db with mempoolTxs := db.mempoolTxs ++ [row] } ∧
          events = [.mempoolTxUpdate mempoolTx]) := by
  rw [updateMempoolTx] at ok
  obtain ⟨row, decoded, ok⟩ := Except.bind_eq_ok.mp ok
  refine ⟨row, decoded, ?_⟩
  cases conflict : db.mempoolTxs.any fun stored => decide (row.txId = stored.txId) with
  | true =>
      left
      rw [insertRow_of_conflict conflict] at ok
      obtain ⟨stored, mem, same⟩ := List.any_eq_true.mp conflict
      cases ok
      exact ⟨⟨stored, mem, (of_decide_eq_true same).symm⟩, rfl, rfl⟩
  | false =>
      right
      rw [insertRow_of_fresh conflict] at ok
      cases ok
      refine ⟨?_, rfl, rfl⟩
      intro stored mem same
      exact List.any_eq_false.mp conflict stored mem (decide_eq_true same.symm)

/-! ## Refused updates -/

/-- No error of the computation is one of a reorganisation. -/
def NoReorgError {α : Type} (result : Except ApiError α) : Prop :=
  ∀ fault, result ≠ .error (.reorg fault)

namespace NoReorgError

variable {α β : Type}

theorem ok (value : α) : NoReorgError (.ok value) := by
  rintro fault ⟨⟩

theorem bind {first : Except ApiError α} {next : α → Except ApiError β}
    (firstFree : NoReorgError first) (nextFree : ∀ value, NoReorgError (next value)) :
    NoReorgError (first >>= next) := by
  intro fault
  cases first with
  | error error =>
      intro same
      cases same
      exact firstFree fault rfl
  | ok value => exact nextFree value fault

theorem map {first : Except ApiError α} (f : α → β) (firstFree : NoReorgError first) :
    NoReorgError (first.map f) := by
  intro fault same
  cases first with
  | error error =>
      cases same
      exact firstFree fault rfl
  | ok value => cases same

theorem mapM {f : α → Except ApiError β} (free : ∀ item, NoReorgError (f item))
    (items : List α) : NoReorgError (items.mapM f) := by
  induction items with
  | nil => exact ok []
  | cons item items ih =>
      rw [List.mapM_cons]
      exact bind (free item) fun _ => bind ih fun _ => ok _

theorem hexToBuffer (hex : String) : NoReorgError (hexToBuffer hex) := by
  intro fault
  rw [StacksApi.hexToBuffer]
  split
  · rintro ⟨⟩
  · split
    · rintro ⟨⟩
    · rintro ⟨⟩

theorem admitRow (table : String) (admitted : α → Bool) (row : α) :
    NoReorgError (admitRow table admitted row) := by
  intro fault
  rw [Datastore.admitRow]
  split <;> rintro ⟨⟩

theorem blockRow (block : DbBlock String) : NoReorgError (blockRow block) :=
  bind (hexToBuffer _) fun _ => bind (hexToBuffer _) fun _ => bind (hexToBuffer _) fun _ =>
    bind (hexToBuffer _) fun _ => bind (hexToBuffer _) fun _ => admitRow _ _ _

theorem rawResultColumn (rawResult : Option String) :
    NoReorgError (rawResultColumn rawResult) := by
  rw [Datastore.rawResultColumn.eq_def]
  split
  · exact ok none
  · exact ok none
  · exact map some (hexToBuffer _)

theorem txRow (tx : DbTx String) : NoReorgError (txRow tx) :=
  bind (hexToBuffer _) fun _ => bind (hexToBuffer _) fun _ => bind (hexToBuffer _) fun _ =>
    bind (rawResultColumn _) fun _ => admitRow _ _ _

theorem inBlockRow (table : String) (admitted : α → Bool) (tx : DbTx String) (txId : String)
    (entity : Buffer → α) : NoReorgError (inBlockRow table admitted tx txId entity) :=
  bind (hexToBuffer _) fun _ => bind (hexToBuffer _) fun _ => bind (admitRow _ _ _) fun _ => ok _

theorem entryRows (entry : TxEntry) : NoReorgError (entryRows entry) :=
  bind (txRow _) fun _ => bind (mapM (fun _ => inBlockRow _ _ _ _ _) _) fun _ =>
    bind (mapM (fun _ => inBlockRow _ _ _ _ _) _) fun _ =>
      bind (mapM (fun _ => inBlockRow _ _ _ _ _) _) fun _ =>
        bind (mapM (fun _ => inBlockRow _ _ _ _ _) _) fun _ =>
          bind (mapM (fun _ => inBlockRow _ _ _ _ _) _) fun _ => ok _

theorem pruneNewlyMined (db : Db) (data : DataStoreUpdateData) :
    NoReorgError (pruneNewlyMined db data) := by
  refine bind ?_ fun _ => ok _
  rw [pruneMempoolTxs.eq_def]
  split
  · exact ok _
  · exact bind (mapM hexToBuffer _) fun _ => ok _

theorem storeBlock (db : Db) (data : DataStoreUpdateData) : NoReorgError (storeBlock db data) := by
  refine bind (bind (blockRow _) fun _ => ok _) fun (stored, blocksUpdated) => ?_
  by_cases inserted : blocksUpdated ≠ 0
  · simp only [if_pos inserted, foldlM_updateEntry]
    exact map _ (mapM entryRows _)
  · simp only [if_neg inserted]
    exact ok _

end NoReorgError

/-- A reorganisation error of an update is one of `handleReorg`. -/
theorem update_reorg_error {db : Db} {data : DataStoreUpdateData} {fault : ReorgFault}
    (refused : update db data = .error (.reorg fault)) :
    handleReorg db data.block (getChainTipHeight db).blockHeight = .error (.reorg fault) := by
  rw [update] at refused
  cases handled : handleReorg db data.block (getChainTipHeight db).blockHeight with
  | error error =>
      rw [handled] at refused
      cases refused
      rfl
  | ok result =>
      rw [handled] at refused
      refine absurd refused (NoReorgError.bind (NoReorgError.ok result) (fun result => ?_) fault)
      dsimp only
      split
      · exact NoReorgError.bind (NoReorgError.pruneNewlyMined _ _) fun _ =>
          NoReorgError.bind (NoReorgError.storeBlock _ _) fun _ => NoReorgError.ok _
      · exact NoReorgError.bind (NoReorgError.ok _) fun _ =>
          NoReorgError.bind (NoReorgError.storeBlock _ _) fun _ => NoReorgError.ok _

end StacksApi.Datastore
