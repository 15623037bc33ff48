import StacksApi.Datastore.Rows

/-!
# Mempool and canonical transactions

No id stands both in the mempool and in a canonical row of `txs`.  Rows that
become canonical in a reorganisation and the transactions of a new canonical
block are removed from the mempool, but for the coinbase transactions of the
block; an insertion into the mempool does not look at `txs`.
-/

namespace StacksApi.Datastore

open StacksApi.Binary
open StacksApi.Relational
open StacksApi.Transition
open CanonicalEntity

/-- No pending transaction is mined on the canonical chain. -/
def MempoolDisjoint (db : Db) : Prop :=
  ∀ tx ∈ db.txs, tx.canonical = true → ∀ pending ∈ db.mempoolTxs, pending.txId ≠ tx.txId

theorem MempoolDisjoint.empty : MempoolDisjoint Db.empty := by
  rintro tx ⟨⟩

/-! ## Reorganisations -/

/-- A canonical row after a level was canonical before or has become so in it. -/
theorem mem_levelRows {α : Type} [Flagged α Buffer] {restored : DbBlock Buffer}
    {orphaned : List (DbBlock Buffer)} {rows : List α} {row : α}
    (mem : row ∈ (levelRows restored orphaned rows).1) (raisedRow : Flagged.flag row = true) :
    row ∈ rows ∨ row ∈ (levelRows restored orphaned rows).2 := by
  rcases mem_updateRows mem with unmarked | marked
  · cases orphaned with
    | nil => exact Or.inl unmarked
    | cons orphan rest =>
        rcases mem_updateRows unmarked with old | lowered
        · exact Or.inl old
        · have isLowered : Flagged.flag row = false := flag_of_mem_setFlag_snd lowered
          rw [raisedRow] at isLowered
          cases isLowered
  · exact Or.inr marked

theorem MempoolDisjoint.exchanged {db db' : Db} {indexBlockHash : Buffer}
    {restored : DbBlock Buffer} (disjoint : MempoolDisjoint db)
    (exchanged : Exchanged (db.markBlock indexBlockHash) restored db') : MempoolDisjoint db' := by
  intro tx mem canonical pending pendingMem
  obtain ⟨inPool, notMarked⟩ := (exchanged.mempoolTxs pending).mp pendingMem
  have txs : db'.txs = _ := exchanged.rows .txs
  rw [txs] at mem
  rcases mem_levelRows mem canonical with old | marked
  · exact disjoint tx old canonical pending inPool
  · intro same
    exact notMarked (same ▸ List.mem_map_of_mem marked)

theorem MempoolDisjoint.handleReorg {db db' : Db} {block : DbBlock String} {chainTipHeight : Nat}
    {updated : UpdatedEntities} (disjoint : MempoolDisjoint db)
    (handled : handleReorg db block chainTipHeight = .ok (db', updated)) : MempoolDisjoint db' :=
  handleReorg_induction (fun _ _ _ _ holds _ exchanged => holds.exchanged exchanged) disjoint
    handled

/-! ## Updates -/

/-- A block that becomes the tip brings no coinbase transaction that is pending. -/
def CoinbasesNotPending (db : Db) (data : DataStoreUpdateData) : Prop :=
  Heightens db data → ∀ entry ∈ data.txs, entry.tx.typeId = .coinbase →
    ∀ pending ∈ db.mempoolTxs, hexToBuffer entry.tx.txId ≠ .ok pending.txId

section Step

variable {db reorged pruned db' : Db} {data : DataStoreUpdateData} {row : DbBlock Buffer}

theorem Accepted.mempoolTxs (accepted : Accepted db data reorged pruned row db') :
    db'.mempoolTxs = pruned.mempoolTxs := by
  rcases accepted.store with ⟨-, rfl⟩ | ⟨-, rows, -, rfl⟩
  · rfl
  · rw [Db.mempoolTxs_foldl_addEntry]

/-- An update removes mempool rows and adds none. -/
theorem Accepted.sublist_mempoolTxs (accepted : Accepted db data reorged pruned row db') :
    db'.mempoolTxs.Sublist db.mempoolTxs := by
  obtain ⟨counts, handled⟩ := accepted.reorg
  rw [accepted.mempoolTxs]
  refine List.Sublist.trans ?_ (handleReorg_sublist handled)
  by_cases high : Heightens db data
  · obtain ⟨buffers, -, rfl⟩ := accepted.prune high
    exact Db.sublist_withoutMempoolTxs reorged buffers
  · rw [accepted.keep high]

/-- What is pending after an update was pending before. -/
theorem Accepted.pending_of_mem (accepted : Accepted db data reorged pruned row db')
    {pending : DbMempoolTx Buffer} (mem : pending ∈ db'.mempoolTxs) :
    pending ∈ reorged.mempoolTxs ∧ pending ∈ db.mempoolTxs := by
  rw [accepted.mempoolTxs] at mem
  have inReorged : pending ∈ reorged.mempoolTxs := by
    by_cases high : Heightens db data
    · obtain ⟨buffers, -, rfl⟩ := accepted.prune high
      exact (Db.mem_withoutMempoolTxs.mp mem).1
    · rw [← accepted.keep high]
      exact mem
  obtain ⟨counts, handled⟩ := accepted.reorg
  exact ⟨inReorged, (handleReorg_remarked handled).mempoolTxs pending inReorged⟩

/-- The transactions of a new tip are not pending, but for its coinbases. -/
theorem Accepted.not_pending (accepted : Accepted db data reorged pruned row db')
    (high : Heightens db data) {entry : TxEntry} (mem : entry ∈ data.txs)
    (notCoinbase : entry.tx.typeId ≠ .coinbase) {txId : Buffer}
    (decoded : hexToBuffer entry.tx.txId = .ok txId) :
    ∀ pending ∈ db'.mempoolTxs, pending.txId ≠ txId := by
  intro pending pendingMem same
  obtain ⟨buffers, buffersOk, pruned_eq⟩ := accepted.prune high
  rw [accepted.mempoolTxs, pruned_eq] at pendingMem
  have candidate : entry.tx.txId ∈ candidateTxIds data := List.mem_map_of_mem
    (List.mem_filter.mpr ⟨mem, decide_eq_true notCoinbase⟩)
  obtain ⟨buffer, bufferMem, bufferOk⟩ := exists_of_mapM_ok buffersOk candidate
  rw [decoded] at bufferOk
  cases bufferOk
  exact (Db.mem_withoutMempoolTxs.mp pendingMem).2 (same ▸ bufferMem)

/-- An accepted update keeps the tables disjoint as long as its coinbases are not
pending. -/
theorem MempoolDisjoint.update (disjoint : MempoolDisjoint db)
    (accepted : Accepted db data reorged pruned row db')
    (coinbases : CoinbasesNotPending db data) : MempoolDisjoint db' := by
  obtain ⟨counts, handled⟩ := accepted.reorg
  intro tx mem canonical pending pendingMem
  obtain ⟨inReorged, inBefore⟩ := accepted.pending_of_mem pendingMem
  rcases accepted.mem_reorged_or_entry .txs mem with
    old | ⟨entry, entryMem, rows, decoded, new⟩
  · exact (disjoint.handleReorg handled) tx old canonical pending inReorged
  · obtain rfl : tx = rows.tx := List.mem_singleton.mp new
    have decodedTx := txRow_ok decoded.tx
    by_cases high : Heightens db data
    · rw [DataStoreUpdateData.settled, if_pos high] at entryMem
      by_cases isCoinbase : entry.tx.typeId = .coinbase
      · intro same
        apply coinbases high entry entryMem isCoinbase pending inBefore
        rw [same]
        exact decodedTx.txId
      · exact accepted.not_pending high entryMem isCoinbase decodedTx.txId pending pendingMem
    · -- the rows of a fork block are not canonical
      rw [DataStoreUpdateData.settled, if_neg high] at entryMem
      obtain ⟨original, -, rfl⟩ := List.mem_map.mp entryMem
      rw [decodedTx.columns] at canonical
      cases canonical

end Step

/-! ## Insertions -/

theorem MempoolDisjoint.insert {db : Db} {row : DbMempoolTx Buffer}
    (disjoint : MempoolDisjoint db)
    (notMined : ∀ tx ∈ db.txs, tx.canonical = true → row.txId ≠ tx.txId) :
    MempoolDisjoint { db with mempoolTxs := db.mempoolTxs ++ [row] } := by
  intro tx mem canonical pending pendingMem
  rcases List.mem_append.mp pendingMem with old | new
  · exact disjoint tx mem canonical pending old
  · rw [List.mem_singleton.mp new]
    exact notMined tx mem canonical

end StacksApi.Datastore
