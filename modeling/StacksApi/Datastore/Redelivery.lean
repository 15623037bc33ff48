import StacksApi.Datastore.Admissible
import StacksApi.Datastore.StoreRun

/-!
# Updates that arrive again

An update that was accepted once finds its block, the parent of its block and
nothing new to store.  No stored block is higher than the chain tip, so that it is
neither the start of a reorganisation nor a new tip either, and all tables stay as
they are.
-/

namespace StacksApi.Datastore

open StacksApi.Binary
open StacksApi.Chain
open StacksApi.Relational
open StacksApi.Transition
open CanonicalEntity

/-- What an accepted update leaves behind for good. -/
structure Known (db : Db) (data : DataStoreUpdateData) : Prop where
  decoded : ∃ row, blockRow data.block = .ok row
  stored : ∃ b ∈ db.links, hexToBuffer data.block.indexBlockHash = .ok b.hash
  parent : 1 < data.block.blockHeight → ∃ p ∈ db.links,
    hexToBuffer data.block.parentIndexBlockHash = .ok p.hash ∧
      p.height + 1 = data.block.blockHeight

theorem Known.mono {db db' : Db} {data : DataStoreUpdateData} (known : Known db data)
    (subset : db.links ⊆ db'.links) : Known db' data where
  decoded := known.decoded
  stored := by
    obtain ⟨b, mem, hash⟩ := known.stored
    exact ⟨b, subset mem, hash⟩
  parent high := by
    obtain ⟨p, mem, below⟩ := known.parent high
    exact ⟨p, subset mem, below⟩

section Step

variable {db db' : Db} {flag : Buffer → Bool} {data : DataStoreUpdateData}

/-- An accepted update is known, whether its block was stored before or not. -/
theorem ChainInvariant.known (invariant : ChainInvariant db flag) (incoming : Incoming db data)
    {events : List DataStoreEvent} (ok : update db data = .ok (db', events)) : Known db' data := by
  obtain ⟨-, reorged, pruned, row, accepted⟩ := update_ok ok
  obtain ⟨hash, -⟩ := accepted.decodedBlock incoming.canonical
  obtain ⟨flag', prepared⟩ := accepted.prepared invariant
  have settled := accepted.decoded
  rw [blockRow_settled] at settled
  obtain ⟨delivered, decoded, -⟩ := Except.map_eq_ok.mp settled
  rcases accepted.chain invariant incoming with ⟨⟨stored, mem, same⟩, rfl⟩ | ⟨reflagged, extended⟩
  · refine ⟨⟨delivered, decoded⟩, ⟨stored.link, List.mem_map_of_mem mem, ?_⟩, ?_⟩
    · rw [hash, ← same]
      rfl
    · intro high
      obtain ⟨p, pMem, parentHash, below, -⟩ := prepared.parent high
      exact ⟨p, pMem, parentHash, below⟩
  · refine ⟨⟨delivered, decoded⟩, ⟨row.link, ?_, hash⟩, ?_⟩
    · rw [extended.links]
      exact List.mem_append_right _ (List.mem_singleton_self _)
    · intro high
      obtain ⟨p, pMem, parentHash, below, -⟩ := prepared.parent high
      refine ⟨p, ?_, parentHash, below⟩
      rw [extended.links]
      exact List.mem_append_left _ pMem

/-- A block that is stored already is not stored again, and neither are its entries. -/
theorem storeBlock_stored {row stored : DbBlock Buffer} (decoded : blockRow data.block = .ok row)
    (mem : stored ∈ db.blocks) (same : stored.indexBlockHash = row.indexBlockHash) :
    storeBlock db data = .ok db := by
  have conflict : db.blocks.any
      (fun stored => decide (row.indexBlockHash = stored.indexBlockHash)) = true :=
    List.any_eq_true.mpr ⟨stored, mem, decide_eq_true same.symm⟩
  have skipped : insertRow (fun row stored : DbBlock Buffer =>
      decide (row.indexBlockHash = stored.indexBlockHash)) row db.blocks = (db.blocks, 0) :=
    insertRow_of_conflict conflict
  rw [storeBlock, updateBlock, decoded]
  simp only [bind, Except.bind, pure, Except.pure, skipped]
  rfl

/-- A known update is accepted and changes no table. -/
theorem ChainInvariant.update_known (invariant : ChainInvariant db flag)
    (incoming : Incoming db data) (known : Known db data) :
    ∃ events, update db data = .ok (db, events) := by
  obtain ⟨b, mem, hash⟩ := known.stored
  obtain ⟨stored, storedMem, rfl⟩ := List.mem_map.mp mem
  have low : data.block.blockHeight ≤ maxHeight db.links := by
    rw [← incoming.identified stored storedMem hash]
    exact height_le_maxHeight mem
  have notTip : ¬Heightens db data := fun high =>
    absurd (invariant.heightens_iff.mp high) (Nat.not_lt.mpr low)
  have tip := invariant.getChainTipHeight_blockHeight
  rcases handleReorg_cases invariant data.block with
    ⟨high, error, undecoded, -⟩ | ⟨⟨high, parentHash, decoded, missing⟩, -⟩ |
    ⟨reorged, counts, flag', handled, prepared⟩
  · obtain ⟨p, -, decoded, -⟩ := known.parent high
    rw [undecoded] at decoded
    cases decoded
  · obtain ⟨p, pMem, decoded', below⟩ := known.parent high
    rw [decoded] at decoded'
    exact absurd below (missing p pMem (Except.ok.inj decoded').symm)
  · obtain ⟨rfl, -⟩ := prepared.low low
    rw [← tip] at handled
    have isCanonical :
        decide (data.block.blockHeight > (getChainTipHeight reorged).blockHeight) = false :=
      decide_eq_false notTip
    obtain ⟨row, decoded⟩ := known.decoded
    have rowHash := (blockRow_ok decoded).indexBlockHash
    rw [hash] at rowHash
    have marked : blockRow data.markNonCanonical.block = .ok (withCanonical false row) :=
      (blockRow_withCanonical false data.block).trans (congrArg (Except.map _) decoded)
    have nothing := storeBlock_stored marked storedMem (Except.ok.inj rowHash)
    refine ⟨updateEvents data.markNonCanonical, ?_⟩
    rw [update, handled]
    simp only [bind, Except.bind, isCanonical, Bool.false_eq_true, if_false, pure, Except.pure,
      nothing]

end Step

/-! ## Runs -/

/-- Blocks are never removed. -/
theorem runStore_links_subset {past calls : List StoreCall}
    (consistent : Consistent (updatesOf calls)) (isPrefix : past <+: calls) :
    (runStore past).links ⊆ (runStore calls).links := by
  obtain ⟨rest, rfl⟩ := isPrefix
  induction rest using List.reverseRecOn with
  | nil =>
      rw [List.append_nil]
      exact List.Subset.refl _
  | append_singleton rest call ih =>
      rw [← List.append_assoc] at consistent ⊢
      have earlier : Consistent (updatesOf (past ++ rest)) := by
        apply consistent.of_subset
        rw [updatesOf_append _ [call]]
        exact List.subset_append_left _ _
      apply List.Subset.trans (ih earlier)
      obtain ⟨flag, invariant, linksFrom⟩ := runStore_chainInvariant earlier
      rw [runStore_append_singleton]
      rcases invariant.commit_performCall (incoming_of_call consistent linksFrom) with
        ⟨pool, same⟩ | ⟨data, reorged, pruned, row, flag', -, -, extended⟩
      · rw [same]
        exact List.Subset.refl _
      · rw [extended.links]
        exact List.subset_append_left _ _

/-- After any further updates and mempool insertions, an update that was accepted in
the run is accepted again and changes no table. -/
theorem update_again {past calls : List StoreCall} {data : DataStoreUpdateData}
    (consistent : Consistent (updatesOf calls)) (isPrefix : past ++ [.update data] <+: calls)
    (accepted : Succeeds (update (runStore past) data)) :
    ∃ events, update (runStore calls) data = .ok (runStore calls, events) := by
  obtain ⟨⟨db', events⟩, ok⟩ := accepted
  have delivered : Consistent (updatesOf (past ++ [.update data])) := by
    obtain ⟨rest, rfl⟩ := isPrefix
    apply consistent.of_subset
    rw [updatesOf_append _ rest]
    exact List.subset_append_left _ _
  have earlier : Consistent (updatesOf past) := by
    apply delivered.of_subset
    rw [updatesOf_append]
    exact List.subset_append_left _ _
  obtain ⟨flag, invariant, linksFrom⟩ := runStore_chainInvariant earlier
  have known := invariant.known (incoming_of_call delivered linksFrom data rfl) ok
  have stored : runStore (past ++ [.update data]) = db' := by
    rw [runStore_append_singleton]
    exact commit_of_ok ok
  rw [← stored] at known
  have known := known.mono (runStore_links_subset consistent isPrefix)
  obtain ⟨flag', invariant', linksFrom'⟩ := runStore_chainInvariant consistent
  apply invariant'.update_known _ known
  apply incoming_of_consistent _ linksFrom'
  apply consistent.of_subset
  apply List.append_subset.mpr ⟨List.Subset.refl _, ?_⟩
  rw [List.cons_subset]
  refine ⟨?_, List.nil_subset _⟩
  obtain ⟨rest, rfl⟩ := isPrefix
  exact List.mem_filterMap.mpr ⟨.update data,
    List.mem_append_left _ (List.mem_append_right _ List.mem_cons_self), rfl⟩

/-- The block at height two that the forked coinbases orphan arrives again. -/
theorem update_again_forkedCoinbases :
    ∃ events, update (runStore (forkedCoinbases.map .update)) (coinbaseBlock "0x21" "0x11" 2) =
      .ok (runStore (forkedCoinbases.map .update), events) := by
  have consistent : Consistent (updatesOf (forkedCoinbases.map .update)) :=
    forkedCoinbases_consistent
  exact @update_again [.update (coinbaseBlock "0x11" "0x00" 1)] _ _ consistent ⟨_, rfl⟩ ⟨_, rfl⟩

end StacksApi.Datastore
