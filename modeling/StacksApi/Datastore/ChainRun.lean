import StacksApi.Datastore.Canonical

/-!
# Runs of updates and the canonical chain

Each accepted update keeps the invariant of the canonical chain, so that it
holds after any sequence of updates from an empty store.  What is asked of an
update is what `handleClientMessage` provides, heights that start at one, and
that an index hash belongs to one height.
-/

namespace StacksApi.Datastore

open StacksApi.Binary
open StacksApi.Chain
open StacksApi.Relational
open StacksApi.Transition
open CanonicalEntity

/-! ## Stored rows -/

/-- The row of a block has its hashes as bytes. -/
structure DecodedBlock (block : DbBlock String) (row : DbBlock Buffer) : Prop where
  indexBlockHash : hexToBuffer block.indexBlockHash = .ok row.indexBlockHash
  parentIndexBlockHash : hexToBuffer block.parentIndexBlockHash = .ok row.parentIndexBlockHash
  blockHeight : row.blockHeight = block.blockHeight
  canonical : row.canonical = block.canonical

theorem blockRow_ok {block : DbBlock String} {row : DbBlock Buffer}
    (decoded : blockRow block = .ok row) : DecodedBlock block row := by
  rw [blockRow] at decoded
  obtain ⟨blockHash, -, decoded⟩ := Except.bind_eq_ok.mp decoded
  obtain ⟨indexBlockHash, hash, decoded⟩ := Except.bind_eq_ok.mp decoded
  obtain ⟨parentIndexBlockHash, parentHash, decoded⟩ := Except.bind_eq_ok.mp decoded
  obtain ⟨parentBlockHash, -, decoded⟩ := Except.bind_eq_ok.mp decoded
  obtain ⟨parentMicroblock, -, decoded⟩ := Except.bind_eq_ok.mp decoded
  rw [admitRow] at decoded
  split at decoded
  · cases decoded
    exact ⟨hash, parentHash, rfl, rfl⟩
  · cases decoded

@[simp]
theorem Db.blocks_addEntry (db : Db) (rows : EntryRows) : (db.addEntry rows).blocks = db.blocks :=
  rfl

@[simp]
theorem Db.mempoolTxs_addEntry (db : Db) (rows : EntryRows) :
    (db.addEntry rows).mempoolTxs = db.mempoolTxs :=
  rfl

theorem Db.blocks_foldl_addEntry (db : Db) (entries : List EntryRows) :
    (entries.foldl Db.addEntry db).blocks = db.blocks := by
  induction entries generalizing db with
  | nil => rfl
  | cons rows entries ih => exact ih (db.addEntry rows)

theorem Db.mempoolTxs_foldl_addEntry (db : Db) (entries : List EntryRows) :
    (entries.foldl Db.addEntry db).mempoolTxs = db.mempoolTxs := by
  induction entries generalizing db with
  | nil => rfl
  | cons rows entries ih => exact ih (db.addEntry rows)

/-! ## One update -/

/-- What is asked of an update that arrives at some tables. -/
structure Incoming (db : Db) (data : DataStoreUpdateData) : Prop where
  heightPos : 1 ≤ data.block.blockHeight
  canonical : data.block.canonical = true
  identified : ∀ row ∈ db.blocks,
    hexToBuffer data.block.indexBlockHash = .ok row.indexBlockHash →
      row.blockHeight = data.block.blockHeight

theorem settled_block (db : Db) (data : DataStoreUpdateData) :
    (data.settled db).block =
      if Heightens db data then data.block else withCanonical false data.block := by
  rw [DataStoreUpdateData.settled]
  split <;> rfl

section Step

variable {db reorged pruned db' : Db} {flag flag' : Buffer → Bool} {data : DataStoreUpdateData}
variable {row : DbBlock Buffer}

theorem ChainInvariant.heightens_iff (invariant : ChainInvariant db flag) :
    Heightens db data ↔ maxHeight db.links < data.block.blockHeight := by
  rw [Heightens, invariant.getChainTipHeight_blockHeight]

theorem Accepted.decodedBlock (accepted : Accepted db data reorged pruned row db')
    (canonical : data.block.canonical = true) :
    hexToBuffer data.block.indexBlockHash = .ok row.indexBlockHash ∧
      hexToBuffer data.block.parentIndexBlockHash = .ok row.parentIndexBlockHash ∧
      row.blockHeight = data.block.blockHeight ∧ row.canonical = decide (Heightens db data) := by
  have decoded := blockRow_ok accepted.decoded
  rw [settled_block] at decoded
  by_cases high : Heightens db data
  · rw [if_pos high] at decoded
    exact ⟨decoded.indexBlockHash, decoded.parentIndexBlockHash, decoded.blockHeight,
      (decoded.canonical.trans canonical).trans (decide_eq_true high).symm⟩
  · rw [if_neg high] at decoded
    exact ⟨decoded.indexBlockHash, decoded.parentIndexBlockHash, decoded.blockHeight,
      decoded.canonical.trans (decide_eq_false high).symm⟩

theorem Accepted.blocks_pruned (accepted : Accepted db data reorged pruned row db') :
    pruned.blocks = reorged.blocks := by
  by_cases high : Heightens db data
  · obtain ⟨buffers, -, rfl⟩ := accepted.prune high
    rfl
  · rw [accepted.keep high]

theorem Accepted.rows_pruned (accepted : Accepted db data reorged pruned row db')
    (table : EntityTable) : pruned.rows table = reorged.rows table := by
  by_cases high : Heightens db data
  · obtain ⟨buffers, -, rfl⟩ := accepted.prune high
    exact Db.rows_withoutMempoolTxs _ _ _
  · rw [accepted.keep high]

theorem Accepted.prepared (invariant : ChainInvariant db flag)
    (accepted : Accepted db data reorged pruned row db') :
    ∃ flag', Prepared db reorged flag flag' data.block := by
  obtain ⟨counts, handled⟩ := accepted.reorg
  rw [invariant.getChainTipHeight_blockHeight] at handled
  rcases handleReorg_cases invariant data.block with
    ⟨-, error, -, refused⟩ | ⟨-, refused⟩ | ⟨prepared, counts', flag', ok, spec⟩
  · rw [handled] at refused
    cases refused
  · rw [handled] at refused
    cases refused
  · rw [handled] at ok
    cases ok
    exact ⟨flag', spec⟩

/-- What an accepted update adds to a store in which its block is new. -/
structure Extended (db reorged pruned db' : Db) (flag flag' : Buffer → Bool)
    (data : DataStoreUpdateData) (row : DbBlock Buffer) : Prop where
  prepared : Prepared db reorged flag flag' data.block
  fresh : ∀ b ∈ db.links, b.hash ≠ row.indexBlockHash
  links : db'.links = db.links ++ [row.link]
  entries : ∃ rows, (data.settled db).txs.mapM entryRows = .ok rows ∧
    db' = rows.foldl Db.addEntry { pruned with blocks := pruned.blocks ++ [row] }
  invariant : ChainInvariant db'
    (Function.update flag' row.indexBlockHash (decide (Heightens db data)))

/-- A stored block is not above the tip, and an update that finds it changes nothing. -/
theorem Accepted.eq_of_stored (invariant : ChainInvariant db flag) (incoming : Incoming db data)
    (accepted : Accepted db data reorged pruned row pruned)
    (prepared : Prepared db reorged flag flag' data.block)
    (stored : ∃ stored ∈ pruned.blocks, stored.indexBlockHash = row.indexBlockHash) :
    (∃ stored ∈ db.blocks, stored.indexBlockHash = row.indexBlockHash) ∧ pruned = db := by
  obtain ⟨stored, storedMem, same⟩ := stored
  obtain ⟨hash, -⟩ := accepted.decodedBlock incoming.canonical
  rw [accepted.blocks_pruned] at storedMem
  have linkMem : stored.link ∈ db.links := prepared.links ▸ List.mem_map_of_mem storedMem
  obtain ⟨original, originalMem, link⟩ := List.mem_map.mp linkMem
  have originalHash : original.indexBlockHash = row.indexBlockHash :=
    (congrArg Link.hash link).trans same
  have low : data.block.blockHeight ≤ maxHeight db.links := by
    rw [← incoming.identified original originalMem (originalHash ▸ hash)]
    have originalLink : original.link ∈ db.links := List.mem_map_of_mem originalMem
    exact height_le_maxHeight originalLink
  obtain ⟨unchanged, -⟩ := prepared.low low
  refine ⟨⟨original, originalMem, originalHash⟩, ?_⟩
  rw [accepted.keep fun high => Nat.not_lt.mpr low (invariant.heightens_iff.mp high), unchanged]

/-- A new block hangs on the forest: its parent, if it asks for one, is stored below it. -/
theorem Prepared.grounded_append (prepared : Prepared db reorged flag flag' data.block)
    (grounded : Grounded db.links) (incoming : Incoming db data)
    (fresh : ∀ b ∈ db.links, b.hash ≠ row.indexBlockHash)
    (parentHash : hexToBuffer data.block.parentIndexBlockHash = .ok row.parentIndexBlockHash)
    (height : row.link.height = data.block.blockHeight) : Grounded (db.links ++ [row.link]) := by
  apply grounded.append fresh (height ▸ incoming.heightPos)
  intro high
  obtain ⟨p, pMem, pHash, below, -⟩ := prepared.parent (height ▸ high)
  rw [parentHash] at pHash
  exact ⟨p, pMem, (Except.ok.inj pHash).symm, below.trans height.symm⟩

/-- The flags go with the tip: a new block is flagged exactly when it heightens the chain. -/
theorem Prepared.canonical_append (prepared : Prepared db reorged flag flag' data.block)
    (invariant : ChainInvariant db flag) (incoming : Incoming db data)
    (fresh : ∀ b ∈ db.links, b.hash ≠ row.indexBlockHash)
    (parentHash : hexToBuffer data.block.parentIndexBlockHash = .ok row.parentIndexBlockHash)
    (height : row.link.height = data.block.blockHeight) :
    Canonical (db.links ++ [row.link])
      (Function.update flag' row.indexBlockHash (decide (Heightens db data))) := by
  by_cases high : Heightens db data
  · rw [decide_eq_true high]
    apply prepared.spine.extend fresh (height ▸ invariant.heightens_iff.mp high)
    intro p pMem isParent
    have linkHigh : 1 < data.block.blockHeight := height ▸ isParent.1
    obtain ⟨q, qMem, qHash, -, flagged⟩ := prepared.parent linkHigh
    rw [parentHash] at qHash
    have same : p.hash = q.hash := isParent.2.trans (Except.ok.inj qHash)
    rw [same]
    exact flagged (invariant.heightens_iff.mp high)
  · rw [decide_eq_false high]
    have low : data.block.blockHeight ≤ maxHeight db.links :=
      Nat.not_lt.mp fun higher => high (invariant.heightens_iff.mpr higher)
    obtain ⟨-, rfl⟩ := prepared.low low
    exact invariant.canonical.fork invariant.grounded fresh
      (height ▸ incoming.heightPos) (height ▸ low)

/-- An accepted update either finds its block stored and changes nothing, or
adds its block to the forest. -/
theorem Accepted.chain (invariant : ChainInvariant db flag) (incoming : Incoming db data)
    (accepted : Accepted db data reorged pruned row db') :
    (∃ stored ∈ db.blocks, stored.indexBlockHash = row.indexBlockHash) ∧ db' = db ∨
      ∃ flag', Extended db reorged pruned db' flag flag' data row := by
  obtain ⟨flag', prepared⟩ := accepted.prepared invariant
  obtain ⟨hash, parentHash, height, canonical⟩ := accepted.decodedBlock incoming.canonical
  have reorgedLinks : reorged.links = db.links := prepared.links
  rcases accepted.store with ⟨stored, rfl⟩ | ⟨fresh, rows, entries, rfl⟩
  · left
    exact accepted.eq_of_stored invariant incoming prepared stored
  · right
    have freshLinks : ∀ b ∈ db.links, b.hash ≠ row.indexBlockHash := by
      intro b mem
      rw [← reorgedLinks, Db.links, ← accepted.blocks_pruned] at mem
      obtain ⟨stored, storedMem, rfl⟩ := List.mem_map.mp mem
      exact fresh stored storedMem
    have blocks : (rows.foldl Db.addEntry { pruned with blocks := pruned.blocks ++ [row] }).blocks
        = reorged.blocks ++ [row] := by
      rw [Db.blocks_foldl_addEntry, accepted.blocks_pruned]
    have links : (rows.foldl Db.addEntry { pruned with blocks := pruned.blocks ++ [row] }).links
        = db.links ++ [row.link] := by
      rw [Db.links, blocks, List.map_append, ← reorgedLinks]
      rfl
    have follows : Follows
        (Function.update flag' row.indexBlockHash (decide (Heightens db data)))
        (reorged.blocks ++ [row]) := by
      apply Follows.append
      · apply prepared.blocks.congr
        intro stored storedMem
        apply Function.update_of_ne
        exact freshLinks stored.link (reorgedLinks ▸ List.mem_map_of_mem storedMem)
      · intro stored storedMem
        rw [List.mem_singleton.mp storedMem]
        exact canonical.trans
          (Function.update_self row.indexBlockHash (decide (Heightens db data)) flag').symm
    refine ⟨flag', prepared, freshLinks, links, ⟨rows, entries, rfl⟩, ?_⟩
    exact
      { grounded := links ▸
          prepared.grounded_append invariant.grounded incoming freshLinks parentHash height
        canonical := links ▸
          prepared.canonical_append invariant incoming freshLinks parentHash height
        blocks := blocks ▸ follows }

end Step

/-! ## Runs -/

/-- What is asked of a sequence of updates: heights start at one, blocks arrive
as canonical and an index hash belongs to one height. -/
structure Consistent (updates : List DataStoreUpdateData) : Prop where
  heightPos : ∀ data ∈ updates, 1 ≤ data.block.blockHeight
  canonical : ∀ data ∈ updates, data.block.canonical = true
  identified : ∀ first ∈ updates, ∀ second ∈ updates, ∀ hash,
    hexToBuffer first.block.indexBlockHash = .ok hash →
      hexToBuffer second.block.indexBlockHash = .ok hash →
        first.block.blockHeight = second.block.blockHeight

/-- A check of the hypotheses for given updates. -/
theorem consistent_of_checked {updates : List DataStoreUpdateData}
    (blocks : ∀ data ∈ updates, 1 ≤ data.block.blockHeight ∧ data.block.canonical = true)
    (identified : ∀ first ∈ updates, ∀ second ∈ updates,
      (hexToBuffer first.block.indexBlockHash).toOption =
        (hexToBuffer second.block.indexBlockHash).toOption →
          first.block.blockHeight = second.block.blockHeight) : Consistent updates where
  heightPos data mem := (blocks data mem).1
  canonical data mem := (blocks data mem).2
  identified first firstMem second secondMem hash firstHash secondHash :=
    identified first firstMem second secondMem (by rw [firstHash, secondHash])

theorem Consistent.of_subset {first second : List DataStoreUpdateData}
    (consistent : Consistent second) (subset : first ⊆ second) : Consistent first where
  heightPos data mem := consistent.heightPos data (subset mem)
  canonical data mem := consistent.canonical data (subset mem)
  identified a aMem b bMem := consistent.identified a (subset aMem) b (subset bMem)

/-- Every link is that of an update. -/
def LinksFrom (updates : List DataStoreUpdateData) (links : List (Link Buffer)) : Prop :=
  ∀ b ∈ links, ∃ data ∈ updates, hexToBuffer data.block.indexBlockHash = .ok b.hash ∧
    data.block.blockHeight = b.height

theorem LinksFrom.mono {first second : List DataStoreUpdateData} {links : List (Link Buffer)}
    (linksFrom : LinksFrom first links) (subset : first ⊆ second) : LinksFrom second links := by
  intro b mem
  obtain ⟨data, dataMem, known⟩ := linksFrom b mem
  exact ⟨data, subset dataMem, known⟩

theorem incoming_of_consistent {past : List DataStoreUpdateData} {data : DataStoreUpdateData}
    {db : Db} (consistent : Consistent (past ++ [data])) (linksFrom : LinksFrom past db.links) :
    Incoming db data where
  heightPos := consistent.heightPos data (List.mem_append_right _ (List.mem_singleton_self _))
  canonical := consistent.canonical data (List.mem_append_right _ (List.mem_singleton_self _))
  identified row rowMem hash := by
    obtain ⟨source, sourceMem, sourceHash, sourceHeight⟩ :=
      linksFrom row.link (List.mem_map_of_mem rowMem)
    exact sourceHeight.symm.trans (consistent.identified source
      (List.mem_append_left _ sourceMem) data
      (List.mem_append_right _ (List.mem_singleton_self _)) _ sourceHash hash)

/-- An update that leaves the tables as they are: it is refused, or its block is
stored already. -/
inductive Skipped (db : Db) (data : DataStoreUpdateData) : Prop
  | refused (error : ApiError) (result : update db data = .error error)
  | repeated (b : Link Buffer) (mem : b ∈ db.links)
      (hash : hexToBuffer data.block.indexBlockHash = .ok b.hash)

/-- An update is skipped or adds its block to the forest. -/
theorem ChainInvariant.commit_update {db : Db} {flag : Buffer → Bool}
    {data : DataStoreUpdateData} (invariant : ChainInvariant db flag)
    (incoming : Incoming db data) :
    Skipped db data ∧ commit update db data = db ∨
      ∃ reorged pruned row flag',
        Accepted db data reorged pruned row (commit update db data) ∧
          Extended db reorged pruned (commit update db data) flag flag' data row := by
  cases result : update db data with
  | error error => exact Or.inl ⟨.refused error result, commit_of_error result⟩
  | ok outcome =>
      obtain ⟨db', events⟩ := outcome
      rw [commit_of_ok result]
      obtain ⟨-, reorged, pruned, row, accepted⟩ := update_ok result
      rcases accepted.chain invariant incoming with ⟨⟨stored, mem, same⟩, rfl⟩ | ⟨flag', extended⟩
      · obtain ⟨hash, -⟩ := accepted.decodedBlock incoming.canonical
        rw [← same] at hash
        exact Or.inl ⟨.repeated stored.link (List.mem_map_of_mem mem) hash, rfl⟩
      · exact Or.inr ⟨reorged, pruned, row, flag', accepted, extended⟩

theorem Extended.linksFrom {db reorged pruned db' : Db} {flag flag' : Buffer → Bool}
    {data : DataStoreUpdateData} {row : DbBlock Buffer} {past : List DataStoreUpdateData}
    (extended : Extended db reorged pruned db' flag flag' data row)
    (accepted : Accepted db data reorged pruned row db') (canonical : data.block.canonical = true)
    (linksFrom : LinksFrom past db.links) : LinksFrom (past ++ [data]) db'.links := by
  intro b mem
  rw [extended.links] at mem
  rcases List.mem_append.mp mem with old | new
  · exact linksFrom.mono (List.subset_append_left past [data]) b old
  · obtain ⟨hash, -, height, -⟩ := accepted.decodedBlock canonical
    rw [List.mem_singleton.mp new]
    exact ⟨data, List.mem_append_right _ (List.mem_singleton_self _), hash, height.symm⟩

/-- Induction on a run of updates: the invariant of the canonical chain holds
throughout, and a further property is kept if skipped updates keep it and the
addition of a block does. -/
theorem runUpdates_induction
    {P : List DataStoreUpdateData → Db → (Buffer → Bool) → Prop}
    (empty : P [] Db.empty fun _ => false)
    (skip : ∀ past data db flag, ChainInvariant db flag → P past db flag → Skipped db data →
      P (past ++ [data]) db flag)
    (extend : ∀ past data db reorged pruned row db' flag flag', Consistent (past ++ [data]) →
      ChainInvariant db flag → P past db flag → Accepted db data reorged pruned row db' →
      Extended db reorged pruned db' flag flag' data row →
      P (past ++ [data]) db'
        (Function.update flag' row.indexBlockHash (decide (Heightens db data))))
    {updates : List DataStoreUpdateData} (consistent : Consistent updates) :
    ∃ flag, ChainInvariant (runUpdates updates) flag ∧
      LinksFrom updates (runUpdates updates).links ∧ P updates (runUpdates updates) flag := by
  revert consistent
  apply run_induction (motive := fun updates db => Consistent updates →
    ∃ flag, ChainInvariant db flag ∧ LinksFrom updates db.links ∧ P updates db flag)
  · intro _
    refine ⟨fun _ => false, ⟨Grounded.nil, Canonical.nil _, ?_⟩, ?_, empty⟩
    · rintro row ⟨⟩
    · rintro b ⟨⟩
  · intro past data ih consistent
    obtain ⟨flag, invariant, linksFrom, holds⟩ :=
      ih (consistent.of_subset (List.subset_append_left past [data]))
    have incoming := incoming_of_consistent consistent linksFrom
    rcases invariant.commit_update incoming with
      ⟨skipped, same⟩ | ⟨reorged, pruned, row, flag', accepted, extended⟩
    · rw [same]
      exact ⟨flag, invariant, linksFrom.mono (List.subset_append_left past [data]),
        skip past data _ flag invariant holds skipped⟩
    · exact ⟨_, extended.invariant, extended.linksFrom accepted incoming.canonical linksFrom,
        extend past data _ reorged pruned row _ flag flag' consistent invariant holds accepted
          extended⟩

/-- The invariant of the canonical chain holds after every run. -/
theorem runUpdates_invariant {updates : List DataStoreUpdateData}
    (consistent : Consistent updates) :
    ∃ flag, ChainInvariant (runUpdates updates) flag := by
  obtain ⟨flag, invariant, -, -⟩ := @runUpdates_induction (fun _ _ _ => True) trivial
    (fun _ _ _ _ _ _ _ => trivial) (fun _ _ _ _ _ _ _ _ _ _ _ _ _ _ => trivial) updates consistent
  exact ⟨flag, invariant⟩

/-- The canonical rows of `blocks` are the branch of the tip. -/
structure CanonicalChain (db : Db) : Prop where
  /-- The canonical blocks are the tip and its ancestors. -/
  branch : ∀ row ∈ db.blocks, (row.canonical = true ↔
    ∃ tip, db.tip? = some tip ∧ Ancestor db.links row.link tip.link)
  /-- There is exactly one of them at each height. -/
  atHeight : ∀ height, 1 ≤ height → height ≤ db.maxBlockHeight →
    ∃! row, row ∈ db.blocks ∧ row.canonical = true ∧ row.blockHeight = height
  /-- Their parents are canonical and one height below. -/
  parent : ∀ row ∈ db.blocks, row.canonical = true → 1 < row.blockHeight →
    ∃ parent ∈ db.blocks, parent.canonical = true ∧
      parent.indexBlockHash = row.parentIndexBlockHash ∧
      parent.blockHeight + 1 = row.blockHeight
  chainTip : getChainTipHeight db = chainTipOf db.tip?

theorem ChainInvariant.canonicalChain {db : Db} {flag : Buffer → Bool}
    (invariant : ChainInvariant db flag) : CanonicalChain db where
  branch row mem := by
    have linkMem : row.link ∈ db.links := List.mem_map_of_mem mem
    rw [invariant.canonical_iff mem]
    refine (invariant.canonical.flag_iff_ancestor invariant.grounded linkMem).trans ?_
    rw [← db.tip?_map_link]
    constructor
    · rintro ⟨top, isTip, ancestor⟩
      obtain ⟨tip, tipRow, rfl⟩ := Option.map_eq_some_iff.mp isTip
      exact ⟨tip, tipRow, ancestor⟩
    · rintro ⟨tip, isTip, ancestor⟩
      exact ⟨tip.link, by rw [isTip]; rfl, ancestor⟩
  atHeight height pos low := by
    rw [db.maxBlockHeight_eq] at low
    obtain ⟨b, ⟨mem, flagged, atHeight⟩, unique⟩ :=
      invariant.canonical.existsUnique_at invariant.grounded pos low
    obtain ⟨row, rowMem, rfl⟩ := List.mem_map.mp mem
    refine ⟨row, ⟨rowMem, (invariant.canonical_iff rowMem).mpr flagged, atHeight⟩, ?_⟩
    rintro other ⟨otherMem, canonical, otherHeight⟩
    have same : other.link = row.link := unique other.link ⟨List.mem_map_of_mem otherMem,
      (invariant.canonical_iff otherMem).mp canonical, otherHeight⟩
    exact eq_of_indexBlockHash invariant.grounded otherMem rowMem (congrArg Link.hash same)
  parent row mem canonical high := by
    have linkMem : row.link ∈ db.links := List.mem_map_of_mem mem
    obtain ⟨p, pMem, hash, below⟩ := invariant.grounded.parentStored row.link linkMem high
    have flagged := invariant.canonical.parent p pMem row.link linkMem
      ((invariant.canonical_iff mem).mp canonical) ⟨high, hash⟩
    obtain ⟨parent, parentMem, rfl⟩ := List.mem_map.mp pMem
    exact ⟨parent, parentMem, (invariant.canonical_iff parentMem).mpr flagged, hash, below⟩
  chainTip := invariant.getChainTipHeight_eq

/-- After every step of a run the canonical blocks are the tip, that is the first
stored block of maximum height, and its ancestors; and a reorganisation error is
never other than a missing parent. -/
theorem runUpdates_canonicalChain {updates past : List DataStoreUpdateData}
    (consistent : Consistent updates) (isPrefix : past <+: updates) :
    CanonicalChain (runUpdates past) ∧
      ∀ data, past ++ [data] <+: updates → ∀ fault,
        update (runUpdates past) data = .error (.reorg fault) →
          fault = .missingParent (data.block.blockHeight - 1) data.block.parentIndexBlockHash := by
  obtain ⟨flag, invariant⟩ := runUpdates_invariant (consistent.of_subset isPrefix.subset)
  refine ⟨invariant.canonicalChain, ?_⟩
  intro data _ fault refused
  have handled := update_reorg_error refused
  rw [invariant.getChainTipHeight_blockHeight] at handled
  rcases handleReorg_cases invariant data.block with
    ⟨-, error, decoded, refused'⟩ | ⟨-, refused'⟩ | ⟨prepared, counts, flag', ok, -⟩
  · rw [handled] at refused'
    cases refused'
    exact absurd decoded (NoReorgError.hexToBuffer _ fault)
  · rw [handled] at refused'
    cases refused'
    rfl
  · rw [handled] at ok
    cases ok

/-- An update without transactions. -/
def emptyBlock (indexBlockHash parentIndexBlockHash : String) (blockHeight : Nat) :
    DataStoreUpdateData where
  block :=
    { blockHash := indexBlockHash
      burnBlockTime := 1594647996
      indexBlockHash
      parentIndexBlockHash
      parentBlockHash := parentIndexBlockHash
      parentMicroblock := "0x"
      blockHeight
      canonical := true }
  txs := []

/-- Two blocks at height two, and a third block on the one stored second. -/
def forkedUpdates : List DataStoreUpdateData :=
  [emptyBlock "0x11" "0x00" 1, emptyBlock "0x21" "0x11" 2, emptyBlock "0x22" "0x11" 2,
    emptyBlock "0x32" "0x22" 3]

theorem forkedUpdates_consistent : Consistent forkedUpdates :=
  consistent_of_checked (by decide) (by decide)

/-- The chain of the forked blocks, of which the second one is orphaned. -/
theorem runUpdates_forkedUpdates :
    CanonicalChain (runUpdates forkedUpdates) ∧
      (runUpdates forkedUpdates).blocks.map (fun row => (row.indexBlockHash, row.canonical)) =
        [([0x11], true), ([0x21], false), ([0x22], true), ([0x32], true)] :=
  ⟨(runUpdates_canonicalChain forkedUpdates_consistent (List.prefix_refl _)).1, by decide⟩

end StacksApi.Datastore
