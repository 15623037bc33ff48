import StacksApi.Datastore.Accepted

/-!
# The canonical chain

The `blocks` table as a forest of links, and its canonical flags as flags on
hashes.  A level of `restoreOrphanedChain` is `restoreLevel` on flags, so that a
reorganisation turns one spine into another; every accepted update keeps the
stored links grounded and the flags on the branch of the tip.
-/

namespace StacksApi.Datastore

open StacksApi.Binary
open StacksApi.Chain
open StacksApi.Relational
open StacksApi.Transition
open CanonicalEntity

/-- The place of a block row in the forest of blocks. -/
def DbBlock.link {ι : Type} (block : DbBlock ι) : Link ι where
  hash := block.indexBlockHash
  parent := block.parentIndexBlockHash
  height := block.blockHeight

/-- The links of the stored blocks in the order of their storage. -/
def Db.links (db : Db) : List (Link Buffer) :=
  db.blocks.map DbBlock.link

theorem Db.mem_links {db : Db} {b : Link Buffer} :
    b ∈ db.links ↔ ∃ row ∈ db.blocks, row.link = b :=
  List.mem_map

theorem Db.links_eq_raised (db : Db) : db.links = (raised db.blocks).map DbBlock.link := by
  rw [raised, List.map_map]
  rfl

theorem Db.links_of_raised {db db' : Db} (same : raised db'.blocks = raised db.blocks) :
    db'.links = db.links := by
  rw [Db.links_eq_raised, Db.links_eq_raised, same]

theorem Db.maxBlockHeight_eq (db : Db) : db.maxBlockHeight = maxHeight db.links := by
  rw [Db.maxBlockHeight, maxHeight, Db.links, List.map_map]
  rfl

/-- The stored blocks form a forest whose canonical flags mark the branch of the
first block of maximum height. -/
structure ChainInvariant (db : Db) (flag : Buffer → Bool) : Prop where
  grounded : Grounded db.links
  canonical : Canonical db.links flag
  blocks : Follows flag db.blocks

/-! ## One level -/

section Level

variable {db db' : Db} {flag : Buffer → Bool} {original : DbBlock Buffer}

theorem nodup_indexBlockHash (grounded : Grounded db.links) :
    (db.blocks.map DbBlock.indexBlockHash).Nodup := by
  have nodup := grounded.nodup
  rw [Db.links, List.map_map] at nodup
  exact nodup

theorem eq_of_indexBlockHash (grounded : Grounded db.links) {first second : DbBlock Buffer}
    (firstMem : first ∈ db.blocks) (secondMem : second ∈ db.blocks)
    (same : first.indexBlockHash = second.indexBlockHash) : first = second :=
  List.inj_on_of_nodup_map (nodup_indexBlockHash grounded) firstMem secondMem same

/-- With unique hashes, the query for an orphan finds the one row of its hash. -/
theorem filter_isOrphan (keys : (db.blocks.map DbBlock.indexBlockHash).Nodup)
    (mem : original ∈ db.blocks) (orphan : original.canonical = false) :
    db.blocks.filter (isOrphan original.indexBlockHash) = [original] := by
  apply filter_eq_singleton keys mem
  · simp [isOrphan, orphan]
  · intro other _ matched
    rw [isOrphan, Bool.and_eq_true] at matched
    exact of_decide_eq_true matched.1

/-- The row that a level makes of a stored block. -/
def levelRow (original row : DbBlock Buffer) : DbBlock Buffer :=
  if row.indexBlockHash = original.indexBlockHash then withCanonical true row
  else if row.blockHeight = original.blockHeight then withCanonical false row
  else row

theorem conflicting_markBlock (orphan : original.canonical = false)
    (grounded : Grounded db.links) (mem : original ∈ db.blocks) :
    (conflicting (withCanonical true original)
      (db.markBlock original.indexBlockHash).blocks).1 =
      db.blocks.map (levelRow original) := by
  simp only [conflicting, Db.markBlock, updateRows, List.map_map]
  apply List.map_congr_left
  intro row rowMem
  by_cases same : row.indexBlockHash = original.indexBlockHash
  · rw [eq_of_indexBlockHash grounded rowMem mem same]
    simp [levelRow, isOrphan, orphan, withCanonical]
  · by_cases level : row.blockHeight = original.blockHeight
    · cases flagged : row.canonical with
      | true => simp [levelRow, isOrphan, same, level, flagged, withCanonical]
      | false =>
          have already : withCanonical false row = row := by
            rw [← flagged]
            exact withCanonical_canonical row
          rw [levelRow, if_neg same, if_pos level, already]
          simp [isOrphan, same, flagged]
    · simp [levelRow, isOrphan, same, level, withCanonical]

/-- The flags of the blocks after a level. -/
theorem follows_levelRow (grounded : Grounded db.links) (follows : Follows flag db.blocks)
    (mem : original ∈ db.blocks) :
    Follows (restoreLevel db.links flag original.link) (db.blocks.map (levelRow original)) := by
  intro leveled leveledMem
  obtain ⟨row, rowMem, rfl⟩ := List.mem_map.mp leveledMem
  have originalLink : original.link ∈ db.links := List.mem_map_of_mem mem
  have rowLink : row.link ∈ db.links := List.mem_map_of_mem rowMem
  rw [levelRow]
  split
  · next same =>
      rw [eq_of_indexBlockHash grounded rowMem mem same]
      exact restoreLevel_self.symm
  · next other =>
      split
      · next level =>
          have otherLink : row.link.hash ≠ original.link.hash := other
          exact (restoreLevel_same_height rowLink otherLink level).symm
      · next otherLevel =>
          exact (follows row rowMem).trans
            (restoreLevel_other_height grounded originalLink rowLink otherLevel).symm

/-- The rows that a level orphans are the flagged ones of its height. -/
theorem mem_conflicting_iff (follows : Follows flag db.blocks) (hash : Buffer) :
    (∃ row ∈ (conflicting (withCanonical true original)
        (db.markBlock original.indexBlockHash).blocks).2, row.indexBlockHash = hash) ↔
      ∃ c ∈ db.links, c.hash = hash ∧ c.height = original.blockHeight ∧
        hash ≠ original.indexBlockHash ∧ flag hash = true := by
  simp only [conflicting, Db.markBlock, updateRows]
  constructor
  · rintro ⟨orphaned, orphanedMem, rfl⟩
    obtain ⟨marked, markedMem, rfl⟩ := List.mem_map.mp orphanedMem
    obtain ⟨inBlocks, matched⟩ := List.mem_filter.mp markedMem
    obtain ⟨row, rowMem, rfl⟩ := List.mem_map.mp inBlocks
    rw [Bool.and_eq_true, decide_eq_true_eq] at matched
    obtain ⟨⟨height, other⟩, flagged⟩ := matched
    by_cases found : isOrphan original.indexBlockHash row = true
    · rw [if_pos found] at other
      rw [isOrphan, Bool.and_eq_true] at found
      exact absurd (of_decide_eq_true found.1) other
    · rw [if_neg found] at height other flagged ⊢
      exact ⟨row.link, List.mem_map_of_mem rowMem, rfl, height, other,
        (follows row rowMem).symm.trans flagged⟩
  · rintro ⟨c, cMem, rfl, height, other, flagged⟩
    obtain ⟨row, rowMem, rfl⟩ := List.mem_map.mp cMem
    have notFound : ¬ isOrphan original.indexBlockHash row = true := by
      intro found
      rw [isOrphan, Bool.and_eq_true] at found
      exact other (of_decide_eq_true found.1)
    refine ⟨withCanonical false row, List.mem_map_of_mem (List.mem_filter.mpr ⟨?_, ?_⟩), rfl⟩
    · exact List.mem_map.mpr ⟨row, rowMem, if_neg notFound⟩
    · rw [Bool.and_eq_true, decide_eq_true_eq]
      exact ⟨⟨height, other⟩, (follows row rowMem).trans flagged⟩

/-- The flags of the other tables after a level. -/
theorem follows_levelRows {α : Type} [Flagged α Buffer] {rows : List α}
    (broken : BrokenAt db.links flag original.link) (follows : Follows flag db.blocks)
    (inStep : Follows flag rows) :
    Follows (restoreLevel db.links flag original.link)
      (levelRows (withCanonical true original)
        (conflicting (withCanonical true original)
          (db.markBlock original.indexBlockHash).blocks).2 rows).1 := by
  have orphans := @mem_conflicting_iff db flag original follows
  generalize (conflicting (withCanonical true original)
    (db.markBlock original.indexBlockHash).blocks).2 = orphaned at orphans ⊢
  cases orphaned with
  | nil =>
      rw [restoreLevel_eq_update none]
      · exact inStep.setFlag original.indexBlockHash true
      · rintro hash ⟨⟩
      · intro c cMem flagged height other
        obtain ⟨row, rowMem, -⟩ := (orphans c.hash).mpr ⟨c, cMem, rfl, height, other, flagged⟩
        cases rowMem
  | cons orphan rest =>
      obtain ⟨d, dMem, dHash, dHeight, dOther, dFlagged⟩ :=
        (orphans orphan.indexBlockHash).mp ⟨orphan, List.mem_cons_self, rfl⟩
      rw [restoreLevel_eq_update (some orphan.indexBlockHash)]
      · exact (inStep.setFlag orphan.indexBlockHash false).setFlag original.indexBlockHash true
      · rintro hash ⟨⟩
        exact ⟨d, dMem, dHash, dHeight, dOther⟩
      · intro c cMem flagged height _
        have same : c = d := broken.unique c cMem d dMem flagged (dHash ▸ dFlagged)
          (height.trans dHeight.symm)
        rw [same, dHash]

/-- A level carried out at the gap of a broken spine. -/
theorem Exchanged.level (grounded : Grounded db.links)
    (broken : BrokenAt db.links flag original.link) (follows : Follows flag db.blocks)
    (mem : original ∈ db.blocks) (exchanged : Exchanged (db.markBlock original.indexBlockHash)
      (withCanonical true original) db') :
    Follows (restoreLevel db.links flag original.link) db'.blocks ∧
      ∀ table, Follows flag (db.rows table) →
        Follows (restoreLevel db.links flag original.link) (db'.rows table) := by
  have orphan : original.canonical = false := (follows original mem).trans broken.unflagged
  constructor
  · rw [exchanged.blocks, conflicting_markBlock orphan grounded mem]
    exact follows_levelRow grounded follows mem
  · intro table inStep
    rw [exchanged.rows]
    exact follows_levelRows broken follows (by cases table <;> exact inStep)

end Level

/-! ## The whole reorganisation -/

/-- The tables after a reorganisation that flagged the branch below `b`. -/
structure Restored (db db' : Db) (flag flag' : Buffer → Bool) (b : Link Buffer) : Prop where
  links : db'.links = db.links
  spine : Spine db.links flag'
  blocks : Follows flag' db'.blocks
  rows : ∀ table, Follows flag (db.rows table) → Follows flag' (db'.rows table)
  top : flag' b.hash = true
  above : ∀ c ∈ db.links, b.height < c.height → flag' c.hash = flag c.hash

section Parents

variable {db : Db} {flag : Buffer → Bool} {restored parent : DbBlock Buffer}

theorem mem_orphanedParents : parent ∈ orphanedParents db restored ↔ parent ∈ db.blocks ∧
    parent.blockHeight + 1 = restored.blockHeight ∧
    parent.indexBlockHash = restored.parentIndexBlockHash ∧ parent.canonical = false := by
  rw [orphanedParents, List.mem_filter, Bool.and_eq_true, decide_eq_true_eq, Bool.not_eq_true',
    and_assoc]

/-- Hashes being unique, there is at most one orphaned parent. -/
theorem orphanedParents_eq_singleton (keys : (db.blocks.map DbBlock.indexBlockHash).Nodup)
    (mem : parent ∈ orphanedParents db restored) : orphanedParents db restored = [parent] := by
  obtain ⟨inBlocks, holds⟩ := List.mem_filter.mp mem
  obtain ⟨-, -, hash, -⟩ := mem_orphanedParents.mp mem
  apply filter_eq_singleton keys inBlocks holds
  intro other otherMem matched
  obtain ⟨-, -, otherHash, -⟩ :=
    mem_orphanedParents.mp (List.mem_filter.mpr ⟨otherMem, matched⟩)
  exact otherHash.trans hash.symm

theorem flag_of_orphanedParents_eq_nil (grounded : Grounded db.links)
    (follows : Follows flag db.blocks) (restoredMem : restored.link ∈ db.links)
    (none : orphanedParents db restored = []) :
    ∀ p ∈ db.links, p.IsParent restored.link → flag p.hash = true := by
  intro p pMem isParent
  have below := grounded.height_of_isParent pMem restoredMem isParent
  obtain ⟨row, rowMem, rfl⟩ := List.mem_map.mp pMem
  cases canonical : row.canonical with
  | true => exact (follows row rowMem).symm.trans canonical
  | false =>
      have found : row ∈ orphanedParents db restored :=
        mem_orphanedParents.mpr ⟨rowMem, below, isParent.2, canonical⟩
      rw [none] at found
      cases found

end Parents

/-- Flagging the branch below the parent, after one level, flags the branch below the block. -/
theorem Restored.of_level {db middle db' : Db} {flag flag' : Buffer → Bool} {b p : Link Buffer}
    (grounded : Grounded db.links) (mem : b ∈ db.links) (links : middle.links = db.links)
    (rows : ∀ table, Follows flag (db.rows table) →
      Follows (restoreLevel db.links flag b) (middle.rows table))
    (restored : Restored middle db' (restoreLevel db.links flag b) flag' p)
    (lower : p.height < b.height) : Restored db db' flag flag' b where
  links := restored.links.trans links
  spine := links ▸ restored.spine
  blocks := restored.blocks
  rows table inStep := restored.rows table (rows table inStep)
  top := by
    rw [restored.above b (links ▸ mem) lower]
    exact restoreLevel_self
  above := by
    intro c cMem higher
    rw [restored.above c (links ▸ cMem) (Nat.lt_trans lower higher)]
    exact restoreLevel_other_height grounded mem cMem (Nat.ne_of_gt higher)

section Descent

variable {db middle : Db} {flag : Buffer → Bool} {original parent : DbBlock Buffer}

/-- A level with no orphaned parent below it closes the gap. -/
theorem restored_of_no_parent (grounded : Grounded db.links)
    (broken : BrokenAt db.links flag original.link) (links : middle.links = db.links)
    (blocks : Follows (restoreLevel db.links flag original.link) middle.blocks)
    (rows : ∀ table, Follows flag (db.rows table) →
      Follows (restoreLevel db.links flag original.link) (middle.rows table))
    (none : orphanedParents middle (withCanonical true original) = []) :
    Restored db middle flag (restoreLevel db.links flag original.link) original.link where
  links := links
  spine := by
    have flagged := flag_of_orphanedParents_eq_nil (links ▸ grounded) blocks
      (links ▸ broken.mem) none
    apply broken.spine grounded
    intro p pMem isParent
    have below : p.height + 1 = original.link.height :=
      grounded.height_of_isParent pMem broken.mem isParent
    have same : restoreLevel db.links flag original.link p.hash = flag p.hash :=
      restoreLevel_other_height grounded broken.mem pMem (by omega)
    exact same.symm.trans (flagged p (links ▸ pMem) isParent)
  blocks := blocks
  rows := rows
  top := restoreLevel_self
  above c cMem higher := restoreLevel_other_height grounded broken.mem cMem (Nat.ne_of_gt higher)

/-- After a level the gap is at the orphaned parent, one height below. -/
theorem brokenAt_parent (grounded : Grounded db.links)
    (broken : BrokenAt db.links flag original.link) (links : middle.links = db.links)
    (blocks : Follows (restoreLevel db.links flag original.link) middle.blocks)
    (found : parent ∈ orphanedParents middle (withCanonical true original)) :
    parent.link.height + 1 = original.link.height ∧
      BrokenAt middle.links (restoreLevel db.links flag original.link) parent.link := by
  obtain ⟨inMiddle, heights, hash, orphaned⟩ := mem_orphanedParents.mp found
  have below : parent.link.height + 1 = original.link.height := heights
  have parentLink : parent.link ∈ db.links := links ▸ List.mem_map_of_mem inMiddle
  have parentPos : 1 ≤ parent.link.height := grounded.heightPos _ parentLink
  have isParent : parent.link.IsParent original.link := ⟨by omega, hash⟩
  have unflagged : flag parent.link.hash = false := by
    have same : restoreLevel db.links flag original.link parent.link.hash =
        flag parent.link.hash :=
      restoreLevel_other_height grounded broken.mem parentLink (by omega)
    exact same.symm.trans ((blocks parent inMiddle).symm.trans orphaned)
  exact ⟨below, links ▸ broken.next grounded parentLink isParent unflagged⟩

end Descent

/-- With enough depth, `restoreOrphanedChain` closes the gap of a broken spine. -/
theorem restoreOrphanedChain_ok {depth : Nat} {db : Db} {flag : Buffer → Bool}
    {original : DbBlock Buffer} {updated : UpdatedEntities} (grounded : Grounded db.links)
    (follows : Follows flag db.blocks) (mem : original ∈ db.blocks)
    (broken : BrokenAt db.links flag original.link) (enough : original.blockHeight ≤ depth) :
    ∃ db' updated' flag',
      restoreOrphanedChain depth db original.indexBlockHash updated = .ok (db', updated') ∧
        Restored db db' flag flag' original.link := by
  induction depth generalizing db flag original updated with
  | zero =>
      have pos : 1 ≤ original.blockHeight := grounded.heightPos _ broken.mem
      omega
  | succ depth ih =>
      have orphan : original.canonical = false := (follows original mem).trans broken.unflagged
      obtain ⟨middle, counts, exchange, exchanged⟩ := exchangeEntities_ok
        (db.markBlock original.indexBlockHash) (withCanonical true original)
        (updated.countBlock true)
      have first := restoreOrphanedBlock_ok_iff.mpr
        ⟨⟨original, filter_isOrphan (nodup_indexBlockHash grounded) mem orphan, rfl⟩, exchange⟩
      obtain ⟨blocks, rows⟩ := exchanged.level grounded broken follows mem
      have links : middle.links = db.links := Db.links_of_raised exchanged.remarked.blocks
      have middleGrounded : Grounded middle.links := links ▸ grounded
      rw [restoreOrphanedChain, first]
      simp only [bind, Except.bind]
      cases parents : orphanedParents middle (withCanonical true original) with
      | nil =>
          exact ⟨middle, counts, _, rfl,
            restored_of_no_parent grounded broken links blocks rows parents⟩
      | cons parent others =>
          have found : parent ∈ orphanedParents middle (withCanonical true original) :=
            parents ▸ List.mem_cons_self
          have single := orphanedParents_eq_singleton (nodup_indexBlockHash middleGrounded) found
          rw [parents] at single
          cases single
          obtain ⟨below, gap⟩ := brokenAt_parent grounded broken links blocks found
          have heights : parent.blockHeight + 1 = original.blockHeight := below
          obtain ⟨db', updated', flag', rest, restored⟩ :=
            @ih middle _ parent counts middleGrounded blocks (mem_orphanedParents.mp found).1 gap
              (by omega)
          exact ⟨db', updated', flag', rest,
            restored.of_level grounded broken.mem links rows (by omega)⟩

/-! ## The tip and the parent of an incoming block -/

/-- The block that was stored first among those of maximum height. -/
def Db.tip? (db : Db) : Option (DbBlock Buffer) :=
  db.blocks.find? fun row => row.blockHeight = db.maxBlockHeight

theorem Db.tip?_map_link (db : Db) : db.tip?.map DbBlock.link = Chain.tip? db.links := by
  rw [Db.tip?, Chain.tip?, Db.links, List.find?_map]
  have same : (fun row : DbBlock Buffer => decide (row.blockHeight = db.maxBlockHeight)) =
      (fun b : Link Buffer => decide (b.height = maxHeight (db.blocks.map DbBlock.link))) ∘
        DbBlock.link := by
    funext row
    rw [db.maxBlockHeight_eq]
    rfl
  rw [same]

theorem Db.tip?_mem {db : Db} {tip : DbBlock Buffer} (isTip : db.tip? = some tip) :
    tip ∈ db.blocks ∧ tip.blockHeight = db.maxBlockHeight :=
  ⟨List.mem_of_find?_eq_some isTip, by simpa using List.find?_some isTip⟩

/-- The record that `getChainTipHeight` makes of the tip. -/
def chainTipOf : Option (DbBlock Buffer) → ChainTip
  | none =>
      { blockHeight := 0
        blockHash := bufferToHexPrefixString []
        indexBlockHash := bufferToHexPrefixString [] }
  | some row =>
      { blockHeight := row.blockHeight
        blockHash := bufferToHexPrefixString row.blockHash
        indexBlockHash := bufferToHexPrefixString row.indexBlockHash }

namespace ChainInvariant

variable {db db' : Db} {flag : Buffer → Bool}

theorem canonical_iff (invariant : ChainInvariant db flag) {row : DbBlock Buffer}
    (mem : row ∈ db.blocks) : row.canonical = true ↔ flag row.indexBlockHash = true := by
  rw [show row.canonical = flag row.indexBlockHash from invariant.blocks row mem]

/-- The query of `getChainTipHeight` finds the tip. -/
theorem getChainTipHeight_eq (invariant : ChainInvariant db flag) :
    getChainTipHeight db = chainTipOf db.tip? := by
  cases isTip : db.tip? with
  | none =>
      have empty : db.blocks = [] := by
        by_contra nonempty
        have linksNonempty : db.links ≠ [] := fun none => nonempty (List.map_eq_nil_iff.mp none)
        obtain ⟨top, topTip⟩ := exists_tip? linksNonempty
        rw [← db.tip?_map_link, isTip] at topTip
        cases topTip
      rw [getChainTipHeight, empty]
      rfl
  | some tip =>
      obtain ⟨mem, height⟩ := Db.tip?_mem isTip
      have linkTip : Chain.tip? db.links = some tip.link := by
        rw [← db.tip?_map_link, isTip]
        rfl
      have canonical : tip.canonical = true :=
        (invariant.canonical_iff mem).mpr (invariant.canonical.tip tip.link linkTip)
      have found : (db.blocks.filter fun row =>
          row.canonical && row.blockHeight = db.maxBlockHeight) = [tip] := by
        apply filter_eq_singleton (nodup_indexBlockHash invariant.grounded) mem
        · simp [canonical, height]
        · intro other otherMem matched
          rw [Bool.and_eq_true, decide_eq_true_eq] at matched
          have same : other.link = tip.link := invariant.canonical.unique other.link
            (List.mem_map_of_mem otherMem) tip.link (List.mem_map_of_mem mem)
            ((invariant.canonical_iff otherMem).mp matched.1)
            ((invariant.canonical_iff mem).mp canonical) (matched.2.trans height.symm)
          exact congrArg Link.hash same
      rw [getChainTipHeight, found]
      rfl

theorem getChainTipHeight_blockHeight (invariant : ChainInvariant db flag) :
    (getChainTipHeight db).blockHeight = maxHeight db.links := by
  rw [invariant.getChainTipHeight_eq, ← db.maxBlockHeight_eq]
  cases isTip : db.tip? with
  | none =>
      have none : Chain.tip? db.links = none := by
        rw [← db.tip?_map_link, isTip]
        rfl
      cases links : db.links with
      | nil => rw [db.maxBlockHeight_eq, links]; rfl
      | cons first rest =>
          obtain ⟨top, isTop⟩ := exists_tip? (links ▸ List.cons_ne_nil first rest)
          rw [none] at isTop
          cases isTop
  | some tip => exact (Db.tip?_mem isTip).2

end ChainInvariant

/-- Hashes being unique, the query for the parent finds at most one row. -/
theorem parentRows_cases {db : Db} (grounded : Grounded db.links) (blockHeight : Nat)
    (parentHash : Buffer) :
    parentRows db blockHeight parentHash = [] ∨
      ∃ parent ∈ db.blocks, parent.blockHeight + 1 = blockHeight ∧
        parent.indexBlockHash = parentHash ∧ parentRows db blockHeight parentHash = [parent] := by
  cases rows : parentRows db blockHeight parentHash with
  | nil => exact Or.inl rfl
  | cons parent rest =>
      right
      have found : parent ∈ parentRows db blockHeight parentHash := rows ▸ List.mem_cons_self
      obtain ⟨mem, holds⟩ := List.mem_filter.mp found
      obtain ⟨below, hash⟩ := of_decide_eq_true holds
      refine ⟨parent, mem, below, hash, rows.symm.trans ?_⟩
      apply filter_eq_singleton (nodup_indexBlockHash grounded) mem holds
      intro other _ matched
      exact (of_decide_eq_true matched).2.trans hash.symm

theorem parentRows_ne_nil {db : Db} {row : DbBlock Buffer} (mem : row ∈ db.blocks)
    {blockHeight : Nat} (below : row.blockHeight + 1 = blockHeight) :
    parentRows db blockHeight row.indexBlockHash ≠ [] :=
  List.ne_nil_of_mem (List.mem_filter.mpr ⟨mem, decide_eq_true ⟨below, rfl⟩⟩)

/-- The tables after `handleReorg` accepted an incoming block. -/
structure Prepared (db db' : Db) (flag flag' : Buffer → Bool) (block : DbBlock String) :
    Prop where
  links : db'.links = db.links
  spine : Spine db.links flag'
  blocks : Follows flag' db'.blocks
  rows : ∀ table, Follows flag (db.rows table) → Follows flag' (db'.rows table)
  low : block.blockHeight ≤ maxHeight db.links → db' = db ∧ flag' = flag
  parent : 1 < block.blockHeight → ∃ p ∈ db.links,
    hexToBuffer block.parentIndexBlockHash = .ok p.hash ∧ p.height + 1 = block.blockHeight ∧
      (maxHeight db.links < block.blockHeight → flag' p.hash = true)

/-- The parent of an incoming block is not stored one height below it. -/
def ParentMissing (db : Db) (block : DbBlock String) : Prop :=
  1 < block.blockHeight ∧ ∃ parentHash, hexToBuffer block.parentIndexBlockHash = .ok parentHash ∧
    ∀ p ∈ db.links, p.hash = parentHash → p.height + 1 ≠ block.blockHeight

section Reorganised

variable {db db' : Db} {flag flag' : Buffer → Bool} {block : DbBlock String}

/-- Nothing is reorganised where the parent is flagged, or is not asked for. -/
theorem ChainInvariant.prepared_self (invariant : ChainInvariant db flag)
    (parent : 1 < block.blockHeight → ∃ p ∈ db.links,
      hexToBuffer block.parentIndexBlockHash = .ok p.hash ∧ p.height + 1 = block.blockHeight ∧
        (maxHeight db.links < block.blockHeight → flag p.hash = true)) :
    Prepared db db flag flag block where
  links := rfl
  spine := invariant.canonical.toSpine
  blocks := invariant.blocks
  rows _ inStep := inStep
  low _ := ⟨rfl, rfl⟩
  parent := parent

/-- A block above the tip has the branch of its parent flagged. -/
theorem Restored.prepared {p : Link Buffer} (restored : Restored db db' flag flag' p)
    (mem : p ∈ db.links) (decoded : hexToBuffer block.parentIndexBlockHash = .ok p.hash)
    (below : p.height + 1 = block.blockHeight) (higher : maxHeight db.links < block.blockHeight) :
    Prepared db db' flag flag' block where
  links := restored.links
  spine := restored.spine
  blocks := restored.blocks
  rows := restored.rows
  low low := absurd higher (Nat.not_lt.mpr low)
  parent _ := ⟨p, mem, decoded, below, fun _ => restored.top⟩

/-- With its parent stored one height below, a block is handled. -/
theorem handleReorg_of_parent (invariant : ChainInvariant db flag)
    {parent : DbBlock Buffer} (mem : parent ∈ db.blocks)
    (below : parent.blockHeight + 1 = block.blockHeight)
    (decoded : hexToBuffer block.parentIndexBlockHash = .ok parent.indexBlockHash)
    (single : parentRows db block.blockHeight parent.indexBlockHash = [parent]) :
    ∃ db' counts flag', handleReorg db block (maxHeight db.links) = .ok (db', counts) ∧
      Prepared db db' flag flag' block := by
  have parentLink : parent.link ∈ db.links := List.mem_map_of_mem mem
  have pos : 1 ≤ parent.link.height := invariant.grounded.heightPos _ parentLink
  have heights : parent.link.height + 1 = block.blockHeight := below
  have high : 1 < block.blockHeight := by omega
  have result : handleReorg db block (maxHeight db.links) =
      if !parent.canonical ∧ block.blockHeight > maxHeight db.links then
        restoreOrphanedChain block.blockHeight db parent.indexBlockHash {}
      else .ok (db, {}) := by
    rw [handleReorg, if_pos high, decoded]
    simp only [bind, Except.bind, single]
    rfl
  rw [result]
  by_cases reorg : !parent.canonical ∧ block.blockHeight > maxHeight db.links
  · rw [if_pos reorg]
    have orphan : parent.canonical = false := by simpa using reorg.1
    have unflagged : flag parent.link.hash = false :=
      (invariant.blocks parent mem).symm.trans orphan
    have gap : BrokenAt db.links flag parent.link :=
      invariant.canonical.toSpine.brokenAt parentLink unflagged (by omega)
    obtain ⟨db', counts, flag', handled, restored⟩ :=
      @restoreOrphanedChain_ok block.blockHeight db flag parent {} invariant.grounded
        invariant.blocks mem gap (by omega)
    exact ⟨db', counts, flag', handled, restored.prepared parentLink decoded below reorg.2⟩
  · rw [if_neg reorg]
    refine ⟨db, {}, flag, rfl, invariant.prepared_self fun _ => ?_⟩
    refine ⟨parent.link, parentLink, decoded, below, fun higher => ?_⟩
    apply (invariant.canonical_iff mem).mp
    by_contra orphan
    exact reorg ⟨by simpa using orphan, higher⟩

end Reorganised

/-- `handleReorg` fails for a missing parent or a parent hash that is no
hexadecimal text, and otherwise flags the parent of a block above the tip. -/
theorem handleReorg_cases {db : Db} {flag : Buffer → Bool} (invariant : ChainInvariant db flag)
    (block : DbBlock String) :
    (1 < block.blockHeight ∧ ∃ error, hexToBuffer block.parentIndexBlockHash = .error error ∧
      handleReorg db block (maxHeight db.links) = .error error) ∨
    (ParentMissing db block ∧ handleReorg db block (maxHeight db.links) = .error
      (.reorg (.missingParent (block.blockHeight - 1) block.parentIndexBlockHash))) ∨
    ∃ db' counts flag', handleReorg db block (maxHeight db.links) = .ok (db', counts) ∧
      Prepared db db' flag flag' block := by
  by_cases high : 1 < block.blockHeight
  · cases decoded : hexToBuffer block.parentIndexBlockHash with
    | error error =>
        left
        refine ⟨high, error, rfl, ?_⟩
        rw [handleReorg, if_pos high, decoded]
        rfl
    | ok parentHash =>
        right
        rcases parentRows_cases invariant.grounded block.blockHeight parentHash with
          none | ⟨parent, mem, below, rfl, single⟩
        · left
          constructor
          · refine ⟨high, parentHash, decoded, ?_⟩
            intro p pMem hash height
            obtain ⟨row, rowMem, rfl⟩ := List.mem_map.mp pMem
            subst hash
            exact parentRows_ne_nil rowMem height none
          · rw [handleReorg, if_pos high, decoded]
            simp only [bind, Except.bind, none]
            rfl
        · right
          exact handleReorg_of_parent invariant mem below decoded single
  · right
    right
    refine ⟨db, {}, flag, ?_, invariant.prepared_self fun higher => absurd higher high⟩
    rw [handleReorg, if_neg high]

end StacksApi.Datastore
