import StacksApi.Datastore.ChainRun
import StacksApi.Datastore.Query

/-!
# Answers of the queries

A database reads the rows of a table in an order of its own, so a query may give
any of its answers over all orders.  Tables with the same rows may therefore give
the same answers; balances do not depend on the order at all, and the listing of
blocks does not as long as one canonical block stands at each height.
-/

namespace StacksApi.Datastore

open StacksApi.Relational

/-- The tables have the same rows, up to their serial numbers. -/
structure SameTables (db db' : Db) : Prop where
  blocks : db.blocks.Perm db'.blocks
  rows : ∀ table, (db.rows table).Perm (db'.rows table)

/-- The tables as they may be read. -/
structure Scan (db scanned : Db) : Prop extends SameTables db scanned where
  mempoolTxs : db.mempoolTxs.Perm scanned.mempoolTxs

namespace Scan

variable {db db' db'' : Db}

theorem refl (db : Db) : Scan db db where
  blocks := List.Perm.refl _
  rows _ := List.Perm.refl _
  mempoolTxs := List.Perm.refl _

theorem symm (scan : Scan db db') : Scan db' db where
  blocks := scan.blocks.symm
  rows table := (scan.rows table).symm
  mempoolTxs := scan.mempoolTxs.symm

theorem trans (first : Scan db db') (second : Scan db' db'') : Scan db db'' where
  blocks := first.blocks.trans second.blocks
  rows table := (first.rows table).trans (second.rows table)
  mempoolTxs := first.mempoolTxs.trans second.mempoolTxs

end Scan

/-- The query yields the answer in some order of reading. -/
def MayAnswer {β : Type} (query : Db → β) (db : Db) (answer : β) : Prop :=
  ∃ scanned, Scan db scanned ∧ query scanned = answer

theorem Scan.mayAnswer_iff {β : Type} {query : Db → β} {db db' : Db} (scan : Scan db db')
    (answer : β) : MayAnswer query db answer ↔ MayAnswer query db' answer := by
  constructor
  · rintro ⟨scanned, read, same⟩
    exact ⟨scanned, scan.symm.trans read, same⟩
  · rintro ⟨scanned, read, same⟩
    exact ⟨scanned, scan.trans read, same⟩

/-! ## Independence of the order -/

theorem sumColumn_eq_of_perm {α : Type} {amount : α → Int} {first second : List α}
    (perm : first.Perm second) :
    (sumColumn amount first).getD 0 = (sumColumn amount second).getD 0 := by
  rw [getD_sumColumn, getD_sumColumn]
  exact (perm.map amount).sum_eq

theorem getStxBalance_eq_of_sameTables {db db' : Db} (same : SameTables db db')
    (stxAddress : String) : getStxBalance db stxAddress = getStxBalance db' stxAddress := by
  have events : db.stxEvents.Perm db'.stxEvents := same.rows .stxEvents
  have txs : db.txs.Perm db'.txs := same.rows .txs
  simp only [getStxBalance, TokenBalance.mk.injEq]
  rw [sumColumn_eq_of_perm ((events.filter _).filter _),
    sumColumn_eq_of_perm ((events.filter _).filter _), sumColumn_eq_of_perm (txs.filter _)]
  exact ⟨rfl, rfl, rfl⟩

/-- The map of balances has the same entries. -/
theorem getFungibleTokenBalances_perm {db db' : Db} (same : SameTables db db')
    (localeCompare : String → String → Int) (stxAddress : String) :
    (getFungibleTokenBalances localeCompare db stxAddress).Perm
      (getFungibleTokenBalances localeCompare db' stxAddress) := by
  have events : db.ftEvents.Perm db'.ftEvents := same.rows .ftEvents
  have joined := fullJoin_perm
    (groupSum_perm (fun row => row.entity.assetIdentifier) (fun row => row.entity.amount)
      ((events.filter fun row => row.entity.canonical &&
        (row.entity.sender = some stxAddress || row.entity.recipient = some stxAddress)).filter
          fun row => row.entity.recipient = some stxAddress))
    (groupSum_perm (fun row => row.entity.assetIdentifier) (fun row => row.entity.amount)
      ((events.filter fun row => row.entity.canonical &&
        (row.entity.sender = some stxAddress || row.entity.recipient = some stxAddress)).filter
          fun row => row.entity.sender = some stxAddress))
    (nodup_groupSum _ _ _)
  exact (((List.perm_insertionSort _ _).trans joined).trans
    (List.perm_insertionSort _ _).symm).map _

/-- One canonical block at each height makes the listing of blocks definite. -/
theorem getBlocks_eq_of_sameTables {db db' : Db} (same : SameTables db db')
    (chain : CanonicalChain db) (heightPos : ∀ row ∈ db.blocks, 1 ≤ row.blockHeight)
    (limit offset : Int) : getBlocks db limit offset = getBlocks db' limit offset := by
  have canonical : (db.blocks.filter DbBlock.canonical).Perm
      (db'.blocks.filter DbBlock.canonical) := same.blocks.filter _
  have ordered : orderByDesc DbBlock.blockHeight (db.blocks.filter DbBlock.canonical) =
      orderByDesc DbBlock.blockHeight (db'.blocks.filter DbBlock.canonical) := by
    apply orderByDesc_eq_of_perm canonical
    intro row rowMem other otherMem sameHeight
    obtain ⟨inBlocks, flagged⟩ := List.mem_filter.mp rowMem
    obtain ⟨otherInBlocks, otherFlagged⟩ := List.mem_filter.mp otherMem
    have low : row.blockHeight ≤ db.maxBlockHeight := by
      rw [db.maxBlockHeight_eq]
      have link : row.link ∈ db.links := List.mem_map_of_mem inBlocks
      exact Chain.height_le_maxHeight link
    obtain ⟨only, -, unique⟩ := chain.atHeight row.blockHeight (heightPos row inBlocks) low
    have isRow := unique row ⟨inBlocks, flagged, rfl⟩
    have isOther := unique other ⟨otherInBlocks, otherFlagged, sameHeight.symm⟩
    exact isRow.trans isOther.symm
  rw [getBlocks, getBlocks]
  simp only [ordered, canonical.length_eq]

/-- The queries for lists and balances may answer the same. -/
structure SameAnswers (db db' : Db) : Prop where
  getBlocks : ∀ limit offset, getBlocks db limit offset = getBlocks db' limit offset
  getTxList : ∀ limit offset txTypeFilter answer,
    MayAnswer (fun read => getTxList read limit offset txTypeFilter) db answer ↔
      MayAnswer (fun read => getTxList read limit offset txTypeFilter) db' answer
  getStxBalance : ∀ stxAddress, getStxBalance db stxAddress = getStxBalance db' stxAddress
  getFungibleTokenBalances : ∀ localeCompare stxAddress,
    (getFungibleTokenBalances localeCompare db stxAddress).Perm
      (getFungibleTokenBalances localeCompare db' stxAddress)

theorem Scan.sameAnswers {db db' : Db} (scan : Scan db db') (chain : CanonicalChain db)
    (heightPos : ∀ row ∈ db.blocks, 1 ≤ row.blockHeight) : SameAnswers db db' where
  getBlocks := getBlocks_eq_of_sameTables scan.toSameTables chain heightPos
  getTxList _ _ _ answer := scan.mayAnswer_iff answer
  getStxBalance := getStxBalance_eq_of_sameTables scan.toSameTables
  getFungibleTokenBalances := getFungibleTokenBalances_perm scan.toSameTables

end StacksApi.Datastore
