import StacksApi.Datastore.PageByPage
import StacksApi.Relational.Ties

/-!
# The mempool page by page

`getMempoolTxList` sorts by the time of receipt alone, which transactions of one message
share.  Page by page it lists them all, whatever orders the queries read, exactly when the
transactions of each time are on one page.
-/

namespace StacksApi.Datastore

open StacksApi.Binary
open StacksApi.Relational
open StacksApi.Transition

/-- Page by page, with a query for each page that reads the tables in an order of its own,
every transaction of the mempool is listed exactly once. -/
def MempoolListed (db : Db) (limit : Nat) : Prop :=
  ∀ read : Nat → Db, (∀ number, Scan db (read number)) →
    ∀ count, db.mempoolTxs.length ≤ count * limit →
      ∃ results records,
        readPages (fun number offset =>
            (getMempoolTxList (read number) limit offset).map Listing.results) limit count =
          .ok results ∧
        db.mempoolTxs.mapM parseMempoolTxQueryResult = .ok records ∧ results.Perm records

variable {db : Db} {limit : Nat}

/-- The pages are those of the tables that the queries read. -/
theorem readPages_getMempoolTxList (read : Nat → Db) (count : Nat) :
    readPages (fun number offset =>
        (getMempoolTxList (read number) limit offset).map Listing.results) limit count =
      (listedPages limit (fun number =>
        orderByDesc DbMempoolTx.receiptTime (read number).mempoolTxs) count).mapM
          parseMempoolTxQueryResult := by
  apply readPages_eq_listedPages
  intro number
  exact map_results_parsed

/-- Where ids are unique and the rows can be parsed, the mempool is listed page by page exactly
when no page cuts the transactions of one time in two. -/
theorem mempoolListed_iff (positive : 0 < limit)
    (nodup : (db.mempoolTxs.map fun row => row.txId).Nodup)
    (parses : ∀ row ∈ db.mempoolTxs, Succeeds (parseMempoolTxQueryResult row)) :
    MempoolListed db limit ↔ TiesOnOnePage DbMempoolTx.receiptTime limit db.mempoolTxs := by
  obtain ⟨records, recorded⟩ := succeeds_mapM_iff.mpr parses
  constructor
  · intro listed
    by_contra cut
    obtain ⟨rows, front, before, behind, back, perm, parts, pages⟩ :=
      exists_listedPages_of_not_tiesOnOnePage positive cut
    let read : Nat → Db := fun number => { db with mempoolTxs := rows number }
    have scans : ∀ number, Scan db (read number) := fun number =>
      { Scan.refl db with mempoolTxs := perm number }
    have enough : db.mempoolTxs.length ≤ db.mempoolTxs.length * limit :=
      Nat.le_mul_of_pos_right _ positive
    obtain ⟨results, records', listedOk, recorded', resultsPerm⟩ :=
      listed read scans db.mempoolTxs.length enough
    rw [readPages_getMempoolTxList, pages _ enough] at listedOk
    have identified : ∀ row tx, parseMempoolTxQueryResult row = .ok tx →
        tx.txId = bufferToHexPrefixString row.txId := fun _ _ => txId_of_parsedMempool
    have distinct : (db.mempoolTxs.map fun row => bufferToHexPrefixString row.txId).Nodup := by
      have named := nodup.map bufferToHexPrefixString_injective
      rwa [List.map_map] at named
    exact not_perm_of_repeated identified distinct parts listedOk recorded' resultsPerm
  · intro ties read scans count enough
    have listed := ties.listedPages_perm (fun number => (scans number).mempoolTxs) enough
    obtain ⟨results, computed, resultsPerm⟩ := mapM_perm_ok listed recorded
    exact ⟨results, records, (readPages_getMempoolTxList read count).trans computed, recorded,
      resultsPerm⟩

end StacksApi.Datastore
