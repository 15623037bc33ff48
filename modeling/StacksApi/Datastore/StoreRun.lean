import StacksApi.Datastore.Flags
import StacksApi.Datastore.Mempool

/-!
# Runs of the store

A run of the store is a sequence of updates and of mempool insertions in any
order.  Insertions touch nothing but the mempool, so the invariants of the
canonical chain and of the canonical flags hold throughout; and no transaction is
higher than its chain.
-/

namespace StacksApi.Datastore

open StacksApi.Binary
open StacksApi.Chain
open StacksApi.Relational
open StacksApi.Transition
open CanonicalEntity

/-- The calls that change the store. -/
inductive StoreCall
  | update (data : DataStoreUpdateData)
  | updateMempoolTx (mempoolTx : DbMempoolTx String)

/-- What a call makes of the tables, with the events that it emits. -/
def performCall (db : Db) : StoreCall → Except ApiError (Db × List DataStoreEvent)
  | .update data => update db data
  | .updateMempoolTx mempoolTx => updateMempoolTx db mempoolTx

/-- The tables after calls to an empty store. -/
def runStore (calls : List StoreCall) : Db :=
  run performCall Db.empty calls

theorem runStore_append_singleton (calls : List StoreCall) (call : StoreCall) :
    runStore (calls ++ [call]) = commit performCall (runStore calls) call :=
  run_append_singleton calls call

/-- The updates among the calls. -/
def updatesOf (calls : List StoreCall) : List DataStoreUpdateData :=
  calls.filterMap fun call =>
    match call with
    | .update data => some data
    | .updateMempoolTx _ => none

@[simp]
theorem updatesOf_append (first second : List StoreCall) :
    updatesOf (first ++ second) = updatesOf first ++ updatesOf second :=
  List.filterMap_append

theorem mem_updatesOf_last (past : List StoreCall) (data : DataStoreUpdateData) :
    data ∈ updatesOf (past ++ [.update data]) := by
  rw [updatesOf_append]
  exact List.mem_append_right _ List.mem_cons_self

/-- The entries name the block of their update in all columns, as
`handleClientMessage` builds them. -/
structure DataStoreUpdateData.Attributed (data : DataStoreUpdateData) : Prop where
  carries : data.Carries
  blockHeight : ∀ entry ∈ data.txs, entry.tx.blockHeight = data.block.blockHeight

/-- What is asked of the calls of a run. -/
structure RegularCalls (calls : List StoreCall) : Prop where
  consistent : Consistent (updatesOf calls)
  attributed : ∀ data ∈ updatesOf calls, data.Attributed

theorem RegularCalls.of_prefix {first second : List StoreCall} (regular : RegularCalls second)
    (isPrefix : first <+: second) : RegularCalls first := by
  obtain ⟨rest, rfl⟩ := isPrefix
  have subset : updatesOf first ⊆ updatesOf (first ++ rest) := by
    rw [updatesOf_append]
    exact List.subset_append_left _ _
  exact ⟨regular.consistent.of_subset subset, fun data mem => regular.attributed data (subset mem)⟩

/-! ## Invariants -/

/-- No transaction is higher than the highest block. -/
def TxsBelowTip (db : Db) : Prop :=
  ∀ tx ∈ db.txs, tx.blockHeight ≤ maxHeight db.links

/-- The invariants of the store with the flags of its blocks. -/
structure StoreInvariant (db : Db) (flag : Buffer → Bool) : Prop where
  chain : ChainInvariant db flag
  rows : RowsInvariant db flag
  heights : TxsBelowTip db

theorem StoreInvariant.empty : StoreInvariant Db.empty fun _ => false where
  chain := ⟨Grounded.nil, Canonical.nil _, fun _ mem => nomatch mem⟩
  rows := RowsInvariant.empty _
  heights := fun _ mem => nomatch mem

theorem RowsInvariant.withMempoolTxs {db : Db} {flag : Buffer → Bool}
    (invariant : RowsInvariant db flag) (pool : List (DbMempoolTx Buffer)) :
    RowsInvariant { db with mempoolTxs := pool } flag where
  follows table := by cases table <;> exact invariant.follows _
  attached table := by cases table <;> exact invariant.attached _

section Step

variable {db reorged pruned db' : Db} {flag flag' : Buffer → Bool} {data : DataStoreUpdateData}
variable {row : DbBlock Buffer}

theorem Extended.txsBelowTip (extended : Extended db reorged pruned db' flag flag' data row)
    (accepted : Accepted db data reorged pruned row db') (canonical : data.block.canonical = true)
    (attributed : data.Attributed) (heights : TxsBelowTip db) : TxsBelowTip db' := by
  intro tx mem
  rw [extended.links, maxHeight_append_singleton]
  rcases accepted.tx_cases mem with ⟨original, originalMem, same⟩ | ⟨entry, entryMem, recorded⟩
  · have sameHeight : original.blockHeight = tx.blockHeight :=
      congrArg (fun tx => tx.blockHeight) same
    rw [← sameHeight]
    exact Nat.le_trans (heights original originalMem) (Nat.le_max_left _ _)
  · obtain ⟨-, -, blockHeight, -⟩ := accepted.decodedBlock canonical
    have linkHeight : row.link.height = data.block.blockHeight := blockHeight
    rw [recorded.blockHeight, attributed.blockHeight entry entryMem, ← linkHeight]
    exact Nat.le_max_right _ _

end Step

/-- A call adds a block to the forest, or changes nothing but the mempool. -/
theorem ChainInvariant.commit_performCall {db : Db} {flag : Buffer → Bool}
    (invariant : ChainInvariant db flag) {call : StoreCall}
    (incoming : ∀ data, call = .update data → Incoming db data) :
    (∃ pool, commit performCall db call = { db with mempoolTxs := pool }) ∨
      ∃ data reorged pruned row flag', call = .update data ∧
        Accepted db data reorged pruned row (commit performCall db call) ∧
          Extended db reorged pruned (commit performCall db call) flag flag' data row := by
  cases call with
  | update data =>
      rcases invariant.commit_update (incoming data rfl) with
        ⟨-, same⟩ | ⟨reorged, pruned, row, flag', accepted, extended⟩
      · exact Or.inl ⟨db.mempoolTxs, same⟩
      · exact Or.inr ⟨data, reorged, pruned, row, flag', rfl, accepted, extended⟩
  | updateMempoolTx mempoolTx =>
      left
      cases result : performCall db (.updateMempoolTx mempoolTx) with
      | error error => exact ⟨_, commit_of_error result⟩
      | ok outcome =>
          obtain ⟨row, -, ⟨-, same, -⟩ | ⟨-, same, -⟩⟩ := updateMempoolTx_ok result
          · exact ⟨_, (commit_of_ok result).trans same⟩
          · exact ⟨_, (commit_of_ok result).trans same⟩

theorem incoming_of_call {past : List StoreCall} {call : StoreCall} {db : Db}
    (consistent : Consistent (updatesOf (past ++ [call])))
    (linksFrom : LinksFrom (updatesOf past) db.links) (data : DataStoreUpdateData)
    (isUpdate : call = .update data) : Incoming db data := by
  subst isUpdate
  rw [updatesOf_append] at consistent
  exact incoming_of_consistent consistent linksFrom

/-- Induction on a run of the store: the invariant of the canonical chain holds
throughout, and a further property is kept if it does not look at the mempool and the
addition of a block keeps it. -/
theorem runStore_induction {P : List StoreCall → Db → (Buffer → Bool) → Prop}
    (empty : P [] Db.empty fun _ => false)
    (skip : ∀ past call db flag pool, P past db flag →
      P (past ++ [call]) { db with mempoolTxs := pool } flag)
    (extend : ∀ past data db reorged pruned row db' flag flag',
      Consistent (updatesOf (past ++ [.update data])) → P past db flag →
      Accepted db data reorged pruned row db' →
      Extended db reorged pruned db' flag flag' data row →
      P (past ++ [.update data]) db'
        (Function.update flag' row.indexBlockHash (decide (Heightens db data))))
    {calls : List StoreCall} (consistent : Consistent (updatesOf calls)) :
    ∃ flag, ChainInvariant (runStore calls) flag ∧
      LinksFrom (updatesOf calls) (runStore calls).links ∧ P calls (runStore calls) flag := by
  revert consistent
  apply run_induction (motive := fun calls db => Consistent (updatesOf calls) →
    ∃ flag, ChainInvariant db flag ∧ LinksFrom (updatesOf calls) db.links ∧ P calls db flag)
  · intro _
    refine ⟨_, StoreInvariant.empty.chain, ?_, empty⟩
    rintro b ⟨⟩
  · intro past call ih consistent
    have subset : updatesOf past ⊆ updatesOf (past ++ [call]) := by
      rw [updatesOf_append]
      exact List.subset_append_left _ _
    obtain ⟨flag, invariant, linksFrom, holds⟩ := ih (consistent.of_subset subset)
    rcases invariant.commit_performCall (incoming_of_call consistent linksFrom) with
      ⟨pool, same⟩ | ⟨data, reorged, pruned, row, flag', rfl, accepted, extended⟩
    · rw [same]
      exact ⟨flag, ⟨invariant.grounded, invariant.canonical, invariant.blocks⟩,
        linksFrom.mono subset, skip past call _ flag pool holds⟩
    · have canonical : data.block.canonical = true :=
        consistent.canonical data (List.mem_filterMap.mpr
          ⟨.update data, List.mem_append_right _ List.mem_cons_self, rfl⟩)
      refine ⟨_, extended.invariant, ?_,
        extend past data _ reorged pruned row _ flag flag' consistent holds accepted extended⟩
      rw [updatesOf_append]
      exact extended.linksFrom accepted canonical linksFrom

/-- The invariant of the canonical chain holds after every run. -/
theorem runStore_chainInvariant {calls : List StoreCall}
    (consistent : Consistent (updatesOf calls)) :
    ∃ flag, ChainInvariant (runStore calls) flag ∧
      LinksFrom (updatesOf calls) (runStore calls).links := by
  obtain ⟨flag, invariant, linksFrom, -⟩ := @runStore_induction (fun _ _ _ => True) trivial
    (fun _ _ _ _ _ _ => trivial) (fun _ _ _ _ _ _ _ _ _ _ _ _ _ => trivial) calls consistent
  exact ⟨flag, invariant, linksFrom⟩

/-- The invariants hold after every run. -/
theorem runStore_invariant {calls : List StoreCall} (regular : RegularCalls calls) :
    ∃ flag, StoreInvariant (runStore calls) flag ∧
      LinksFrom (updatesOf calls) (runStore calls).links := by
  suffices holds : ∃ flag, ChainInvariant (runStore calls) flag ∧
      LinksFrom (updatesOf calls) (runStore calls).links ∧
        (RegularCalls calls → RowsInvariant (runStore calls) flag ∧ TxsBelowTip (runStore calls)) by
    obtain ⟨flag, chain, linksFrom, holds⟩ := holds
    obtain ⟨rows, heights⟩ := holds regular
    exact ⟨flag, ⟨chain, rows, heights⟩, linksFrom⟩
  apply @runStore_induction
    (fun calls db flag => RegularCalls calls → RowsInvariant db flag ∧ TxsBelowTip db)
    (fun _ => ⟨StoreInvariant.empty.rows, StoreInvariant.empty.heights⟩) _ _ calls
    regular.consistent
  · intro past call db flag pool holds regular
    obtain ⟨rows, heights⟩ := holds (regular.of_prefix (List.prefix_append past [call]))
    exact ⟨rows.withMempoolTxs pool, heights⟩
  · intro past data db reorged pruned row db' flag flag' consistent holds accepted extended regular
    obtain ⟨rows, heights⟩ := holds (regular.of_prefix (List.prefix_append past [.update data]))
    have last := mem_updatesOf_last past data
    have canonical := consistent.canonical data last
    have attributed := regular.attributed data last
    exact ⟨extended.rowsInvariant accepted canonical attributed.carries rows,
      extended.txsBelowTip accepted canonical attributed heights⟩

end StacksApi.Datastore
