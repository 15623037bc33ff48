import StacksApi.Datastore.Answers

/-!
# Searching for a hash

`searchHash` looks for a hash among the transactions in blocks, then among the pending
ones, then among the blocks, and takes the first row that the database returns.
-/

namespace StacksApi.Datastore

open StacksApi.Binary
open StacksApi.Relational
open StacksApi.Transition

/-- The entity type with the id and the data of the entity. -/
inductive DbSearchResult
  | txId (entityId : String) (entityData : DbTx String)
  | mempoolTxId (entityId : String) (entityData : DbMempoolTx String)
  | blockHash (entityId : String) (entityData : DbBlock String)
  deriving DecidableEq

/-- What a hash belongs to: a mined transaction, a pending one, or a block. -/
def searchHash (db : Db) (hash : String) : Except ApiError (Option DbSearchResult) := do
  let buffer ← hexToBuffer hash
  match (db.txs.filter fun row => row.txId = buffer).head? with
  | some row =>
      let txResult ← parseTxQueryResult row
      return some (.txId (bufferToHexPrefixString row.txId) txResult)
  | none =>
      match (db.mempoolTxs.filter fun row => row.txId = buffer).head? with
      | some row =>
          let txResult ← parseMempoolTxQueryResult row
          return some (.mempoolTxId (bufferToHexPrefixString row.txId) txResult)
      | none =>
          match (db.blocks.filter fun row => row.blockHash = buffer).head? with
          | some row =>
              return some (.blockHash (bufferToHexPrefixString row.blockHash)
                (parseBlockQueryResult row))
          | none => return none

section Found

variable {db : Db} {hash : String} {buffer : Buffer}

theorem searchHash_tx (decoded : hexToBuffer hash = .ok buffer) {row : DbTx Buffer}
    (head : (db.txs.filter fun row => row.txId = buffer).head? = some row) {tx : DbTx String}
    (parsed : parseTxQueryResult row = .ok tx) :
    searchHash db hash = .ok (some (.txId (bufferToHexPrefixString row.txId) tx)) := by
  rw [searchHash, decoded]
  simp only [bind, Except.bind, head, parsed]
  rfl

theorem searchHash_mempoolTx (decoded : hexToBuffer hash = .ok buffer)
    (noTx : (db.txs.filter fun row => row.txId = buffer) = []) {row : DbMempoolTx Buffer}
    (head : (db.mempoolTxs.filter fun row => row.txId = buffer).head? = some row)
    {tx : DbMempoolTx String} (parsed : parseMempoolTxQueryResult row = .ok tx) :
    searchHash db hash = .ok (some (.mempoolTxId (bufferToHexPrefixString row.txId) tx)) := by
  rw [searchHash, decoded]
  simp only [bind, Except.bind, noTx, List.head?_nil, head, parsed]
  rfl

theorem searchHash_block (decoded : hexToBuffer hash = .ok buffer)
    (noTx : (db.txs.filter fun row => row.txId = buffer) = [])
    (noPending : (db.mempoolTxs.filter fun row => row.txId = buffer) = []) :
    searchHash db hash =
      .ok ((db.blocks.filter fun row => row.blockHash = buffer).head?.map fun row =>
        .blockHash (bufferToHexPrefixString row.blockHash) (parseBlockQueryResult row)) := by
  rw [searchHash, decoded]
  simp only [bind, Except.bind, noTx, noPending, List.head?_nil]
  cases (db.blocks.filter fun row => row.blockHash = buffer).head? <;> rfl

theorem getTx_of_head (decoded : hexToBuffer hash = .ok buffer) {row : DbTx Buffer}
    (head : (orderByDesc (fun row : DbTx Buffer => toLex (row.canonical, row.blockHeight))
      (db.txs.filter fun row => row.txId = buffer)).head? = some row) {tx : DbTx String}
    (parsed : parseTxQueryResult row = .ok tx) : getTx db hash = .ok (some tx) := by
  rw [getTx, decoded]
  simp only [bind, Except.bind, head, parsed]
  rfl

theorem getTx_of_nil (decoded : hexToBuffer hash = .ok buffer)
    (noTx : (db.txs.filter fun row => row.txId = buffer) = []) : getTx db hash = .ok none := by
  rw [getTx, decoded]
  simp only [bind, Except.bind, noTx]
  rfl

theorem getMempoolTx_of_singleton (decoded : hexToBuffer hash = .ok buffer)
    {row : DbMempoolTx Buffer}
    (single : (db.mempoolTxs.filter fun row => row.txId = buffer) = [row])
    {tx : DbMempoolTx String} (parsed : parseMempoolTxQueryResult row = .ok tx) :
    getMempoolTx db hash = .ok (some tx) := by
  rw [getMempoolTx, decoded]
  simp only [bind, Except.bind, single, parsed]
  rfl

theorem getMempoolTx_of_nil (decoded : hexToBuffer hash = .ok buffer)
    (noPending : (db.mempoolTxs.filter fun row => row.txId = buffer) = []) :
    getMempoolTx db hash = .ok none := by
  rw [getMempoolTx, decoded]
  simp only [bind, Except.bind, noPending]
  rfl

theorem getBlock_eq (decoded : hexToBuffer hash = .ok buffer) :
    getBlock db hash =
      .ok ((orderByDesc (fun row : DbBlock Buffer => toLex (row.canonical, row.blockHeight))
        (db.blocks.filter fun row => row.blockHash = buffer)).head?.map parseBlockQueryResult) := by
  rw [getBlock, decoded]
  rfl

end Found

/-! ## Reading a chosen row first -/

/-- A database may read any row first. -/
theorem exists_scan_txs {db : Db} {row : DbTx Buffer} (mem : row ∈ db.txs) :
    ∃ scanned, Scan db scanned ∧ ∃ rest, scanned.txs = row :: rest := by
  have perm : db.txs.Perm (row :: db.txs.erase row) := List.perm_cons_erase mem
  refine ⟨{ db with txs := row :: db.txs.erase row }, ?_, _, rfl⟩
  refine ⟨⟨List.Perm.refl _, fun table => ?_⟩, List.Perm.refl _⟩
  cases table with
  | txs => exact perm
  | _ => exact List.Perm.refl _

theorem exists_scan_blocks {db : Db} {row : DbBlock Buffer} (mem : row ∈ db.blocks) :
    ∃ scanned, Scan db scanned ∧ ∃ rest, scanned.blocks = row :: rest := by
  refine ⟨{ db with blocks := row :: db.blocks.erase row }, ?_, _, rfl⟩
  refine ⟨⟨List.perm_cons_erase mem, fun table => ?_⟩, List.Perm.refl _⟩
  cases table <;> exact List.Perm.refl _

/-- Rows that one column tells apart and that all have the same value in it are at most one. -/
theorem length_le_one_of_nodup_map {α β : Type} {column : α → β} {rows : List α}
    (distinct : (rows.map column).Nodup)
    (same : ∀ first ∈ rows, ∀ second ∈ rows, column first = column second) : rows.length ≤ 1 := by
  cases rows with
  | nil => exact Nat.zero_le 1
  | cons first rest =>
      cases rest with
      | nil => exact Nat.le_refl 1
      | cons second rest =>
          rw [List.map_cons, List.map_cons, List.nodup_cons] at distinct
          have equal := same first List.mem_cons_self second
            (List.mem_cons_of_mem _ List.mem_cons_self)
          exact absurd (equal ▸ List.mem_cons_self) distinct.1

/-- At most one row is the first in every order of reading. -/
theorem eq_singleton_of_head? {α : Type} {first second : List α} {row : α}
    (perm : first.Perm second) (atMostOne : second.length ≤ 1) (head : first.head? = some row) :
    second = [row] := by
  have mem : row ∈ second := perm.mem_iff.mp (List.mem_of_head? head)
  cases second with
  | nil => cases mem
  | cons other rest =>
      obtain rfl : rest = [] := List.length_eq_zero_iff.mp (by simpa using atMostOne)
      rw [List.mem_singleton.mp mem]

end StacksApi.Datastore
