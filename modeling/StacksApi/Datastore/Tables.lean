import StacksApi.Datastore.Update
import StacksApi.Transition.Fallible

/-!
# What a reorganisation does to the tables

The six tables whose rows repeat the canonical flag of their block are indexed
by `EntityTable`, so that one statement covers them.  A level of a
reorganisation is described once, by `restoreOrphanedBlock_ok`; properties that
each level keeps are then kept by `handleReorg`.  The first of them is that only
flags change and that only mempool rows disappear.
-/

namespace StacksApi.Datastore

open StacksApi.Binary
open StacksApi.Relational
open StacksApi.Transition
open CanonicalEntity

/-- The tables that repeat the canonical flag of `blocks`. -/
inductive EntityTable
  | txs
  | stxEvents
  | ftEvents
  | nftEvents
  | contractLogs
  | smartContracts
  deriving DecidableEq

namespace EntityTable

/-- The rows of a table. -/
def Row : EntityTable → Type
  | txs => DbTx Buffer
  | stxEvents => InBlock (DbStxEvent Buffer)
  | ftEvents => InBlock (DbFtEvent Buffer)
  | nftEvents => InBlock (DbNftEvent Buffer)
  | contractLogs => InBlock (DbSmartContractEvent Buffer)
  | smartContracts => InBlock (DbSmartContract Buffer)

instance (table : EntityTable) : Flagged table.Row Buffer :=
  match table with
  | txs => inferInstanceAs (Flagged (DbTx Buffer) Buffer)
  | stxEvents => inferInstanceAs (Flagged (InBlock (DbStxEvent Buffer)) Buffer)
  | ftEvents => inferInstanceAs (Flagged (InBlock (DbFtEvent Buffer)) Buffer)
  | nftEvents => inferInstanceAs (Flagged (InBlock (DbNftEvent Buffer)) Buffer)
  | contractLogs => inferInstanceAs (Flagged (InBlock (DbSmartContractEvent Buffer)) Buffer)
  | smartContracts => inferInstanceAs (Flagged (InBlock (DbSmartContract Buffer)) Buffer)

end EntityTable

/-- The rows of one of the tables. -/
def Db.rows (db : Db) : (table : EntityTable) → List table.Row
  | .txs => db.txs
  | .stxEvents => db.stxEvents
  | .ftEvents => db.ftEvents
  | .nftEvents => db.nftEvents
  | .contractLogs => db.contractLogs
  | .smartContracts => db.smartContracts

/-! ## The mempool -/

@[simp]
theorem Db.blocks_withoutMempoolTxs (db : Db) (txIds : List Buffer) :
    (db.withoutMempoolTxs txIds).blocks = db.blocks :=
  rfl

@[simp]
theorem Db.rows_withoutMempoolTxs (db : Db) (txIds : List Buffer) (table : EntityTable) :
    (db.withoutMempoolTxs txIds).rows table = db.rows table := by
  cases table <;> rfl

theorem Db.mem_withoutMempoolTxs {db : Db} {txIds : List Buffer} {row : DbMempoolTx Buffer} :
    row ∈ (db.withoutMempoolTxs txIds).mempoolTxs ↔ row ∈ db.mempoolTxs ∧ row.txId ∉ txIds := by
  simp [withoutMempoolTxs]

theorem Db.sublist_withoutMempoolTxs (db : Db) (txIds : List Buffer) :
    (db.withoutMempoolTxs txIds).mempoolTxs.Sublist db.mempoolTxs :=
  List.filter_sublist

/-- Pruning removes the rows with one of the decoded ids. -/
theorem pruneMempoolTxs_ok {db db' : Db} {txIds removed : List String}
    (pruned : pruneMempoolTxs db txIds = .ok (db', removed)) :
    ∃ buffers, txIds.mapM hexToBuffer = .ok buffers ∧ db' = db.withoutMempoolTxs buffers := by
  cases txIds with
  | nil =>
      rw [pruneMempoolTxs, Except.ok.injEq, Prod.mk.injEq] at pruned
      refine ⟨[], rfl, ?_⟩
      rw [← pruned.1]
      simp [Db.withoutMempoolTxs]
  | cons first rest =>
      rw [pruneMempoolTxs] at pruned
      · cases decoded : (first :: rest).mapM hexToBuffer with
        | error error =>
            rw [decoded] at pruned
            cases pruned
        | ok buffers =>
            rw [decoded] at pruned
            cases pruned
            exact ⟨buffers, rfl, rfl⟩
      · simp

theorem pruneMempoolTxs_hex (db : Db) (buffers : List Buffer) :
    ∃ removed, pruneMempoolTxs db (buffers.map bufferToHexPrefixString) =
      .ok (db.withoutMempoolTxs buffers, removed) := by
  cases buffers with
  | nil =>
      refine ⟨[], ?_⟩
      simp [pruneMempoolTxs, Db.withoutMempoolTxs]
  | cons first rest =>
      refine ⟨((db.mempoolTxs.filter fun row => row.txId ∈ first :: rest).map fun row =>
        bufferToHexPrefixString row.txId), ?_⟩
      rw [List.map_cons, pruneMempoolTxs, ← List.map_cons,
        mapM_hexToBuffer_bufferToHexPrefixString]
      · rfl
      · simp

/-! ## Marking -/

section Mark

variable (db : Db) (indexBlockHash : Buffer) (canonical : Bool) (updated : UpdatedEntities)

@[simp]
theorem blocks_markEntitiesCanonical :
    (markEntitiesCanonical db indexBlockHash canonical updated).1.blocks = db.blocks :=
  rfl

@[simp]
theorem mempoolTxs_markEntitiesCanonical :
    (markEntitiesCanonical db indexBlockHash canonical updated).1.mempoolTxs = db.mempoolTxs :=
  rfl

@[simp]
theorem rows_markEntitiesCanonical (table : EntityTable) :
    (markEntitiesCanonical db indexBlockHash canonical updated).1.rows table =
      (setFlag indexBlockHash canonical (db.rows table)).1 := by
  cases table <;> rfl

/-- The ids of the rows that became canonical. -/
theorem txIds_markEntitiesCanonical :
    (markEntitiesCanonical db indexBlockHash true updated).2.1 =
      ((setFlag indexBlockHash true db.txs).2.map fun row => row.txId).map
        bufferToHexPrefixString := by
  rw [List.map_map]
  rfl

end Mark

/-- The blocks after `orphanConflicting`, and those that it orphaned. -/
def conflicting (restored : DbBlock Buffer) (blocks : List (DbBlock Buffer)) :
    List (DbBlock Buffer) × List (DbBlock Buffer) :=
  updateRows
    (fun row => decide (row.blockHeight = restored.blockHeight ∧
      row.indexBlockHash ≠ restored.indexBlockHash) && row.canonical)
    (withCanonical false) blocks

/-- The rows of a table after the first orphaned block lost its flag. -/
def unmarkFirst {α : Type} [Flagged α Buffer] (orphaned : List (DbBlock Buffer))
    (rows : List α) : List α :=
  match orphaned with
  | [] => rows
  | orphan :: _ => (setFlag orphan.indexBlockHash false rows).1

section Orphan

variable (db : Db) (restored : DbBlock Buffer) (updated : UpdatedEntities)

theorem blocks_orphanConflicting :
    (orphanConflicting db restored updated).1.blocks = (conflicting restored db.blocks).1 := by
  rw [orphanConflicting]
  change (match (conflicting restored db.blocks).2 with
    | [] => _
    | _ :: _ => _ : Db × _).1.blocks = _
  split <;> rfl

theorem mempoolTxs_orphanConflicting :
    (orphanConflicting db restored updated).1.mempoolTxs = db.mempoolTxs := by
  rw [orphanConflicting]
  change (match (conflicting restored db.blocks).2 with | [] => _ | _ :: _ => _ :
    Db × _).1.mempoolTxs = _
  split <;> rfl

theorem rows_orphanConflicting (table : EntityTable) :
    (orphanConflicting db restored updated).1.rows table =
      unmarkFirst (conflicting restored db.blocks).2 (db.rows table) := by
  rw [orphanConflicting]
  change (match (conflicting restored db.blocks).2 with | [] => _ | _ :: _ => _ :
    Db × _).1.rows table = unmarkFirst (conflicting restored db.blocks).2 (db.rows table)
  cases (conflicting restored db.blocks).2 with
  | nil => cases table <;> rfl
  | cons orphan rest => cases table <;> rfl

end Orphan

/-- The rows that a level of a reorganisation looks for. -/
def isOrphan (indexBlockHash : Buffer) (row : DbBlock Buffer) : Bool :=
  decide (row.indexBlockHash = indexBlockHash) && !row.canonical

/-- A table after a level that orphaned the given blocks, and the rows that
became canonical. -/
def levelRows {α : Type} [Flagged α Buffer] (restored : DbBlock Buffer)
    (orphaned : List (DbBlock Buffer)) (rows : List α) : List α × List α :=
  setFlag restored.indexBlockHash true (unmarkFirst orphaned rows)

/-- The tables after the exchange of a block that is already marked in `db`. -/
structure Exchanged (db : Db) (restored : DbBlock Buffer) (db' : Db) : Prop where
  blocks : db'.blocks = (conflicting restored db.blocks).1
  rows : ∀ table, db'.rows table =
    (levelRows restored (conflicting restored db.blocks).2 (db.rows table)).1
  mempoolTxs : ∀ pending, pending ∈ db'.mempoolTxs ↔ pending ∈ db.mempoolTxs ∧
    pending.txId ∉ (levelRows restored (conflicting restored db.blocks).2 db.txs).2.map
      fun row => row.txId

/-- The exchange as its three parts. -/
theorem exchangeEntities_eq (db : Db) (restored : DbBlock Buffer) (updated : UpdatedEntities) :
    exchangeEntities db restored updated =
      (pruneMempoolTxs
        (markEntitiesCanonical (orphanConflicting db restored updated).1
          restored.indexBlockHash true
          (orphanConflicting db restored updated).2).1
        (markEntitiesCanonical (orphanConflicting db restored updated).1
          restored.indexBlockHash true
          (orphanConflicting db restored updated).2).2.1).map fun pruned =>
        (pruned.1, (markEntitiesCanonical (orphanConflicting db restored updated).1
          restored.indexBlockHash true (orphanConflicting db restored updated).2).2.2) := by
  obtain ⟨db₂, updated₂, orphaned⟩ :
      ∃ db₂ updated₂, orphanConflicting db restored updated = (db₂, updated₂) := ⟨_, _, rfl⟩
  rw [exchangeEntities, orphaned]
  dsimp only
  cases pruneMempoolTxs _ _ <;> rfl

theorem exchangeEntities_ok (db : Db) (restored : DbBlock Buffer) (updated : UpdatedEntities) :
    ∃ db' updated', exchangeEntities db restored updated = .ok (db', updated') ∧
      Exchanged db restored db' := by
  rw [exchangeEntities_eq]
  have rows : ∀ table, (orphanConflicting db restored updated).1.rows table =
      unmarkFirst (conflicting restored db.blocks).2 (db.rows table) :=
    rows_orphanConflicting db restored updated
  have blocks := blocks_orphanConflicting db restored updated
  have mempoolTxs := mempoolTxs_orphanConflicting db restored updated
  generalize (orphanConflicting db restored updated).1 = db₂ at rows blocks mempoolTxs ⊢
  generalize (orphanConflicting db restored updated).2 = updated₂
  have txs : db₂.txs = unmarkFirst (conflicting restored db.blocks).2 db.txs := rows .txs
  obtain ⟨removed, pruned⟩ := pruneMempoolTxs_hex
    (markEntitiesCanonical db₂ restored.indexBlockHash true updated₂).1
    ((setFlag restored.indexBlockHash true db₂.txs).2.map fun row => row.txId)
  rw [← txIds_markEntitiesCanonical db₂ restored.indexBlockHash updated₂] at pruned
  rw [pruned]
  refine ⟨_, _, rfl, ?_, ?_, ?_⟩
  · rw [Db.blocks_withoutMempoolTxs, blocks_markEntitiesCanonical, blocks]
  · intro table
    rw [Db.rows_withoutMempoolTxs, rows_markEntitiesCanonical, rows]
    rfl
  · intro pending
    rw [Db.mem_withoutMempoolTxs, mempoolTxs_markEntitiesCanonical, txs, mempoolTxs]
    rfl

/-- The blocks after the first statement of a level. -/
def Db.markBlock (db : Db) (indexBlockHash : Buffer) : Db :=
  { db with blocks := (updateRows (isOrphan indexBlockHash) (withCanonical true) db.blocks).1 }

theorem restoreOrphanedBlock_of_single {db : Db} {indexBlockHash : Buffer}
    {original : DbBlock Buffer} (found : db.blocks.filter (isOrphan indexBlockHash) = [original])
    (updated : UpdatedEntities) :
    restoreOrphanedBlock db indexBlockHash updated =
      (exchangeEntities (db.markBlock indexBlockHash) (withCanonical true original)
        (updated.countBlock true)).map fun result =>
          (result.1, withCanonical true original, result.2) := by
  have restored : (updateRows
      (fun row => decide (row.indexBlockHash = indexBlockHash) && !row.canonical)
      (withCanonical true) db.blocks).2 = [withCanonical true original] :=
    congrArg (List.map (withCanonical true)) found
  simp only [restoreOrphanedBlock, restored]
  change (exchangeEntities (db.markBlock indexBlockHash) _ _ >>= _) = _
  cases exchangeEntities (db.markBlock indexBlockHash) (withCanonical true original)
      (updated.countBlock true) with
  | error error => rfl
  | ok result => rfl

/-- A level succeeds if and only if one orphaned row has the hash. -/
theorem restoreOrphanedBlock_ok_iff {db db' : Db} {indexBlockHash : Buffer}
    {restored : DbBlock Buffer} {updated updated' : UpdatedEntities} :
    restoreOrphanedBlock db indexBlockHash updated = .ok (db', restored, updated') ↔
      (∃ original, db.blocks.filter (isOrphan indexBlockHash) = [original] ∧
        restored = withCanonical true original) ∧
      exchangeEntities (db.markBlock indexBlockHash) restored (updated.countBlock true) =
        .ok (db', updated') := by
  constructor
  · intro ok
    have single : ∃ original, db.blocks.filter (isOrphan indexBlockHash) = [original] := by
      simp only [restoreOrphanedBlock, updateRows] at ok
      split at ok
      · cases ok
      · cases ok
      · next same =>
          obtain ⟨original, found, -⟩ := List.map_eq_singleton_iff.mp same
          exact ⟨original, found⟩
    obtain ⟨original, found⟩ := single
    rw [restoreOrphanedBlock_of_single found] at ok
    obtain ⟨result, exchanged, same⟩ := Except.map_eq_ok.mp ok
    cases same
    exact ⟨⟨original, found, rfl⟩, exchanged⟩
  · rintro ⟨⟨original, found, rfl⟩, exchanged⟩
    rw [restoreOrphanedBlock_of_single found, exchanged]
    rfl

/-! ## Properties that every level keeps -/

/-- What each level of a reorganisation keeps holds after the whole of it. -/
theorem restoreOrphanedChain_induction {P : Db → Prop}
    (level : ∀ db indexBlockHash updated db' restored updated', P db →
      restoreOrphanedBlock db indexBlockHash updated = .ok (db', restored, updated') → P db')
    {depth : Nat} {db db' : Db} {indexBlockHash : Buffer} {updated updated' : UpdatedEntities}
    (holds : P db)
    (restored : restoreOrphanedChain depth db indexBlockHash updated = .ok (db', updated')) :
    P db' := by
  induction depth generalizing db indexBlockHash updated with
  | zero => cases restored
  | succ depth ih =>
      rw [restoreOrphanedChain] at restored
      obtain ⟨⟨middle, block, counts⟩, first, restored⟩ := Except.bind_eq_ok.mp restored
      have middleHolds : P middle :=
        level db indexBlockHash updated middle block counts holds first
      dsimp only at restored
      split at restored
      · cases restored
        exact middleHolds
      · exact ih middleHolds restored
      · cases restored

/-- What each level keeps holds after `handleReorg`. -/
theorem handleReorg_levels {P : Db → Prop}
    (level : ∀ db indexBlockHash updated db' restored updated', P db →
      restoreOrphanedBlock db indexBlockHash updated = .ok (db', restored, updated') → P db')
    {db db' : Db} {block : DbBlock String} {chainTipHeight : Nat} {updated : UpdatedEntities}
    (holds : P db) (handled : handleReorg db block chainTipHeight = .ok (db', updated)) :
    P db' := by
  rw [handleReorg] at handled
  split at handled
  · obtain ⟨parentHash, -, handled⟩ := Except.bind_eq_ok.mp handled
    split at handled
    · cases handled
    · cases handled
    · split at handled
      · exact restoreOrphanedChain_induction level holds handled
      · cases handled
        exact holds
  · cases handled
    exact holds

theorem handleReorg_induction {P : Db → Prop}
    (level : ∀ db indexBlockHash original db', P db →
      db.blocks.filter (isOrphan indexBlockHash) = [original] →
      Exchanged (db.markBlock indexBlockHash) (withCanonical true original) db' → P db')
    {db db' : Db} {block : DbBlock String} {chainTipHeight : Nat} {updated : UpdatedEntities}
    (holds : P db) (handled : handleReorg db block chainTipHeight = .ok (db', updated)) :
    P db' := by
  refine handleReorg_levels ?_ holds handled
  intro db indexBlockHash updated db' restored updated' holds ok
  obtain ⟨⟨original, found, rfl⟩, exchange⟩ := restoreOrphanedBlock_ok_iff.mp ok
  obtain ⟨exchanged, counts, exchangeOk, spec⟩ := exchangeEntities_ok
    (db.markBlock indexBlockHash) (withCanonical true original) (updated.countBlock true)
  rw [exchange] at exchangeOk
  cases exchangeOk
  exact level db indexBlockHash original _ holds found spec

/-! ## Reorganised tables -/

/-- A level removes mempool rows and adds none. -/
theorem restoreOrphanedBlock_sublist {db db' : Db} {indexBlockHash : Buffer}
    {restored : DbBlock Buffer} {updated updated' : UpdatedEntities}
    (ok : restoreOrphanedBlock db indexBlockHash updated = .ok (db', restored, updated')) :
    db'.mempoolTxs.Sublist db.mempoolTxs := by
  obtain ⟨-, exchange⟩ := restoreOrphanedBlock_ok_iff.mp ok
  rw [exchangeEntities_eq] at exchange
  obtain ⟨⟨pruned, removed⟩, prune, same⟩ := Except.map_eq_ok.mp exchange
  cases same
  obtain ⟨buffers, -, rfl⟩ := pruneMempoolTxs_ok prune
  have fewer := Db.sublist_withoutMempoolTxs (markEntitiesCanonical
    (orphanConflicting (db.markBlock indexBlockHash) restored (updated.countBlock true)).1
    restored.indexBlockHash true
    (orphanConflicting (db.markBlock indexBlockHash) restored (updated.countBlock true)).2).1
      buffers
  rw [mempoolTxs_markEntitiesCanonical, mempoolTxs_orphanConflicting] at fewer
  exact fewer

theorem handleReorg_sublist {db db' : Db} {block : DbBlock String} {chainTipHeight : Nat}
    {updated : UpdatedEntities}
    (handled : handleReorg db block chainTipHeight = .ok (db', updated)) :
    db'.mempoolTxs.Sublist db.mempoolTxs :=
  handleReorg_levels (fun _ _ _ _ _ _ kept ok => (restoreOrphanedBlock_sublist ok).trans kept)
    (List.Sublist.refl _) handled

/-- `db'` has the rows of `db` up to canonical flags, and no new mempool rows. -/
structure Remarked (db db' : Db) : Prop where
  blocks : raised db'.blocks = raised db.blocks
  rows : ∀ table, raised (db'.rows table) = raised (db.rows table)
  mempoolTxs : ∀ pending ∈ db'.mempoolTxs, pending ∈ db.mempoolTxs

theorem Remarked.refl (db : Db) : Remarked db db where
  blocks := rfl
  rows _ := rfl
  mempoolTxs _ mem := mem

theorem Remarked.trans {first second third : Db} (left : Remarked first second)
    (right : Remarked second third) : Remarked first third where
  blocks := right.blocks.trans left.blocks
  rows table := (right.rows table).trans (left.rows table)
  mempoolTxs pending mem := left.mempoolTxs pending (right.mempoolTxs pending mem)

theorem raised_levelRows {α : Type} [Flagged α Buffer] (restored : DbBlock Buffer)
    (orphaned : List (DbBlock Buffer)) (rows : List α) :
    raised (levelRows restored orphaned rows).1 = raised rows := by
  rw [levelRows, raised_setFlag]
  cases orphaned with
  | nil => rfl
  | cons orphan rest => exact raised_setFlag orphan.indexBlockHash false rows

theorem Exchanged.remarked {db db' : Db} {indexBlockHash : Buffer} {restored : DbBlock Buffer}
    (exchanged : Exchanged (db.markBlock indexBlockHash) restored db') : Remarked db db' where
  blocks := by
    rw [exchanged.blocks]
    exact (raised_updateRows _ false _).trans (raised_updateRows _ true _)
  rows table := by
    rw [exchanged.rows, raised_levelRows]
    cases table <;> rfl
  mempoolTxs pending mem := ((exchanged.mempoolTxs pending).mp mem).1

theorem handleReorg_remarked {db db' : Db} {block : DbBlock String} {chainTipHeight : Nat}
    {updated : UpdatedEntities}
    (handled : handleReorg db block chainTipHeight = .ok (db', updated)) : Remarked db db' :=
  handleReorg_induction (fun _ _ _ _ holds _ exchanged => holds.trans exchanged.remarked)
    (Remarked.refl db) handled

end StacksApi.Datastore
