import StacksApi.Datastore.Answers
import StacksApi.Datastore.Redelivery

/-!
# What a run of the store keeps

Blocks and the rows of their entries are never removed; only their canonical flags
change.  A mempool row goes only when a transaction with its id has been stored, so that
an id that was once stored in either table stays so.
-/

namespace StacksApi.Datastore

open StacksApi.Binary
open StacksApi.Chain
open StacksApi.Relational
open StacksApi.Transition
open CanonicalEntity

/-! ## Moments of a run -/

/-- A moment of a run: the calls that have been performed until then. -/
structure Moment (calls : List StoreCall) where
  past : List StoreCall
  isPrefix : past <+: calls

namespace Moment

variable {calls : List StoreCall}

instance : Preorder (Moment calls) where
  le earlier later := earlier.past <+: later.past
  le_refl moment := List.prefix_rfl
  le_trans _ _ _ first second := first.trans second

/-- The committed tables. -/
def db (moment : Moment calls) : Db :=
  runStore moment.past

/-- What a query that is answered in the moment may see. -/
def Sees (moment : Moment calls) (seen : Db) : Prop :=
  Scan moment.db seen

theorem sees_self (moment : Moment calls) : moment.Sees moment.db :=
  Scan.refl _

theorem updatesOf_subset (moment : Moment calls) : updatesOf moment.past ⊆ updatesOf calls := by
  intro data mem
  obtain ⟨call, callMem, isUpdate⟩ := List.mem_filterMap.mp mem
  exact List.mem_filterMap.mpr ⟨call, moment.isPrefix.subset callMem, isUpdate⟩

theorem consistent (moment : Moment calls) (consistent : Consistent (updatesOf calls)) :
    Consistent (updatesOf moment.past) :=
  consistent.of_subset moment.updatesOf_subset

theorem regular (moment : Moment calls) (regular : RegularCalls calls) :
    RegularCalls moment.past :=
  regular.of_prefix moment.isPrefix

/-- What holds before a call holds after it, if it does so at each call between two
moments. -/
theorem le_induction {P : Db → Prop} {earlier later : Moment calls} (order : earlier ≤ later)
    (step : ∀ past call, past ++ [call] <+: calls → P (runStore past) →
      P (commit performCall (runStore past) call)) (holds : P earlier.db) : P later.db := by
  obtain ⟨rest, same⟩ := order
  have isPrefix : earlier.past ++ rest <+: calls := same ▸ later.isPrefix
  rw [db, ← same]
  clear same
  induction rest using List.reverseRecOn with
  | nil =>
      rw [List.append_nil]
      exact holds
  | append_singleton rest call ih =>
      rw [← List.append_assoc] at isPrefix ⊢
      rw [runStore_append_singleton]
      exact step _ _ isPrefix (ih ((List.prefix_append _ _).trans isPrefix))

end Moment

/-! ## Tables that outlast others -/

/-- A transaction with the id is stored, in either table. -/
def TxKnown (db : Db) (buffer : Buffer) : Prop :=
  (∃ pending ∈ db.mempoolTxs, pending.txId = buffer) ∨ ∃ tx ∈ db.txs, tx.txId = buffer

/-- The later tables begin with the rows of the earlier ones up to canonical flags, and
the transactions that have left the mempool are stored. -/
structure Outlasts (db db' : Db) : Prop where
  blocks : raised db.blocks <+: raised db'.blocks
  rows : ∀ table, raised (db.rows table) <+: raised (db'.rows table)
  pending : ∀ pending ∈ db.mempoolTxs,
    pending ∈ db'.mempoolTxs ∨ ∃ tx ∈ db'.txs, tx.txId = pending.txId

theorem exists_of_raised_prefix {α : Type} [Flagged α Buffer] {rows rows' : List α}
    (isPrefix : raised rows <+: raised rows') {row : α} (mem : row ∈ rows) :
    ∃ row' ∈ rows', Flagged.withFlag true row' = Flagged.withFlag true row := by
  have raisedMem : Flagged.withFlag true row ∈ raised rows' :=
    isPrefix.subset (List.mem_map_of_mem mem)
  exact List.mem_map.mp raisedMem

namespace Outlasts

variable {db db' db'' : Db}

theorem refl (db : Db) : Outlasts db db where
  blocks := List.prefix_rfl
  rows _ := List.prefix_rfl
  pending _ mem := Or.inl mem

/-- A stored transaction stays stored. -/
theorem exists_tx (outlasts : Outlasts db db') {tx : DbTx Buffer} (mem : tx ∈ db.txs) :
    ∃ tx' ∈ db'.txs, withCanonical true tx' = withCanonical true tx :=
  exists_of_raised_prefix (outlasts.rows .txs) mem

theorem exists_txId (outlasts : Outlasts db db') {tx : DbTx Buffer} (mem : tx ∈ db.txs) :
    ∃ tx' ∈ db'.txs, tx'.txId = tx.txId := by
  obtain ⟨tx', mem', same⟩ := outlasts.exists_tx mem
  have sameId : tx'.txId = tx.txId := congrArg (fun tx => tx.txId) same
  exact ⟨tx', mem', sameId⟩

theorem exists_block (outlasts : Outlasts db db') {block : DbBlock Buffer}
    (mem : block ∈ db.blocks) :
    ∃ block' ∈ db'.blocks, withCanonical true block' = withCanonical true block :=
  exists_of_raised_prefix outlasts.blocks mem

theorem trans (first : Outlasts db db') (second : Outlasts db' db'') : Outlasts db db'' where
  blocks := first.blocks.trans second.blocks
  rows table := (first.rows table).trans (second.rows table)
  pending row mem := by
    rcases first.pending row mem with still | ⟨tx, txMem, same⟩
    · exact second.pending row still
    · obtain ⟨tx', mem', same'⟩ := second.exists_txId txMem
      exact Or.inr ⟨tx', mem', same'.trans same⟩

theorem txKnown (outlasts : Outlasts db db') {buffer : Buffer} (known : TxKnown db buffer) :
    TxKnown db' buffer := by
  rcases known with ⟨row, mem, rfl⟩ | ⟨tx, mem, rfl⟩
  · rcases outlasts.pending row mem with still | mined
    · exact Or.inl ⟨row, still, rfl⟩
    · exact Or.inr mined
  · exact Or.inr (outlasts.exists_txId mem)

end Outlasts

/-! ## One call -/

theorem prefix_insertRow (row : DbTx Buffer) (rows : List (DbTx Buffer)) :
    rows <+: (insertRow sameInclusion row rows).1 := by
  rw [insertRow]
  split
  · exact List.prefix_rfl
  · exact List.prefix_append _ _

theorem prefix_foldl_addEntry (entries : List EntryRows) (db : Db) (table : EntityTable) :
    db.rows table <+: (entries.foldl Db.addEntry db).rows table := by
  induction entries generalizing db with
  | nil => exact List.prefix_rfl
  | cons rows entries ih =>
      refine List.IsPrefix.trans ?_ (ih (db.addEntry rows))
      cases table with
      | txs => exact prefix_insertRow rows.tx db.txs
      | _ => exact List.prefix_append _ _

/-- A level of a reorganisation takes from the mempool what it restores. -/
theorem Exchanged.outlasts {db db' : Db} {indexBlockHash : Buffer} {restored : DbBlock Buffer}
    (exchanged : Exchanged (db.markBlock indexBlockHash) restored db') : Outlasts db db' where
  blocks := by
    rw [exchanged.remarked.blocks]
  rows table := by
    rw [exchanged.remarked.rows]
  pending row mem := by
    by_cases still : row ∈ db'.mempoolTxs
    · exact Or.inl still
    · right
      have marked : row.txId ∈ (levelRows restored
          (conflicting restored (db.markBlock indexBlockHash).blocks).2
            (db.markBlock indexBlockHash).txs).2.map fun row => row.txId := by
        by_contra notMarked
        exact still ((exchanged.mempoolTxs row).mpr ⟨mem, notMarked⟩)
      obtain ⟨tx, txMem, same⟩ := List.mem_map.mp marked
      have txs : db'.txs = _ := exchanged.rows .txs
      refine ⟨tx, ?_, same⟩
      rw [txs]
      exact mem_updateRows_fst txMem

theorem handleReorg_outlasts {db db' : Db} {block : DbBlock String} {chainTipHeight : Nat}
    {updated : UpdatedEntities}
    (handled : handleReorg db block chainTipHeight = .ok (db', updated)) : Outlasts db db' :=
  handleReorg_induction (fun _ _ _ _ holds _ exchanged => holds.trans exchanged.outlasts)
    (Outlasts.refl db) handled

section Step

variable {db reorged pruned db' : Db} {flag flag' : Buffer → Bool} {data : DataStoreUpdateData}
variable {row : DbBlock Buffer}

/-- The transactions that a new tip takes from the mempool are those that it stores. -/
theorem Extended.outlasts (extended : Extended db reorged pruned db' flag flag' data row)
    (accepted : Accepted db data reorged pruned row db') : Outlasts db db' := by
  obtain ⟨counts, handled⟩ := accepted.reorg
  refine (handleReorg_outlasts handled).trans ?_
  obtain ⟨rows, computed, stored⟩ := extended.entries
  constructor
  · have blocks : db'.blocks = reorged.blocks ++ [row] := by
      rw [stored, Db.blocks_foldl_addEntry, ← accepted.blocks_pruned]
    rw [blocks, raised_append]
    exact List.prefix_append _ _
  · intro table
    apply List.IsPrefix.map
    rw [stored, ← accepted.rows_pruned]
    refine List.IsPrefix.trans ?_ (prefix_foldl_addEntry rows _ table)
    cases table <;> exact List.prefix_rfl
  · intro pending mem
    rw [accepted.mempoolTxs]
    by_cases high : Heightens db data
    · obtain ⟨buffers, decoded, rfl⟩ := accepted.prune high
      by_cases removed : pending.txId ∈ buffers
      · obtain ⟨txId, candidate, ok⟩ := mem_of_mapM_ok decoded removed
        obtain ⟨entry, entryMem, rfl⟩ := List.mem_map.mp candidate
        rw [DataStoreUpdateData.settled, if_pos high] at computed
        obtain ⟨entryRow, rowMem, rowOk⟩ :=
          exists_of_mapM_ok computed (List.mem_filter.mp entryMem).1
        obtain ⟨tx, txMem, sameId, -⟩ := exists_inclusion
          { reorged.withoutMempoolTxs buffers with
            blocks := (reorged.withoutMempoolTxs buffers).blocks ++ [row] } rowMem
        right
        refine ⟨tx, stored ▸ txMem, sameId.trans ?_⟩
        exact Except.ok.inj ((txRow_ok (entryRows_ok rowOk).tx).txId.symm.trans ok)
      · exact Or.inl (Db.mem_withoutMempoolTxs.mpr ⟨mem, removed⟩)
    · rw [accepted.keep high]
      exact Or.inl mem

end Step

/-- A call that is performed outlasts the tables before it. -/
theorem ChainInvariant.outlasts_commit {db : Db} {flag : Buffer → Bool}
    (invariant : ChainInvariant db flag) {call : StoreCall}
    (incoming : ∀ data, call = .update data → Incoming db data) :
    Outlasts db (commit performCall db call) := by
  cases call with
  | update data =>
      change Outlasts db (commit update db data)
      rcases invariant.commit_update (incoming data rfl) with
        ⟨-, same⟩ | ⟨reorged, pruned, row, flag', accepted, extended⟩
      · rw [same]
        exact Outlasts.refl db
      · exact extended.outlasts accepted
  | updateMempoolTx mempoolTx =>
      cases result : performCall db (.updateMempoolTx mempoolTx) with
      | error error =>
          rw [commit_of_error result]
          exact Outlasts.refl db
      | ok outcome =>
          obtain ⟨row, -, ⟨-, same, -⟩ | ⟨-, same, -⟩⟩ := updateMempoolTx_ok result
          · rw [commit_of_ok result, same]
            exact Outlasts.refl db
          · rw [commit_of_ok result, same]
            refine ⟨List.prefix_rfl, ?_, fun _ mem => Or.inl (List.mem_append_left _ mem)⟩
            intro table
            cases table <;> exact List.prefix_rfl

/-! ## Where a row comes from -/

theorem DecodedTx.withCanonical {tx : DbTx String} {row : DbTx Buffer} (decoded : DecodedTx tx row)
    (value : Bool) :
    DecodedTx (CanonicalEntity.withCanonical value tx)
      (CanonicalEntity.withCanonical value row) where
  txId := decoded.txId
  indexBlockHash := decoded.indexBlockHash
  blockHash := decoded.blockHash
  rawResult := decoded.rawResult
  columns := congrArg (CanonicalEntity.withCanonical value) decoded.columns
  admitted := (DbTx.admitted_withCanonical value row).trans decoded.admitted

/-- A transaction row after an accepted update is, up to its flag, a row from before or what
is kept of the record of an entry. -/
theorem Accepted.tx_decoded {db db' reorged pruned : Db} {data : DataStoreUpdateData}
    {row : DbBlock Buffer} (accepted : Accepted db data reorged pruned row db')
    {tx : DbTx Buffer} (mem : tx ∈ db'.txs) :
    (∃ original ∈ db.txs, withCanonical true original = withCanonical true tx) ∨
      ∃ entry ∈ data.txs, DecodedTx (withCanonical true entry.tx) (withCanonical true tx) := by
  obtain ⟨counts, handled⟩ := accepted.reorg
  rcases accepted.mem_reorged_or_entry .txs mem with old | ⟨entry, entryMem, rows, decoded, new⟩
  · exact Or.inl (exists_of_raised_eq ((handleReorg_remarked handled).rows .txs) old)
  · obtain rfl : tx = rows.tx := List.mem_singleton.mp new
    obtain ⟨original, originalMem, same⟩ := exists_of_mem_settled entryMem
    refine Or.inr ⟨original, originalMem, ?_⟩
    rw [← same]
    exact (txRow_ok decoded.tx).withCanonical true

/-! ## Runs -/

/-- The tables of a later moment outlast those of an earlier one. -/
theorem Moment.outlasts {calls : List StoreCall} (consistent : Consistent (updatesOf calls))
    {earlier later : Moment calls} (order : earlier ≤ later) : Outlasts earlier.db later.db := by
  refine Moment.le_induction order ?_ (Outlasts.refl _)
  intro past call isPrefix outlasts
  have upTo : Consistent (updatesOf (past ++ [call])) :=
    Moment.consistent ⟨_, isPrefix⟩ consistent
  have before : Consistent (updatesOf past) :=
    Moment.consistent ⟨_, (List.prefix_append past [call]).trans isPrefix⟩ consistent
  obtain ⟨flag, invariant, linksFrom⟩ := runStore_chainInvariant before
  exact outlasts.trans (invariant.outlasts_commit (incoming_of_call upTo linksFrom))

/-- A block that is stored was stored by an update that found none of its hash. -/
theorem exists_storing {past : List StoreCall} {hash : Buffer}
    (stored : ∃ b ∈ (runStore past).links, b.hash = hash) :
    ∃ earlier data, earlier ++ [.update data] <+: past ∧
      (∃ events, update (runStore earlier) data =
        .ok (runStore (earlier ++ [.update data]), events)) ∧
      (∀ b ∈ (runStore earlier).links, b.hash ≠ hash) ∧
      ∃ b ∈ (runStore (earlier ++ [.update data])).links, b.hash = hash := by
  induction past using List.reverseRecOn with
  | nil =>
      obtain ⟨b, mem, -⟩ := stored
      cases mem
  | append_singleton past call ih =>
      by_cases before : ∃ b ∈ (runStore past).links, b.hash = hash
      · obtain ⟨earlier, data, isPrefix, rest⟩ := ih before
        exact ⟨earlier, data, isPrefix.trans (List.prefix_append past [call]), rest⟩
      -- the last call has stored it
      rw [runStore_append_singleton] at stored
      cases result : performCall (runStore past) call with
      | error error =>
          rw [commit_of_error result] at stored
          exact absurd stored before
      | ok outcome =>
          rw [commit_of_ok result] at stored
          cases call with
          | update data =>
              refine ⟨past, data, List.prefix_rfl, ?_⟩
              rw [runStore_append_singleton, commit_of_ok result]
              exact ⟨⟨outcome.2, result⟩, fun b mem same => before ⟨b, mem, same⟩, stored⟩
          | updateMempoolTx mempoolTx =>
              obtain ⟨row, -, ⟨-, same, -⟩ | ⟨-, same, -⟩⟩ := updateMempoolTx_ok result
              · rw [same] at stored
                exact absurd stored before
              · rw [same] at stored
                exact absurd stored before

/-! ## Blocks fit their columns -/

theorem admitted_of_blockRow {block : DbBlock String} {row : DbBlock Buffer}
    (decoded : blockRow block = .ok row) : row.admitted = true := by
  rw [blockRow] at decoded
  obtain ⟨blockHash, -, decoded⟩ := Except.bind_eq_ok.mp decoded
  obtain ⟨indexBlockHash, -, decoded⟩ := Except.bind_eq_ok.mp decoded
  obtain ⟨parentIndexBlockHash, -, decoded⟩ := Except.bind_eq_ok.mp decoded
  obtain ⟨parentBlockHash, -, decoded⟩ := Except.bind_eq_ok.mp decoded
  obtain ⟨parentMicroblock, -, decoded⟩ := Except.bind_eq_ok.mp decoded
  rw [admitRow] at decoded
  split at decoded
  · next admitted =>
      cases decoded
      exact admitted
  · cases decoded

/-- A block after an accepted update stood there before up to its flag, or is its own. -/
theorem Accepted.admitted_blocks {db reorged pruned db' : Db} {data : DataStoreUpdateData}
    {row : DbBlock Buffer} (accepted : Accepted db data reorged pruned row db')
    (all : ∀ block ∈ db.blocks, block.admitted = true) :
    ∀ block ∈ db'.blocks, block.admitted = true := by
  obtain ⟨counts, handled⟩ := accepted.reorg
  have kept : ∀ block ∈ pruned.blocks, block.admitted = true := by
    intro block mem
    rw [accepted.blocks_pruned] at mem
    obtain ⟨original, originalMem, same⟩ :=
      exists_of_raised_eq (handleReorg_remarked handled).blocks mem
    calc
      block.admitted = (withCanonical true block).admitted :=
        (DbBlock.admitted_withCanonical true block).symm
      _ = (withCanonical true original).admitted := congrArg DbBlock.admitted same.symm
      _ = original.admitted := DbBlock.admitted_withCanonical true original
      _ = true := all original originalMem
  intro block mem
  rcases accepted.store with ⟨-, rfl⟩ | ⟨-, rows, -, rfl⟩
  · exact kept block mem
  · rw [Db.blocks_foldl_addEntry] at mem
    rcases List.mem_append.mp mem with old | new
    · exact kept block old
    · rw [List.mem_singleton.mp new]
      exact admitted_of_blockRow accepted.decoded

/-- Every stored block fits its columns. -/
theorem Moment.admitted_blocks {calls : List StoreCall} (moment : Moment calls) :
    ∀ block ∈ moment.db.blocks, block.admitted = true := by
  have start : (⟨[], List.nil_prefix⟩ : Moment calls) ≤ moment := List.nil_prefix
  refine Moment.le_induction (P := fun db => ∀ block ∈ db.blocks, block.admitted = true) start ?_
    (by rintro block ⟨⟩)
  intro past call isPrefix all
  cases result : performCall (runStore past) call with
  | error error =>
      rw [commit_of_error result]
      exact all
  | ok outcome =>
      rw [commit_of_ok result]
      cases call with
      | update data =>
          obtain ⟨-, reorged, pruned, row, accepted⟩ := update_ok result
          exact accepted.admitted_blocks all
      | updateMempoolTx mempoolTx =>
          obtain ⟨row, -, ⟨-, same, -⟩ | ⟨-, same, -⟩⟩ := updateMempoolTx_ok result
          · rw [same]
            exact all
          · rw [same]
            exact all

/-! ## The rows of a stored block -/

/-- The rows of a table that belong to a block. -/
def rowsOfBlock (hash : Buffer) (db : Db) (table : EntityTable) : List table.Row :=
  (db.rows table).filter fun row => decide (Flagged.key row = hash)

theorem filter_key_insertedRows {rows : List EntryRows} {hash : Buffer} {table : EntityTable}
    (others : ∀ row ∈ insertedRows rows table, Flagged.key row ≠ hash) :
    ((insertedRows rows table).filter fun row => decide (Flagged.key row = hash)) = [] :=
  List.filter_eq_nil_iff.mpr fun row mem same => others row mem (of_decide_eq_true same)

section Step

variable {db reorged pruned db' : Db} {flag flag' : Buffer → Bool} {data : DataStoreUpdateData}
variable {row : DbBlock Buffer}

/-- A new block brings no rows to those that are stored. -/
theorem Extended.rowsOfBlock (extended : Extended db reorged pruned db' flag flag' data row)
    (accepted : Accepted db data reorged pruned row db') (canonical : data.block.canonical = true)
    (carries : data.Carries) (invariant : RowsInvariant db flag) {b : Link Buffer}
    (mem : b ∈ db.links) (table : EntityTable) :
    raised (rowsOfBlock b.hash db' table) = raised (rowsOfBlock b.hash db table) := by
  obtain ⟨rows, computed, tables⟩ :=
    extended.rows accepted canonical carries (invariant.attached .txs)
  obtain ⟨counts, handled⟩ := accepted.reorg
  have others : ∀ inserted ∈ insertedRows rows table, Flagged.key inserted ≠ b.hash := by
    intro inserted insertedMem same
    obtain ⟨entry, entryMem, inEntry⟩ := mem_insertedRows insertedMem
    obtain ⟨hash, -⟩ :=
      accepted.inBlockRows canonical carries computed entry entryMem table inserted inEntry
    exact extended.fresh b mem (same.symm.trans hash)
  unfold Datastore.rowsOfBlock
  rw [tables, List.filter_append, filter_key_insertedRows others, List.append_nil,
    raised_filter_key, raised_filter_key, (handleReorg_remarked handled).rows]

end Step

/-- A block that is stored keeps its rows, up to their flags, and gets no others. -/
theorem Moment.rowsOfBlock {calls : List StoreCall} (regular : RegularCalls calls)
    {earlier later : Moment calls} (order : earlier ≤ later) {b : Link Buffer}
    (stored : b ∈ earlier.db.links) (table : EntityTable) :
    raised (rowsOfBlock b.hash later.db table) = raised (rowsOfBlock b.hash earlier.db table) := by
  suffices kept : b ∈ later.db.links ∧ raised (Datastore.rowsOfBlock b.hash later.db table) =
      raised (Datastore.rowsOfBlock b.hash earlier.db table) from kept.2
  refine Moment.le_induction (P := fun db => b ∈ db.links ∧
    raised (Datastore.rowsOfBlock b.hash db table) =
      raised (Datastore.rowsOfBlock b.hash earlier.db table)) order ?_ ⟨stored, rfl⟩
  rintro past call isPrefix ⟨mem, same⟩
  have upTo : RegularCalls (past ++ [call]) := regular.of_prefix isPrefix
  have before : RegularCalls past := upTo.of_prefix (List.prefix_append past [call])
  obtain ⟨flag, invariant, linksFrom⟩ := runStore_invariant before
  rcases invariant.chain.commit_performCall (incoming_of_call upTo.consistent linksFrom) with
    ⟨pool, unchanged⟩ | ⟨data, reorged, pruned, row, flag', rfl, accepted, extended⟩
  · rw [unchanged]
    refine ⟨mem, same ▸ ?_⟩
    cases table <;> rfl
  · have last := mem_updatesOf_last past data
    refine ⟨?_, ?_⟩
    · rw [extended.links]
      exact List.mem_append_left _ mem
    · rw [← same]
      exact extended.rowsOfBlock accepted (upTo.consistent.canonical data last)
        (upTo.attributed data last).carries invariant.rows mem table

/-! ## Transactions name stored blocks -/

/-- The entries name the block of their update by its hash, as `handleClientMessage` builds
them. -/
def NamesBlock (data : DataStoreUpdateData) : Prop :=
  ∀ entry ∈ data.txs, entry.tx.blockHash = data.block.blockHash

/-- Each transaction names a block that is stored. -/
def TxsNameBlocks (db : Db) : Prop :=
  ∀ tx ∈ db.txs, ∃ block ∈ db.blocks, block.blockHash = tx.blockHash

theorem blockHash_of_blockRow {block : DbBlock String} {row : DbBlock Buffer}
    (decoded : blockRow block = .ok row) : hexToBuffer block.blockHash = .ok row.blockHash := by
  rw [blockRow] at decoded
  obtain ⟨blockHash, hash, decoded⟩ := Except.bind_eq_ok.mp decoded
  obtain ⟨indexBlockHash, -, decoded⟩ := Except.bind_eq_ok.mp decoded
  obtain ⟨parentIndexBlockHash, -, decoded⟩ := Except.bind_eq_ok.mp decoded
  obtain ⟨parentBlockHash, -, decoded⟩ := Except.bind_eq_ok.mp decoded
  obtain ⟨parentMicroblock, -, decoded⟩ := Except.bind_eq_ok.mp decoded
  rw [admitRow] at decoded
  split at decoded
  · cases decoded
    exact hash
  · cases decoded

theorem settled_blockHash (data : DataStoreUpdateData) (db : Db) :
    (data.settled db).block.blockHash = data.block.blockHash := by
  rw [DataStoreUpdateData.settled]
  split <;> rfl

section Step

variable {db reorged pruned db' : Db} {flag flag' : Buffer → Bool} {data : DataStoreUpdateData}
variable {row : DbBlock Buffer}

/-- A transaction keeps the block that it names; a new one comes with it. -/
theorem Extended.txsNameBlocks (extended : Extended db reorged pruned db' flag flag' data row)
    (accepted : Accepted db data reorged pruned row db') (names : NamesBlock data)
    (named : TxsNameBlocks db) : TxsNameBlocks db' := by
  have outlasts := extended.outlasts accepted
  obtain ⟨counts, handled⟩ := accepted.reorg
  have kept : ∀ tx ∈ reorged.txs, ∃ block ∈ db'.blocks, block.blockHash = tx.blockHash := by
    intro tx mem
    obtain ⟨original, originalMem, sameTx⟩ :=
      exists_of_raised_eq ((handleReorg_remarked handled).rows .txs) mem
    obtain ⟨block, blockMem, hash⟩ := named original originalMem
    obtain ⟨block', blockMem', sameBlock⟩ := outlasts.exists_block blockMem
    refine ⟨block', blockMem', ?_⟩
    calc
      block'.blockHash = block.blockHash := congrArg (fun block => block.blockHash) sameBlock
      _ = original.blockHash := hash
      _ = tx.blockHash := congrArg (fun tx => tx.blockHash) sameTx
  have sameTxs : pruned.txs = reorged.txs := accepted.rows_pruned .txs
  rcases accepted.store with ⟨-, rfl⟩ | ⟨-, rows, computed, rfl⟩
  · intro tx mem
    exact kept tx (sameTxs ▸ mem)
  · intro tx mem
    rcases @mem_rows_foldl_addEntry _ _ .txs _ mem with old | ⟨entry, entryMem, new⟩
    · exact kept tx (sameTxs ▸ old)
    obtain ⟨source, sourceMem, ok⟩ := mem_of_mapM_ok computed entryMem
    obtain rfl : tx = entry.tx := List.mem_singleton.mp new
    obtain ⟨original, originalMem, sameTx⟩ := exists_of_mem_settled sourceMem
    have sourceHash : source.tx.blockHash = data.block.blockHash :=
      (congrArg (fun tx : DbTx String => tx.blockHash) sameTx).trans (names original originalMem)
    have decodedTx := (txRow_ok (entryRows_ok ok).tx).blockHash
    have decodedBlock := blockHash_of_blockRow accepted.decoded
    rw [settled_blockHash, ← sourceHash] at decodedBlock
    refine ⟨row, ?_, Except.ok.inj (decodedBlock.symm.trans decodedTx)⟩
    rw [Db.blocks_foldl_addEntry]
    exact List.mem_append_right _ (List.mem_singleton_self row)

end Step

theorem runStore_txsNameBlocks {calls : List StoreCall} (consistent : Consistent (updatesOf calls))
    (names : ∀ data ∈ updatesOf calls, NamesBlock data) : TxsNameBlocks (runStore calls) := by
  obtain ⟨-, -, -, named⟩ := @runStore_induction
    (fun calls db _ => (∀ data ∈ updatesOf calls, NamesBlock data) → TxsNameBlocks db)
    (by rintro - tx ⟨⟩)
    (fun past call db flag pool named names => named fun data mem => names data (by
      rw [updatesOf_append]
      exact List.mem_append_left _ mem))
    (by
      intro past data db reorged pruned row db' flag flag' _ named accepted extended names
      refine Extended.txsNameBlocks extended accepted (names data (mem_updatesOf_last past data))
        (named fun data mem => names data ?_)
      rw [updatesOf_append]
      exact List.mem_append_left _ mem) calls consistent
  exact named names

end StacksApi.Datastore
