import StacksApi.Datastore.ChainListings
import StacksApi.Datastore.Search
import StacksApi.EventStream.Shown

/-!
# Search and lookup

`searchHash` takes any row of a hash and prefers transactions in blocks, while `getTx` and
`getBlock` order the rows and `getTxFromDataStore` prefers pending transactions.  They agree
on a hash exactly when there is no choice to make between the rows of it.
-/

namespace StacksApi.EventStream

open StacksApi.Binary
open StacksApi.P2p
open StacksApi.Relational
open StacksApi.Datastore
open StacksApi.Controllers
open StacksApi.Transition

variable {CV Ty : Type} {libraries : Libraries CV} {abis : AbiLibrary Ty}

/-! ## Agreement -/

/-- Search and lookup agree on a hash, in whatever order each query reads the tables. -/
structure SearchAgrees (libraries : Libraries CV) (abis : AbiLibrary Ty) (db : Db)
    (hash : String) : Prop where
  found : ∀ searched, Scan db searched → ∀ read, Scan db read →
    ((∃ result, searchHash searched hash = .ok (some result)) ↔
      (∃ tx, getMempoolTx read hash = .ok (some tx)) ∨ (∃ tx, getTx read hash = .ok (some tx)) ∨
        ∃ block, getBlock read hash = .ok (some block))
  pending : ∀ searched, Scan db searched → ∀ read, Scan db read →
    ((∃ id tx, searchHash searched hash = .ok (some (.mempoolTxId id tx))) ↔
      ∃ reported, getTxFromDataStore libraries.clarity libraries.addresses abis hash read =
        .ok (some reported) ∧ reported.txStatus = "pending")
  mined : ∀ searched, Scan db searched → ∀ read, Scan db read → ∀ id tx,
    searchHash searched hash = .ok (some (.txId id tx)) → getTx read hash = .ok (some tx) ∧
      ∀ row ∈ db.txs, hexToBuffer hash = .ok row.txId → row.canonical = true → tx.canonical = true
  block : ∀ searched, Scan db searched → ∀ read, Scan db read → ∀ id block,
    searchHash searched hash = .ok (some (.blockHash id block)) →
      getBlock read hash = .ok (some block) ∧ ∀ row ∈ db.blocks,
        hexToBuffer hash = .ok row.blockHash → row.canonical = true → block.canonical = true

/-- There is nothing to choose between the rows of the hash. -/
structure SearchDefinite (libraries : Libraries CV) (abis : AbiLibrary Ty) (db : Db)
    (hash : Buffer) : Prop where
  oneInclusion : (db.txs.filter fun row => row.txId = hash).length ≤ 1
  pending : ∀ row ∈ db.mempoolTxs, row.txId = hash → ∀ read, Scan db read →
    (RowPresentable libraries abis read row.toDbTxBase ↔ ∀ tx ∈ db.txs, tx.txId ≠ hash)
  oneBlock : (∀ tx ∈ db.txs, tx.txId ≠ hash) → (∀ row ∈ db.mempoolTxs, row.txId ≠ hash) →
    (db.blocks.filter fun row => row.blockHash = hash).length ≤ 1

/-- What every reachable state has, as far as searching needs it. -/
structure Searchable (libraries : Libraries CV) (db : Db) : Prop extends
    TablesParsed libraries db where
  settled : MinedSettled db
  inclusions : InclusionsUnique db
  blocks : (db.blocks.map DbBlock.indexBlockHash).Nodup

namespace Searchable

variable {db : Db} {hash : String} {buffer : Buffer}

theorem scan {scanned : Db} (searchable : Searchable libraries db) (scan : Scan db scanned) :
    Searchable libraries scanned where
  mined row mem := searchable.mined row ((scan.rows .txs).mem_iff.mpr mem)
  pending row mem := searchable.pending row (scan.mempoolTxs.mem_iff.mpr mem)
  nodup := (scan.mempoolTxs.map _).nodup_iff.mp searchable.nodup
  settled row mem := searchable.settled row ((scan.rows .txs).mem_iff.mpr mem)
  inclusions := by
    have perm : db.txs.Perm scanned.txs := scan.rows .txs
    exact (perm.map _).nodup_iff.mp searchable.inclusions
  blocks := (scan.blocks.map _).nodup_iff.mp searchable.blocks

/-- No id is pending twice. -/
theorem filter_pending (searchable : Searchable libraries db) {row : DbMempoolTx Buffer}
    (mem : row ∈ db.mempoolTxs) :
    db.mempoolTxs.filter (fun pending => pending.txId = row.txId) = [row] :=
  filter_eq_singleton searchable.nodup mem (decide_eq_true rfl) fun _ _ => of_decide_eq_true

/-! ### What is found -/

/-- The hash stands in one of the tables. -/
def StoredHash (db : Db) (hash : Buffer) : Prop :=
  (∃ row ∈ db.txs, row.txId = hash) ∨ (∃ row ∈ db.mempoolTxs, row.txId = hash) ∨
    ∃ row ∈ db.blocks, row.blockHash = hash

theorem filter_eq_nil_of_absent {α : Type} {column : α → Buffer} {rows : List α}
    (absent : ∀ row ∈ rows, column row ≠ buffer) :
    (rows.filter fun row => column row = buffer) = [] :=
  List.filter_eq_nil_iff.mpr fun row mem same => absent row mem (of_decide_eq_true same)

theorem filter_ne_nil_of_stored {α : Type} {column : α → Buffer} {rows : List α}
    (stored : ∃ row ∈ rows, column row = buffer) :
    (rows.filter fun row => column row = buffer) ≠ [] := by
  obtain ⟨row, mem, same⟩ := stored
  exact List.ne_nil_of_mem (List.mem_filter.mpr ⟨mem, decide_eq_true same⟩)

theorem exists_head?_of_stored {α : Type} {column : α → Buffer} {rows : List α}
    (stored : ∃ row ∈ rows, column row = buffer) :
    ∃ row, (rows.filter fun row => column row = buffer).head? = some row :=
  ⟨_, List.head?_eq_some_head (filter_ne_nil_of_stored stored)⟩

theorem searchHash_of_mined (searchable : Searchable libraries db)
    (decoded : hexToBuffer hash = .ok buffer) (stored : ∃ row ∈ db.txs, row.txId = buffer) :
    ∃ row tx, (db.txs.filter fun row => row.txId = buffer).head? = some row ∧
      parseTxQueryResult row = .ok tx ∧
      searchHash db hash = .ok (some (.txId (bufferToHexPrefixString row.txId) tx)) := by
  obtain ⟨row, head⟩ := exists_head?_of_stored stored
  have mem := (List.mem_filter.mp (List.mem_of_head? head)).1
  obtain ⟨tx, parsed⟩ := searchable.succeeds_parseTx mem
  exact ⟨row, tx, head, parsed, searchHash_tx decoded head parsed⟩

theorem searchHash_of_pending (searchable : Searchable libraries db)
    (decoded : hexToBuffer hash = .ok buffer) (noTx : ∀ row ∈ db.txs, row.txId ≠ buffer)
    {row : DbMempoolTx Buffer} (mem : row ∈ db.mempoolTxs) (same : row.txId = buffer) :
    ∃ id tx, searchHash db hash = .ok (some (.mempoolTxId id tx)) := by
  subst same
  obtain ⟨tx, parsed⟩ := searchable.succeeds_parseMempoolTx mem
  have head : (db.mempoolTxs.filter fun pending => pending.txId = row.txId).head? = some row := by
    rw [searchable.filter_pending mem]
    rfl
  exact ⟨_, tx, searchHash_mempoolTx decoded (filter_eq_nil_of_absent noTx) head parsed⟩

theorem searchHash_found_iff (searchable : Searchable libraries db)
    (decoded : hexToBuffer hash = .ok buffer) :
    (∃ result, searchHash db hash = .ok (some result)) ↔ StoredHash db buffer := by
  by_cases mined : ∃ row ∈ db.txs, row.txId = buffer
  · obtain ⟨row, tx, -, -, ok⟩ := searchable.searchHash_of_mined decoded mined
    exact iff_of_true ⟨_, ok⟩ (Or.inl mined)
  · have noTx : ∀ row ∈ db.txs, row.txId ≠ buffer := fun row mem same => mined ⟨row, mem, same⟩
    by_cases pending : ∃ row ∈ db.mempoolTxs, row.txId = buffer
    · obtain ⟨row, mem, same⟩ := pending
      obtain ⟨id, tx, ok⟩ := searchable.searchHash_of_pending decoded noTx mem same
      exact iff_of_true ⟨_, ok⟩ (Or.inr (Or.inl ⟨row, mem, same⟩))
    · have noPending : ∀ row ∈ db.mempoolTxs, row.txId ≠ buffer :=
        fun row mem same => pending ⟨row, mem, same⟩
      rw [searchHash_block decoded (filter_eq_nil_of_absent noTx)
        (filter_eq_nil_of_absent noPending)]
      constructor
      · rintro ⟨result, ok⟩
        obtain ⟨row, head, -⟩ := Option.map_eq_some_iff.mp (Except.ok.inj ok)
        obtain ⟨mem, same⟩ := List.mem_filter.mp (List.mem_of_head? head)
        exact Or.inr (Or.inr ⟨row, mem, of_decide_eq_true same⟩)
      · intro stored
        obtain ⟨row, head⟩ :=
          exists_head?_of_stored ((stored.resolve_left mined).resolve_left pending)
        rw [head]
        exact ⟨_, rfl⟩

theorem getTx_found_iff (searchable : Searchable libraries db)
    (decoded : hexToBuffer hash = .ok buffer) :
    (∃ tx, getTx db hash = .ok (some tx)) ↔ ∃ row ∈ db.txs, row.txId = buffer := by
  by_cases mined : ∃ row ∈ db.txs, row.txId = buffer
  · obtain ⟨row, head⟩ : ∃ row, preferredTx db buffer = some row :=
      exists_head?_orderByDesc (filter_ne_nil_of_stored mined)
    have mem := (List.mem_filter.mp (le_of_head?_orderByDesc head).1).1
    obtain ⟨tx, parsed⟩ := searchable.succeeds_parseTx mem
    exact iff_of_true ⟨tx, getTx_of_head decoded head parsed⟩ mined
  · rw [getTx_of_nil decoded (filter_eq_nil_of_absent fun row mem same => mined ⟨row, mem, same⟩)]
    exact iff_of_false (fun ⟨tx, ok⟩ => nomatch ok) mined

theorem getMempoolTx_found_iff (searchable : Searchable libraries db)
    (decoded : hexToBuffer hash = .ok buffer) :
    (∃ tx, getMempoolTx db hash = .ok (some tx)) ↔ ∃ row ∈ db.mempoolTxs, row.txId = buffer := by
  by_cases pending : ∃ row ∈ db.mempoolTxs, row.txId = buffer
  · refine iff_of_true ?_ pending
    obtain ⟨row, mem, rfl⟩ := pending
    obtain ⟨tx, parsed⟩ := searchable.succeeds_parseMempoolTx mem
    exact ⟨tx, getMempoolTx_of_singleton decoded (searchable.filter_pending mem) parsed⟩
  · rw [getMempoolTx_of_nil decoded
      (filter_eq_nil_of_absent fun row mem same => pending ⟨row, mem, same⟩)]
    exact iff_of_false (fun ⟨tx, ok⟩ => nomatch ok) pending

theorem getBlock_found_iff (decoded : hexToBuffer hash = .ok buffer) :
    (∃ block, getBlock db hash = .ok (some block)) ↔ ∃ row ∈ db.blocks, row.blockHash = buffer := by
  rw [getBlock_eq decoded]
  constructor
  · rintro ⟨block, ok⟩
    obtain ⟨row, head, -⟩ := Option.map_eq_some_iff.mp (Except.ok.inj ok)
    obtain ⟨mem, same⟩ := List.mem_filter.mp (le_of_head?_orderByDesc head).1
    exact ⟨row, mem, of_decide_eq_true same⟩
  · intro stored
    obtain ⟨row, head⟩ : ∃ row, (orderByDesc
        (fun row : DbBlock Buffer => toLex (row.canonical, row.blockHeight))
        (db.blocks.filter fun row => row.blockHash = buffer)).head? = some row :=
      exists_head?_orderByDesc (filter_ne_nil_of_stored stored)
    rw [head]
    exact ⟨_, rfl⟩

/-- The status of what is found for the hash is pending exactly when a pending row can be
shown, as transactions in blocks are never pending. -/
theorem reportsPending_iff (localCV : Local libraries.clarity.deserializeCV)
    (searchable : Searchable libraries db) (decoded : hexToBuffer hash = .ok buffer) :
    (∃ reported, getTxFromDataStore libraries.clarity libraries.addresses abis hash db =
        .ok (some reported) ∧ reported.txStatus = "pending") ↔
      ∃ row ∈ db.mempoolTxs, row.txId = buffer ∧
        RowPresentable libraries abis db row.toDbTxBase := by
  have isPending : ∀ {status : DbTxStatus}, getTxStatusString status = "pending" →
      status = .pending :=
    fun {status} same => @getTxStatusString_injective status .pending same
  constructor
  · rintro ⟨reported, ok, txStatus⟩
    obtain ⟨buffer', status, decoded', found, same⟩ := getTxFromDataStore_ok ok
    rw [decoded] at decoded'
    cases decoded'
    have pendingStatus := isPending (same.symm.trans txStatus)
    rcases found with ⟨row, mem, rfl, -⟩ | ⟨-, row, foundRow, rowStatus⟩
    · exact ⟨row, mem, rfl, (shown_iff_of_pending localCV searchable.toTablesParsed decoded
        mem).mp ⟨reported, ok⟩⟩
    · exact absurd (rowStatus.symm.trans pendingStatus) (searchable.settled row foundRow.mem)
  · rintro ⟨row, mem, rfl, presentable⟩
    obtain ⟨reported, ok⟩ :=
      (shown_iff_of_pending localCV searchable.toTablesParsed decoded mem).mpr presentable
    refine ⟨reported, ok, ?_⟩
    obtain ⟨buffer', status, decoded', found, same⟩ := getTxFromDataStore_ok ok
    rw [decoded] at decoded'
    cases decoded'
    obtain ⟨tx, -, pendingStatus, -⟩ := searchable.pending row mem
    rcases found with ⟨other, otherMem, sameId, rfl⟩ | ⟨absent, -⟩
    · rw [same, List.inj_on_of_nodup_map searchable.nodup otherMem mem sameId, pendingStatus]
      rfl
    · exact absurd rfl (absent row mem)

theorem searchesPending_iff (searchable : Searchable libraries db)
    (decoded : hexToBuffer hash = .ok buffer) :
    (∃ id tx, searchHash db hash = .ok (some (.mempoolTxId id tx))) ↔
      (∀ row ∈ db.txs, row.txId ≠ buffer) ∧ ∃ row ∈ db.mempoolTxs, row.txId = buffer := by
  constructor
  · rintro ⟨id, tx, ok⟩
    have noTx : ∀ row ∈ db.txs, row.txId ≠ buffer := by
      intro row mem same
      obtain ⟨row, mined, -, -, okMined⟩ :=
        searchable.searchHash_of_mined decoded ⟨row, mem, same⟩
      rw [okMined] at ok
      cases ok
    refine ⟨noTx, ?_⟩
    by_contra none
    have noPending : ∀ row ∈ db.mempoolTxs, row.txId ≠ buffer :=
      fun row mem same => none ⟨row, mem, same⟩
    rw [searchHash_block decoded (filter_eq_nil_of_absent noTx)
      (filter_eq_nil_of_absent noPending)] at ok
    obtain ⟨row, -, same⟩ := Option.map_eq_some_iff.mp (Except.ok.inj ok)
    cases same
  · rintro ⟨noTx, row, mem, same⟩
    exact searchable.searchHash_of_pending decoded noTx mem same

/-- Only a row of `txs` is reported as a transaction in a block. -/
theorem searchesMined (searchable : Searchable libraries db)
    (decoded : hexToBuffer hash = .ok buffer) {id : String} {tx : DbTx String}
    (ok : searchHash db hash = .ok (some (.txId id tx))) :
    ∃ row, (db.txs.filter fun row => row.txId = buffer).head? = some row ∧
      parseTxQueryResult row = .ok tx := by
  by_cases mined : ∃ row ∈ db.txs, row.txId = buffer
  · obtain ⟨row, tx', head, parsed, okMined⟩ := searchable.searchHash_of_mined decoded mined
    rw [okMined] at ok
    cases ok
    exact ⟨row, head, parsed⟩
  · exfalso
    have noTx : ∀ row ∈ db.txs, row.txId ≠ buffer := fun row mem same => mined ⟨row, mem, same⟩
    by_cases pending : ∃ row ∈ db.mempoolTxs, row.txId = buffer
    · obtain ⟨row, mem, same⟩ := pending
      obtain ⟨id', tx', okPending⟩ := searchable.searchHash_of_pending decoded noTx mem same
      rw [okPending] at ok
      cases ok
    · rw [searchHash_block decoded (filter_eq_nil_of_absent noTx)
        (filter_eq_nil_of_absent fun row mem same => pending ⟨row, mem, same⟩)] at ok
      obtain ⟨row, -, same⟩ := Option.map_eq_some_iff.mp (Except.ok.inj ok)
      cases same

/-- A block is reported where no transaction is stored. -/
theorem searchesBlock (searchable : Searchable libraries db)
    (decoded : hexToBuffer hash = .ok buffer) {id : String} {block : DbBlock String}
    (ok : searchHash db hash = .ok (some (.blockHash id block))) :
    (∀ row ∈ db.txs, row.txId ≠ buffer) ∧ (∀ row ∈ db.mempoolTxs, row.txId ≠ buffer) ∧
      ∃ row, (db.blocks.filter fun row => row.blockHash = buffer).head? = some row ∧
        parseBlockQueryResult row = block := by
  have noTx : ∀ row ∈ db.txs, row.txId ≠ buffer := by
    intro row mem same
    obtain ⟨row, tx, -, -, okMined⟩ := searchable.searchHash_of_mined decoded ⟨row, mem, same⟩
    rw [okMined] at ok
    cases ok
  have noPending : ∀ row ∈ db.mempoolTxs, row.txId ≠ buffer := by
    intro row mem same
    obtain ⟨id', tx, okPending⟩ := searchable.searchHash_of_pending decoded noTx mem same
    rw [okPending] at ok
    cases ok
  refine ⟨noTx, noPending, ?_⟩
  rw [searchHash_block decoded (filter_eq_nil_of_absent noTx)
    (filter_eq_nil_of_absent noPending)] at ok
  obtain ⟨row, head, same⟩ := Option.map_eq_some_iff.mp (Except.ok.inj ok)
  cases same
  exact ⟨row, head, rfl⟩

/-! ### Where the order of reading shows -/

theorem oneInclusion_of_agrees (searchable : Searchable libraries db)
    (decoded : hexToBuffer hash = .ok buffer) (agrees : SearchAgrees libraries abis db hash) :
    (db.txs.filter fun row => row.txId = buffer).length ≤ 1 := by
  have distinct : ((db.txs.filter fun row => row.txId = buffer).map
      fun tx => (tx.txId, tx.indexBlockHash)).Nodup :=
    searchable.inclusions.sublist (List.filter_sublist.map _)
  -- each row can be the one that is read first
  have chosen : ∀ row ∈ db.txs.filter (fun row => row.txId = buffer), ∃ tx,
      getTx db hash = .ok (some tx) ∧
        tx.indexBlockHash = bufferToHexPrefixString row.indexBlockHash := by
    intro row mem
    obtain ⟨mem, same⟩ := List.mem_filter.mp mem
    obtain ⟨scanned, scan, rest, first⟩ := exists_scan_txs mem
    obtain ⟨tx, parsed⟩ := searchable.succeeds_parseTx mem
    have head : (scanned.txs.filter fun row => row.txId = buffer).head? = some row := by
      rw [first, List.filter_cons, if_pos same]
      rfl
    have found := (agrees.mined scanned scan db (Scan.refl db) _ tx
      (searchHash_tx decoded head parsed)).1
    obtain ⟨columns, -, shape⟩ := Except.bind_eq_ok.mp parsed
    cases shape
    exact ⟨_, found, rfl⟩
  apply length_le_one_of_nodup_map distinct
  intro first firstMem second secondMem
  obtain ⟨tx, firstOk, firstHash⟩ := chosen first firstMem
  obtain ⟨other, secondOk, secondHash⟩ := chosen second secondMem
  rw [firstOk] at secondOk
  cases secondOk
  rw [of_decide_eq_true (List.mem_filter.mp firstMem).2,
    of_decide_eq_true (List.mem_filter.mp secondMem).2,
    bufferToHexPrefixString_injective (firstHash.symm.trans secondHash)]

theorem oneBlock_of_agrees (searchable : Searchable libraries db)
    (decoded : hexToBuffer hash = .ok buffer) (agrees : SearchAgrees libraries abis db hash)
    (noTx : ∀ tx ∈ db.txs, tx.txId ≠ buffer)
    (noPending : ∀ row ∈ db.mempoolTxs, row.txId ≠ buffer) :
    (db.blocks.filter fun row => row.blockHash = buffer).length ≤ 1 := by
  have distinct : ((db.blocks.filter fun row => row.blockHash = buffer).map
      DbBlock.indexBlockHash).Nodup :=
    searchable.blocks.sublist (List.filter_sublist.map _)
  have chosen : ∀ row ∈ db.blocks.filter (fun row => row.blockHash = buffer),
      getBlock db hash = .ok (some (parseBlockQueryResult row)) := by
    intro row mem
    obtain ⟨mem, same⟩ := List.mem_filter.mp mem
    obtain ⟨scanned, scan, rest, first⟩ := exists_scan_blocks mem
    have noTx' : ∀ tx ∈ scanned.txs, tx.txId ≠ buffer :=
      fun tx txMem => noTx tx ((scan.rows .txs).mem_iff.mpr txMem)
    have noPending' : ∀ row ∈ scanned.mempoolTxs, row.txId ≠ buffer :=
      fun row rowMem => noPending row (scan.mempoolTxs.mem_iff.mpr rowMem)
    refine (agrees.block scanned scan db (Scan.refl db) (bufferToHexPrefixString row.blockHash)
      (parseBlockQueryResult row) ?_).1
    rw [searchHash_block decoded (filter_eq_nil_of_absent noTx')
      (filter_eq_nil_of_absent noPending'), first, List.filter_cons, if_pos same]
    rfl
  apply length_le_one_of_nodup_map distinct
  intro first firstMem second secondMem
  have same : parseBlockQueryResult first = parseBlockQueryResult second :=
    Option.some.inj (Except.ok.inj ((chosen first firstMem).symm.trans (chosen second secondMem)))
  exact bufferToHexPrefixString_injective (congrArg DbBlock.indexBlockHash same)

/-! ### Agreement row by row -/

theorem storedHash_iff_of_scan {read : Db} (scan : Scan db read) :
    StoredHash read buffer ↔ StoredHash db buffer := by
  have txs : ∀ row, row ∈ read.txs ↔ row ∈ db.txs := fun row => (scan.rows .txs).mem_iff.symm
  have pending : ∀ row, row ∈ read.mempoolTxs ↔ row ∈ db.mempoolTxs :=
    fun row => scan.mempoolTxs.mem_iff.symm
  have blocks : ∀ row, row ∈ read.blocks ↔ row ∈ db.blocks := fun row => scan.blocks.mem_iff.symm
  simp only [StoredHash, txs, pending, blocks]

/-- Both chains of queries find something for the stored hashes. -/
theorem found_iff (searchable : Searchable libraries db) (decoded : hexToBuffer hash = .ok buffer)
    {searched read : Db} (search : Scan db searched) (scan : Scan db read) :
    (∃ result, searchHash searched hash = .ok (some result)) ↔
      (∃ tx, getMempoolTx read hash = .ok (some tx)) ∨ (∃ tx, getTx read hash = .ok (some tx)) ∨
        ∃ block, getBlock read hash = .ok (some block) := by
  have readable := searchable.scan scan
  rw [(searchable.scan search).searchHash_found_iff decoded, storedHash_iff_of_scan search,
    ← storedHash_iff_of_scan scan, readable.getMempoolTx_found_iff decoded,
    readable.getTx_found_iff decoded, getBlock_found_iff decoded]
  exact or_left_comm

/-- Pending transactions agree when a pending row can be shown exactly if it is the only one. -/
theorem pending_iff (localCV : Local libraries.clarity.deserializeCV)
    (searchable : Searchable libraries db) (decoded : hexToBuffer hash = .ok buffer) :
    (∀ searched, Scan db searched → ∀ read, Scan db read →
      ((∃ id tx, searchHash searched hash = .ok (some (.mempoolTxId id tx))) ↔
        ∃ reported, getTxFromDataStore libraries.clarity libraries.addresses abis hash read =
          .ok (some reported) ∧ reported.txStatus = "pending")) ↔
      ∀ row ∈ db.mempoolTxs, row.txId = buffer → ∀ read, Scan db read →
        (RowPresentable libraries abis read row.toDbTxBase ↔ ∀ tx ∈ db.txs, tx.txId ≠ buffer) := by
  have reports : ∀ searched, Scan db searched → ∀ read, Scan db read →
      (((∃ id tx, searchHash searched hash = .ok (some (.mempoolTxId id tx))) ↔
        ∃ reported, getTxFromDataStore libraries.clarity libraries.addresses abis hash read =
          .ok (some reported) ∧ reported.txStatus = "pending") ↔
        (((∀ tx ∈ db.txs, tx.txId ≠ buffer) ∧ ∃ row ∈ db.mempoolTxs, row.txId = buffer) ↔
          ∃ row ∈ db.mempoolTxs, row.txId = buffer ∧
            RowPresentable libraries abis read row.toDbTxBase)) := by
    intro searched search read scan
    have txs : ∀ row, row ∈ searched.txs ↔ row ∈ db.txs :=
      fun row => (search.rows .txs).mem_iff.symm
    have searchedPending : ∀ row, row ∈ searched.mempoolTxs ↔ row ∈ db.mempoolTxs :=
      fun row => search.mempoolTxs.mem_iff.symm
    have readPending : ∀ row, row ∈ read.mempoolTxs ↔ row ∈ db.mempoolTxs :=
      fun row => scan.mempoolTxs.mem_iff.symm
    rw [(searchable.scan search).searchesPending_iff decoded,
      reportsPending_iff localCV (searchable.scan scan) decoded]
    simp only [txs, searchedPending, readPending]
  constructor
  · intro agrees row mem same read scan
    have both := (reports db (Scan.refl db) read scan).mp (agrees db (Scan.refl db) read scan)
    constructor
    · exact fun presentable => (both.mpr ⟨row, mem, same, presentable⟩).1
    · intro noTx
      obtain ⟨other, otherMem, otherSame, presentable⟩ := both.mp ⟨noTx, row, mem, same⟩
      rwa [List.inj_on_of_nodup_map searchable.nodup otherMem mem (otherSame.trans same.symm)]
        at presentable
  · intro definite searched search read scan
    rw [reports searched search read scan]
    constructor
    · rintro ⟨noTx, row, mem, same⟩
      exact ⟨row, mem, same, (definite row mem same read scan).mpr noTx⟩
    · rintro ⟨row, mem, same, presentable⟩
      exact ⟨(definite row mem same read scan).mp presentable, row, mem, same⟩

/-- With one inclusion every order of reading yields its row. -/
theorem mined_of_oneInclusion (searchable : Searchable libraries db)
    (decoded : hexToBuffer hash = .ok buffer)
    (one : (db.txs.filter fun row => row.txId = buffer).length ≤ 1) {searched read : Db}
    (search : Scan db searched) (scan : Scan db read) {id : String} {tx : DbTx String}
    (ok : searchHash searched hash = .ok (some (.txId id tx))) :
    getTx read hash = .ok (some tx) ∧
      ∀ row ∈ db.txs, hexToBuffer hash = .ok row.txId → row.canonical = true →
        tx.canonical = true := by
  obtain ⟨row, head, parsed⟩ := (searchable.scan search).searchesMined decoded ok
  have searchedTxs : searched.txs.Perm db.txs := (search.rows .txs).symm
  have readTxs : db.txs.Perm read.txs := scan.rows .txs
  have single := eq_singleton_of_head? (searchedTxs.filter _) one head
  have readSingle : (read.txs.filter fun row => row.txId = buffer) = [row] :=
    List.perm_singleton.mp ((readTxs.filter _).symm.trans (List.Perm.of_eq single))
  constructor
  · refine getTx_of_head decoded ?_ parsed
    rw [readSingle]
    rfl
  · intro other mem same canonical
    rw [decoded] at same
    have selected : other ∈ db.txs.filter fun row => row.txId = buffer :=
      List.mem_filter.mpr ⟨mem, decide_eq_true (Except.ok.inj same).symm⟩
    rw [single] at selected
    obtain rfl : other = row := List.mem_singleton.mp selected
    obtain ⟨columns, -, shape⟩ := Except.bind_eq_ok.mp parsed
    cases shape
    exact canonical

theorem block_of_oneBlock (searchable : Searchable libraries db)
    (decoded : hexToBuffer hash = .ok buffer)
    (one : (∀ tx ∈ db.txs, tx.txId ≠ buffer) → (∀ row ∈ db.mempoolTxs, row.txId ≠ buffer) →
      (db.blocks.filter fun row => row.blockHash = buffer).length ≤ 1) {searched read : Db}
    (search : Scan db searched) (scan : Scan db read) {id : String} {block : DbBlock String}
    (ok : searchHash searched hash = .ok (some (.blockHash id block))) :
    getBlock read hash = .ok (some block) ∧
      ∀ row ∈ db.blocks, hexToBuffer hash = .ok row.blockHash → row.canonical = true →
        block.canonical = true := by
  obtain ⟨noTx, noPending, row, head, rfl⟩ := (searchable.scan search).searchesBlock decoded ok
  have atMostOne := one (fun tx mem => noTx tx ((search.rows .txs).mem_iff.mp mem))
    fun row mem => noPending row (search.mempoolTxs.mem_iff.mp mem)
  have single := eq_singleton_of_head? (search.blocks.symm.filter _) atMostOne head
  have readSingle : (read.blocks.filter fun row => row.blockHash = buffer) = [row] :=
    List.perm_singleton.mp ((scan.blocks.filter _).symm.trans (List.Perm.of_eq single))
  constructor
  · rw [getBlock_eq decoded, readSingle]
    rfl
  · intro other mem same canonical
    rw [decoded] at same
    have selected : other ∈ db.blocks.filter fun row => row.blockHash = buffer :=
      List.mem_filter.mpr ⟨mem, decide_eq_true (Except.ok.inj same).symm⟩
    rw [single] at selected
    rw [← List.mem_singleton.mp selected]
    exact canonical

/-- Search and lookup agree exactly on the hashes that leave no choice. -/
theorem agrees_iff (localCV : Local libraries.clarity.deserializeCV)
    (searchable : Searchable libraries db) (decoded : hexToBuffer hash = .ok buffer) :
    SearchAgrees libraries abis db hash ↔ SearchDefinite libraries abis db buffer := by
  constructor
  · intro agrees
    exact
      { oneInclusion := searchable.oneInclusion_of_agrees decoded agrees
        pending := (pending_iff localCV searchable decoded).mp agrees.pending
        oneBlock := searchable.oneBlock_of_agrees decoded agrees }
  · intro definite
    exact
      { found := fun _ search _ scan => searchable.found_iff decoded search scan
        pending := (pending_iff localCV searchable decoded).mpr definite.pending
        mined := fun _ search _ scan _ _ ok =>
          searchable.mined_of_oneInclusion decoded definite.oneInclusion search scan ok
        block := fun _ search _ scan _ _ ok =>
          searchable.block_of_oneBlock decoded definite.oneBlock search scan ok }

end Searchable

/-! ## Runs -/

/-- Every reachable state is searchable. -/
theorem runServer_searchable (messages : List ServerMessage) :
    Searchable libraries (runServer libraries messages) := by
  have holds : MinedSettled (runServer libraries messages) ∧
      InclusionsUnique (runServer libraries messages) := by
    apply runServer_invariant (P := fun db => MinedSettled db ∧ InclusionsUnique db)
      (Q := fun _ _ => True) libraries
    · exact ⟨List.forall_mem_nil _, List.nodup_nil⟩
    · rintro db message holds -
      apply receive_invariant (P := fun db => MinedSettled db ∧ InclusionsUnique db) libraries holds
      · rintro msg - data handed db' events ok
        obtain ⟨settled, inclusions⟩ := holds
        obtain ⟨-, reorged, pruned, row, accepted⟩ := update_ok ok
        exact ⟨settled.update handed accepted, inclusions.update ok⟩
      · rintro receiptDate rawTxs - txs - tx - pool after events holds ok
        obtain ⟨mempoolTx, row, -, -, rfl | rfl⟩ := insertMempoolTx_ok libraries ok
        · exact holds
        · exact holds
    · exact fun _ _ _ => trivial
  exact
    { toTablesParsed := runServer_tablesParsed messages
      settled := holds.1
      inclusions := holds.2
      blocks := (runServer_standing messages).forked.keys }

/-- After every run, `searchHash` agrees with the other queries on a hash if and only if
at most one block includes it, a pending row of it can be shown exactly when no block
includes it, and, where neither table of transactions has it, at most one block has it. -/
theorem searchHash_agrees_iff (localCV : Local libraries.clarity.deserializeCV)
    (messages : List ServerMessage) {hash : String} {buffer : Buffer}
    (decoded : hexToBuffer hash = .ok buffer) :
    SearchAgrees libraries abis (runServer libraries messages) hash ↔
      SearchDefinite libraries abis (runServer libraries messages) buffer :=
  Searchable.agrees_iff localCV (runServer_searchable messages) decoded

/-! ### The transfer in one block -/

theorem searchHash_agrees_sampleBlock :
    SearchAgrees sampleLibraries AbiLibrary.null
      (runServer sampleLibraries [.newBlock sampleBlock]) (bufferToHexPrefixString sampleTxId) := by
  refine (searchHash_agrees_iff local_booleans _ (hexToBuffer_bufferToHexPrefixString _)).mpr ?_
  rw [runServer, List.foldl_cons, List.foldl_nil, receive_sampleBlock]
  exact ⟨by decide, List.forall_mem_nil _,
    fun noTx => absurd rfl (noTx sampleTxRow List.mem_cons_self)⟩

/-! ## A transaction in two forks -/

/-- A sibling of the block, with the same transfer. -/
def siblingBlock : CoreNodeMessage :=
  { sampleBlock with blockHash := "0x12", indexBlockHash := "0x12" }

/-- An empty block on the sibling. -/
def siblingChild : CoreNodeMessage where
  blockHash := "0x13"
  blockHeight := 2
  burnBlockTime := 1594647998
  indexBlockHash := "0x13"
  parentIndexBlockHash := "0x12"
  parentBlockHash := "0x12"
  parentMicroblock := "0x"
  events := []
  transactions := []

/-- The row of the transfer in a block. -/
def transferIn (hash : Buffer) (canonical : Bool) : DbTx Buffer :=
  { sampleTxRow with indexBlockHash := hash, blockHash := hash, canonical }

/-- The tables after the reorganisation to the sibling. -/
def siblingTables : Db :=
  { Db.empty with
    blocks := [
      { sampleBlockRow with canonical := false },
      { sampleBlockRow with blockHash := [0x12], indexBlockHash := [0x12] },
      { blockHash := [0x13], burnBlockTime := 1594647998, indexBlockHash := [0x13]
        parentIndexBlockHash := [0x12], parentBlockHash := [0x12], parentMicroblock := []
        blockHeight := 2, canonical := true }]
    txs := [transferIn [0x11] false, transferIn [0x12] true] }

theorem messageData_siblingBlock : messageData sampleLibraries siblingBlock =
    .ok { block := messageBlock siblingBlock
          txs := [{ sampleEntry with
            tx := { sampleEntry.tx with indexBlockHash := "0x12", blockHash := "0x12" } }] } := by
  have parsed : parseMessageTransaction sampleLibraries siblingBlock sampleCoreTx =
      .ok { sampleParsed with blockHash := "0x12", indexBlockHash := "0x12" } := by
    rw [parseMessageTransaction, txBuffer_sampleCoreTx, readBufferTransaction_sampleBuffer]
    rfl
  have all : parseMessageTransactions sampleLibraries siblingBlock =
      .ok [{ sampleParsed with blockHash := "0x12", indexBlockHash := "0x12" }] :=
    mapM_eq_ok_iff.mpr (.cons parsed .nil)
  rw [messageData, all]
  rfl

theorem runServer_siblingChild :
    runServer sampleLibraries [.newBlock sampleBlock, .newBlock siblingBlock,
      .newBlock siblingChild] = siblingTables := by
  have second : receive sampleLibraries
      { Db.empty with blocks := [sampleBlockRow], txs := [sampleTxRow] } (.newBlock siblingBlock) =
        { Db.empty with
          blocks := [sampleBlockRow,
            { sampleBlockRow with
              blockHash := [0x12]
              indexBlockHash := [0x12]
              canonical := false }]
          txs := [sampleTxRow, transferIn [0x12] false] } :=
    receive_of_update messageData_siblingBlock (by decide +kernel)
  have child : messageData sampleLibraries siblingChild =
      .ok { block := messageBlock siblingChild, txs := [] } := rfl
  rw [runServer, List.foldl_cons, List.foldl_cons, List.foldl_cons, List.foldl_nil,
    receive_sampleBlock, second]
  exact receive_of_update child (by decide +kernel)

/-- The transfer in the block that is not canonical. -/
def orphanedTransfer : DbTx String :=
  { sampleEntry.tx with canonical := false }

/-- After a reorganisation the search reports the orphaned inclusion of a transaction, and
`getTx` the canonical one. -/
theorem searchHash_siblingTables :
    sampleTxId.length = 32 ∧
    searchHash (runServer sampleLibraries [.newBlock sampleBlock, .newBlock siblingBlock,
        .newBlock siblingChild]) (bufferToHexPrefixString sampleTxId) =
      .ok (some (.txId (bufferToHexPrefixString sampleTxId) orphanedTransfer)) ∧
    getTx (runServer sampleLibraries [.newBlock sampleBlock, .newBlock siblingBlock,
        .newBlock siblingChild]) (bufferToHexPrefixString sampleTxId) =
      .ok (some { sampleEntry.tx with indexBlockHash := "0x12", blockHash := "0x12" }) ∧
    ¬SearchAgrees sampleLibraries AbiLibrary.null
      (runServer sampleLibraries [.newBlock sampleBlock, .newBlock siblingBlock,
        .newBlock siblingChild]) (bufferToHexPrefixString sampleTxId) := by
  rw [runServer_siblingChild]
  have searched : searchHash siblingTables (bufferToHexPrefixString sampleTxId) =
      .ok (some (.txId (bufferToHexPrefixString sampleTxId) orphanedTransfer)) := by
    decide +kernel
  refine ⟨by decide, searched, by decide +kernel, ?_⟩
  intro agrees
  have canonical := (agrees.mined siblingTables (Scan.refl _) siblingTables (Scan.refl _) _ _
    searched).2 (transferIn [0x12] true) (List.mem_cons_of_mem _ List.mem_cons_self)
    (hexToBuffer_bufferToHexPrefixString _) rfl
  cases canonical

end StacksApi.EventStream
