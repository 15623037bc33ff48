import StacksApi.Datastore.Stepwise
import StacksApi.Datastore.ToldApart

/-!
# Searches among commits

`searchHash` asks for mined transactions first and then for pending ones, so that it misses
a transaction that is mined in between.  `searchPrincipal` asks the mempool first, and for
an account it asks for rows that stay: it misses only what is not there when it begins.
-/

namespace StacksApi.Datastore

open StacksApi.Binary
open StacksApi.Relational
open StacksApi.Transition
open CanonicalEntity Reading

theorem filter_eq_nil_of_forall_ne {α β : Type} [DecidableEq β] {column : α → β} {rows : List α}
    {value : β} (none : ∀ row ∈ rows, column row ≠ value) :
    rows.filter (fun row => column row = value) = [] :=
  List.filter_eq_nil_iff.mpr fun row mem same => none row mem (of_decide_eq_true same)

/-- Where no row is read, none of them has the value. -/
theorem forall_ne_of_head?_filter {α β : Type} [DecidableEq β] {column : α → β}
    {rows seen : List α} {value : β}
    (none : (seen.filter fun row => column row = value).head? = none) (perm : rows.Perm seen) :
    ∀ row ∈ rows, column row ≠ value := by
  intro row mem same
  have nothing := List.filter_eq_nil_iff.mp (List.head?_eq_none_iff.mp none)
  exact nothing row (perm.subset mem) (decide_eq_true same)

/-! ## Searching for a hash -/

section Hash

variable {calls : List StoreCall} {start last : Moment calls} {hash : String} {buffer : Buffer}

/-- A hash that is missed was not mined in one moment, not pending in a later one and not that
of a block in a third. -/
theorem searchHash_missed (decoded : hexToBuffer hash = .ok buffer)
    (ends : Ends Moment.Sees start (Stepwise.searchHash hash) last (.ok none)) :
    ∃ atTxs atPool : Moment calls, start ≤ atTxs ∧ atTxs ≤ atPool ∧ atPool ≤ last ∧
      (∀ tx ∈ atTxs.db.txs, tx.txId ≠ buffer) ∧
      (∀ pending ∈ atPool.db.mempoolTxs, pending.txId ≠ buffer) ∧
      ∀ block ∈ last.db.blocks, block.blockHash ≠ buffer := by
  obtain ⟨_, decoded', ends⟩ := ends_lift_bind_iff.mp ends
  cases decoded.symm.trans decoded'
  obtain ⟨mined, atTxs, seen, later, sight, same, ends⟩ := ends_ask_bind_iff.mp ends
  cases same
  split at ends
  · obtain ⟨tx, -, ends⟩ := ends_lift_bind_iff.mp ends
    obtain ⟨-, ⟨⟩⟩ := ends_pure_iff.mp ends
  next notMined =>
    obtain ⟨pending, atPool, seen', later', sight', same, ends⟩ := ends_ask_bind_iff.mp ends
    cases same
    split at ends
    · obtain ⟨tx, -, ends⟩ := ends_lift_bind_iff.mp ends
      obtain ⟨-, ⟨⟩⟩ := ends_pure_iff.mp ends
    next notPending =>
      obtain ⟨block, atBlocks, seen'', later'', sight'', same, ends⟩ := ends_ask_bind_iff.mp ends
      cases same
      split at ends
      · obtain ⟨-, ⟨⟩⟩ := ends_pure_iff.mp ends
      next notBlock =>
        obtain ⟨rfl, -⟩ := ends_pure_iff.mp ends
        refine ⟨atTxs, atPool, later, later', later'', ?_, ?_, ?_⟩
        · exact forall_ne_of_head?_filter notMined (sight.rows .txs)
        · exact forall_ne_of_head?_filter notPending sight'.mempoolTxs
        · exact forall_ne_of_head?_filter notBlock sight''.blocks

/-- What is found for a hash is stored. -/
theorem searchHash_found {result : DbSearchResult}
    (ends : Ends Moment.Sees start (Stepwise.searchHash hash) last (.ok (some result))) :
    (∃ tx ∈ last.db.txs, ∃ data, result = .txId (bufferToHexPrefixString tx.txId) data) ∨
      (∃ pending ∈ last.db.mempoolTxs, ∃ data,
        result = .mempoolTxId (bufferToHexPrefixString pending.txId) data) ∨
      ∃ block ∈ last.db.blocks, ∃ data,
        result = .blockHash (bufferToHexPrefixString block.blockHash) data := by
  obtain ⟨buffer, -, ends⟩ := ends_lift_bind_iff.mp ends
  obtain ⟨mined, atTxs, seen, -, sight, same, ends⟩ := ends_ask_bind_iff.mp ends
  cases mined with
  | some tx =>
      obtain ⟨data, -, ends⟩ := ends_lift_bind_iff.mp ends
      obtain ⟨rfl, ⟨⟩⟩ := ends_pure_iff.mp ends
      have mem := (List.mem_filter.mp (List.mem_of_head? (Except.ok.inj same))).1
      exact Or.inl ⟨tx, (sight.rows .txs).symm.subset mem, data, rfl⟩
  | none =>
      obtain ⟨pending, atPool, seen', -, sight', same', ends⟩ := ends_ask_bind_iff.mp ends
      cases pending with
      | some tx =>
          obtain ⟨data, -, ends⟩ := ends_lift_bind_iff.mp ends
          obtain ⟨rfl, ⟨⟩⟩ := ends_pure_iff.mp ends
          have mem := (List.mem_filter.mp (List.mem_of_head? (Except.ok.inj same'))).1
          exact Or.inr (Or.inl ⟨tx, sight'.mempoolTxs.symm.subset mem, data, rfl⟩)
      | none =>
          obtain ⟨found, atBlocks, seen'', -, sight'', same'', ends⟩ := ends_ask_bind_iff.mp ends
          cases found with
          | some block =>
              obtain ⟨rfl, ⟨⟩⟩ := ends_pure_iff.mp ends
              have mem := (List.mem_filter.mp (List.mem_of_head? (Except.ok.inj same''))).1
              exact Or.inr (Or.inr ⟨block, sight''.blocks.symm.subset mem, _, rfl⟩)
          | none =>
              obtain ⟨-, ⟨⟩⟩ := ends_pure_iff.mp ends

/-- The search for a hash misses what is not mined when it begins, is not pending in some
later moment, and is not the hash of a block in that moment: a pending transaction that is
mined meanwhile, and what is not there at all. -/
theorem searchHash_missed_iff (consistent : Consistent (updatesOf calls))
    (decoded : hexToBuffer hash = .ok buffer) :
    (∃ last, Ends Moment.Sees start (Stepwise.searchHash hash) last (.ok none)) ↔
      (∀ tx ∈ start.db.txs, tx.txId ≠ buffer) ∧ ∃ later, start ≤ later ∧
        (∀ pending ∈ later.db.mempoolTxs, pending.txId ≠ buffer) ∧
        ∀ block ∈ later.db.blocks, block.blockHash ≠ buffer := by
  constructor
  · rintro ⟨last, ends⟩
    obtain ⟨atTxs, atPool, first, second, third, noTx, noPending, noBlock⟩ :=
      searchHash_missed decoded ends
    refine ⟨fun tx mem same => ?_, atPool, le_trans first second, noPending,
      fun block mem same => ?_⟩
    · obtain ⟨tx', mem', sameId⟩ := (Moment.outlasts consistent first).exists_txId mem
      exact noTx tx' mem' (sameId.trans same)
    · obtain ⟨block', mem', sameBlock⟩ := (Moment.outlasts consistent third).exists_block mem
      have sameHash : block'.blockHash = block.blockHash :=
        congrArg (fun block => block.blockHash) sameBlock
      exact noBlock block' mem' (sameHash.trans same)
  · rintro ⟨noTx, later, order, noPending, noBlock⟩
    refine ⟨later, ends_lift_bind_iff.mpr ⟨buffer, decoded, ends_ask_bind_iff.mpr
      ⟨none, start, start.db, le_refl _, Moment.sees_self _, ?_, ?_⟩⟩⟩
    · rw [filter_eq_nil_of_forall_ne noTx, List.head?_nil]
    refine ends_ask_bind_iff.mpr ⟨none, later, later.db, order, Moment.sees_self _, ?_, ?_⟩
    · rw [filter_eq_nil_of_forall_ne noPending, List.head?_nil]
    refine ends_ask_bind_iff.mpr ⟨none, later, later.db, le_refl _, Moment.sees_self _, ?_,
      ends_pure_iff.mpr ⟨rfl, rfl⟩⟩
    rw [filter_eq_nil_of_forall_ne noBlock, List.head?_nil]

end Hash

/-! ## Searching for a principal -/

/-- The entity type with the principal and the transaction that deploys it. -/
inductive PrincipalSearchResult
  | standardAddress (entityId : String)
  | contractAddress (entityId : String) (entityData : DbMempoolTx String)
  | txId (entityId : String) (entityData : DbTx String)
  deriving DecidableEq

/-- The queries for the rows of `txs`, `stx_events`, `ft_events` and `nft_events` that an
account is a party of. -/
def addressQueries (principal : String) : List (Db → Bool) :=
  [fun db => db.txs.any fun row =>
      row.senderAddress = principal || row.tokenTransferRecipientAddress = some principal,
    fun db => db.stxEvents.any fun row =>
      row.entity.sender = some principal || row.entity.recipient = some principal,
    fun db => db.ftEvents.any fun row =>
      row.entity.sender = some principal || row.entity.recipient = some principal,
    fun db => db.nftEvents.any fun row =>
      row.entity.sender = some principal || row.entity.recipient = some principal]

/-- What is stored of a contract or an address, query by query. -/
def Stepwise.searchPrincipal (principal : String) : QueryM (Option PrincipalSearchResult) :=
  let isContract := principal.toList.contains '.'
  if isContract then do
    match ← ask fun db => .ok (db.mempoolTxs.filter fun row =>
        row.smartContractContractId = some principal).head? with
    | some row =>
        let txResult ← parseMempoolTxQueryResult row
        return some (.contractAddress principal txResult)
    | none =>
        match ← ask fun db => .ok (orderByDesc
            (fun row : DbTx Buffer => toLex (row.canonical, row.blockHeight))
            (db.txs.filter fun row => row.smartContractContractId = some principal)).head? with
        | some row =>
            let txResult ← parseTxQueryResult row
            return some (.txId principal txResult)
        | none => return none
  else do
    if ← anySeries (addressQueries principal) then return some (.standardAddress principal)
    else return none

/-- The principal occurs in the tables. -/
def PrincipalKnown (db : Db) (principal : String) : Prop :=
  if principal.toList.contains '.' then
    (∃ pending ∈ db.mempoolTxs, pending.smartContractContractId = some principal) ∨
      ∃ tx ∈ db.txs, tx.smartContractContractId = some principal
  else ∃ finds ∈ addressQueries principal, finds db = true

instance (db : Db) (principal : String) : Decidable (PrincipalKnown db principal) :=
  inferInstanceAs (Decidable (if principal.toList.contains '.' then
      (∃ pending ∈ db.mempoolTxs, pending.smartContractContractId = some principal) ∨
        ∃ tx ∈ db.txs, tx.smartContractContractId = some principal
    else ∃ finds ∈ addressQueries principal, finds db = true))

/-! ## Where rows come from -/

/-- Every row of either table of transactions was delivered by one of the calls. -/
structure Delivered (calls : List StoreCall) (db : Db) : Prop where
  txs : ∀ tx ∈ db.txs, ∃ source ∈ deliveredTxs calls,
    DecodedTx (withCanonical true source) (withCanonical true tx)
  pending : ∀ row ∈ db.mempoolTxs, ∃ source ∈ pendingOf calls, DecodedMempool source row

theorem Delivered.append {calls : List StoreCall} {db : Db} (delivered : Delivered calls db)
    (call : StoreCall) : Delivered (calls ++ [call]) db where
  txs tx mem := by
    obtain ⟨source, sourceMem, same⟩ := delivered.txs tx mem
    rw [deliveredTxs_append]
    exact ⟨source, List.mem_append_left _ sourceMem, same⟩
  pending row mem := by
    obtain ⟨source, sourceMem, same⟩ := delivered.pending row mem
    rw [pendingOf_append]
    exact ⟨source, List.mem_append_left _ sourceMem, same⟩

theorem runStore_delivered (calls : List StoreCall) : Delivered calls (runStore calls) := by
  apply run_induction (motive := Delivered)
  · exact ⟨by rintro tx ⟨⟩, by rintro row ⟨⟩⟩
  intro past call before
  have kept := before.append call
  change Delivered _ (commit performCall (runStore past) call)
  cases result : performCall (runStore past) call with
  | error error =>
      rw [commit_of_error result]
      exact kept
  | ok outcome =>
      rw [commit_of_ok result]
      cases call with
      | update data =>
          obtain ⟨-, reorged, pruned, row, accepted⟩ := update_ok result
          refine ⟨fun tx mem => ?_, fun row mem =>
            kept.pending row (accepted.sublist_mempoolTxs.subset mem)⟩
          rcases accepted.tx_decoded mem with ⟨original, originalMem, same⟩ |
            ⟨entry, entryMem, decoded⟩
          · rw [← same]
            exact kept.txs original originalMem
          · exact ⟨entry.tx, mem_deliveredTxs.mpr
              ⟨data, mem_updatesOf_last past data, entry, entryMem, rfl⟩, decoded⟩
      | updateMempoolTx mempoolTx =>
          obtain ⟨row, decoded, ⟨-, same, -⟩ | ⟨-, same, -⟩⟩ := updateMempoolTx_ok result
          · rw [same]
            exact kept
          · rw [same]
            refine ⟨kept.txs, fun other mem => ?_⟩
            rcases List.mem_append.mp mem with old | new
            · exact kept.pending other old
            · rw [List.mem_singleton.mp new, pendingOf_append]
              exact ⟨mempoolTx, List.mem_append_right _ (List.mem_singleton_self _),
                mempoolTxRow_ok decoded⟩

/-- A pending transaction and one in a block with the same id deploy the same contract. -/
def DeploysAlike (calls : List StoreCall) : Prop :=
  ∀ pending ∈ pendingOf calls, ∀ tx ∈ deliveredTxs calls,
    hexToBuffer pending.txId = hexToBuffer tx.txId →
      pending.smartContractContractId = tx.smartContractContractId

section Searched

variable {calls : List StoreCall} {start last : Moment calls} {principal : String}

/-- A contract whose deployment has left the mempool is deployed. -/
theorem Moment.contract_of_pending (consistent : Consistent (updatesOf calls))
    (alike : DeploysAlike calls) {earlier later : Moment calls} (order : earlier ≤ later)
    {pending : DbMempoolTx Buffer} (mem : pending ∈ earlier.db.mempoolTxs) :
    pending ∈ later.db.mempoolTxs ∨
      ∃ tx ∈ later.db.txs, tx.smartContractContractId = pending.smartContractContractId := by
  rcases (Moment.outlasts consistent order).pending pending mem with still | ⟨tx, txMem, same⟩
  · exact Or.inl still
  obtain ⟨source, sourceMem, decoded⟩ := (runStore_delivered earlier.past).pending pending mem
  obtain ⟨mined, minedMem, minedFrom⟩ := (runStore_delivered later.past).txs tx txMem
  have minedId : hexToBuffer mined.txId = .ok tx.txId := minedFrom.txId
  have columns : tx.smartContractContractId = mined.smartContractContractId :=
    congrArg (fun tx => tx.smartContractContractId) minedFrom.columns
  refine Or.inr ⟨tx, txMem, ?_⟩
  rw [columns, decoded.columns]
  refine (alike source ?_ mined ?_ ?_).symm
  · obtain ⟨rest, same⟩ := earlier.isPrefix
    rw [← same, pendingOf_append]
    exact List.mem_append_left _ sourceMem
  · obtain ⟨rest, same⟩ := later.isPrefix
    rw [← same, deliveredTxs_append]
    exact List.mem_append_left _ minedMem
  · rw [decoded.txId, minedId, same]

/-- What a query that does not look at canonical flags finds in a table, it finds in it later. -/
theorem Moment.any_kept (consistent : Consistent (updatesOf calls)) (table : EntityTable)
    {test : table.Row → Bool} (blind : ∀ row, test (Flagged.withFlag true row) = test row)
    {before after : Moment calls} {seen seen' : Db} (order : before ≤ after)
    (sight : before.Sees seen) (sight' : after.Sees seen')
    (found : (seen.rows table).any test = true) : (seen'.rows table).any test = true := by
  obtain ⟨row, mem, holds⟩ := List.any_eq_true.mp found
  obtain ⟨row', mem', same⟩ := exists_of_raised_prefix
    ((Moment.outlasts consistent order).rows table) ((sight.rows table).symm.subset mem)
  refine List.any_eq_true.mpr ⟨row', (sight'.rows table).subset mem', ?_⟩
  rw [← blind, same, blind]
  exact holds

theorem Moment.addressQueries_kept (consistent : Consistent (updatesOf calls)) :
    ∀ finds ∈ addressQueries principal, ∀ (before after : Moment calls) (seen seen' : Db),
      before ≤ after → before.Sees seen → after.Sees seen' → finds seen = true →
        finds seen' = true := by
  simp only [addressQueries, List.forall_mem_cons]
  refine ⟨?_, ?_, ?_, ?_, List.forall_mem_nil _⟩
  · intro before after seen seen'
    exact Moment.any_kept consistent .txs fun _ => rfl
  · intro before after seen seen'
    exact Moment.any_kept consistent .stxEvents fun _ => rfl
  · intro before after seen seen'
    exact Moment.any_kept consistent .ftEvents fun _ => rfl
  · intro before after seen seen'
    exact Moment.any_kept consistent .nftEvents fun _ => rfl

/-- What is deployed stays so. -/
theorem Moment.deployed_kept (consistent : Consistent (updatesOf calls))
    {earlier later : Moment calls} (order : earlier ≤ later)
    (deployed : ∃ tx ∈ earlier.db.txs, tx.smartContractContractId = some principal) :
    ∃ tx ∈ later.db.txs, tx.smartContractContractId = some principal := by
  obtain ⟨tx, mem, deploys⟩ := deployed
  obtain ⟨tx', mem', same⟩ := (Moment.outlasts consistent order).exists_tx mem
  have sameContract : tx'.smartContractContractId = tx.smartContractContractId :=
    congrArg (fun tx => tx.smartContractContractId) same
  exact ⟨tx', mem', sameContract.trans deploys⟩

/-- A contract that is missed was not pending in one moment and not deployed in a later one. -/
theorem searchPrincipal_contract_missed (isContract : principal.toList.contains '.' = true)
    (ends : Ends Moment.Sees start (Stepwise.searchPrincipal principal) last (.ok none)) :
    ∃ atPool atTxs : Moment calls, start ≤ atPool ∧ atPool ≤ atTxs ∧
      (∀ pending ∈ atPool.db.mempoolTxs, pending.smartContractContractId ≠ some principal) ∧
      ∀ tx ∈ atTxs.db.txs, tx.smartContractContractId ≠ some principal := by
  rw [Stepwise.searchPrincipal, if_pos isContract] at ends
  obtain ⟨pending, atPool, seen, later, sight, same, ends⟩ := ends_ask_bind_iff.mp ends
  cases same
  split at ends
  · obtain ⟨tx, -, ends⟩ := ends_lift_bind_iff.mp ends
    obtain ⟨-, ⟨⟩⟩ := ends_pure_iff.mp ends
  next notPending =>
    obtain ⟨mined, atTxs, seen', later', sight', same, ends⟩ := ends_ask_bind_iff.mp ends
    cases same
    split at ends
    · obtain ⟨tx, -, ends⟩ := ends_lift_bind_iff.mp ends
      obtain ⟨-, ⟨⟩⟩ := ends_pure_iff.mp ends
    next notMined =>
      refine ⟨atPool, atTxs, later, later', ?_, fun tx mem deploys => ?_⟩
      · exact forall_ne_of_head?_filter notPending sight.mempoolTxs
      · have nonempty : seen'.txs.filter
            (fun row => row.smartContractContractId = some principal) ≠ [] :=
          List.ne_nil_of_mem (List.mem_filter.mpr
            ⟨(sight'.rows .txs).subset mem, decide_eq_true deploys⟩)
        obtain ⟨row, head⟩ : ∃ row, (orderByDesc
            (fun row : DbTx Buffer => toLex (row.canonical, row.blockHeight))
            (seen'.txs.filter fun row => row.smartContractContractId = some principal)).head? =
              some row :=
          exists_head?_orderByDesc nonempty
        rw [head] at notMined
        cases notMined

/-- The search for a principal misses exactly what is not there when it begins, whatever
commits between its queries. -/
theorem searchPrincipal_missed_iff (consistent : Consistent (updatesOf calls))
    (alike : DeploysAlike calls) :
    (∃ last, Ends Moment.Sees start (Stepwise.searchPrincipal principal) last (.ok none)) ↔
      ¬PrincipalKnown start.db principal := by
  by_cases isContract : principal.toList.contains '.' = true
  · rw [PrincipalKnown, if_pos isContract]
    constructor
    · rintro ⟨last, ends⟩ known
      obtain ⟨atPool, atTxs, later, later', noPending, noTx⟩ :=
        searchPrincipal_contract_missed isContract ends
      have deployed : ∃ tx ∈ atPool.db.txs, tx.smartContractContractId = some principal := by
        rcases known with ⟨pending, mem, deploys⟩ | deployed
        · rcases Moment.contract_of_pending consistent alike later mem with
            still | ⟨tx, txMem, same⟩
          · exact absurd deploys (noPending pending still)
          · exact ⟨tx, txMem, same.trans deploys⟩
        · exact Moment.deployed_kept consistent later deployed
      obtain ⟨tx, mem, deploys⟩ := Moment.deployed_kept consistent later' deployed
      exact noTx tx mem deploys
    · intro unknown
      rw [not_or] at unknown
      have noPending : ∀ pending ∈ start.db.mempoolTxs,
          pending.smartContractContractId ≠ some principal :=
        fun pending mem deploys => unknown.1 ⟨pending, mem, deploys⟩
      have noTx : ∀ tx ∈ start.db.txs, tx.smartContractContractId ≠ some principal :=
        fun tx mem deploys => unknown.2 ⟨tx, mem, deploys⟩
      rw [Stepwise.searchPrincipal, if_pos isContract]
      refine ⟨start, ends_ask_bind_iff.mpr
        ⟨none, start, start.db, le_refl _, Moment.sees_self _, ?_, ?_⟩⟩
      · rw [filter_eq_nil_of_forall_ne noPending, List.head?_nil]
      · refine ends_ask_bind_iff.mpr
          ⟨none, start, start.db, le_refl _, Moment.sees_self _, ?_, ends_pure_iff.mpr ⟨rfl, rfl⟩⟩
        rw [filter_eq_nil_of_forall_ne noTx]
        rfl
  · rw [PrincipalKnown, if_neg isContract, Stepwise.searchPrincipal, if_neg isContract]
    constructor
    · rintro ⟨last, ends⟩ ⟨finds, mem, found⟩
      obtain ⟨answer, middle, asked, ends⟩ := ends_bind_ok_iff.mp ends
      cases answer with
      | true =>
          obtain ⟨-, ⟨⟩⟩ := ends_pure_iff.mp ends
      | false =>
          rcases ends_anySeries (Moment.addressQueries_kept consistent) asked with
            ⟨⟨⟩⟩ | ⟨-, missed⟩
          rw [missed start.db (Moment.sees_self _) finds mem] at found
          cases found
    · intro unknown
      have missed : (addressQueries principal).any (fun finds => finds start.db) = false := by
        rw [List.any_eq_false]
        exact fun finds mem found => unknown ⟨finds, mem, found⟩
      refine ⟨start, ends_bind_ok_iff.mpr ⟨false, start, ?_, ends_pure_iff.mpr ⟨rfl, rfl⟩⟩⟩
      rw [← missed, ← alone_anySeries]
      exact ends_alone (Moment.sees_self _) _

end Searched

end StacksApi.Datastore
