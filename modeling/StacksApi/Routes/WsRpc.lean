import StacksApi.Controllers.DbController
import StacksApi.Datastore.StoreRun

/-!
# Notifications of transactions

`processTxUpdate` of `api/routes/ws-rpc.ts`.  A notification is made of the
incoming message, while `getTxFromDataStore` looks in the mempool first and then
prefers the canonical chain.  They agree for the transactions of a new tip and
for mempool insertions; for a transaction that is stored on a fork, or stored
already, they agree when nothing else is stored for its id.
-/

namespace StacksApi.Routes

open StacksApi.Binary
open StacksApi.Chain
open StacksApi.Relational
open StacksApi.Datastore
open StacksApi.Controllers
open StacksApi.Transition
open CanonicalEntity

/-- The parameters of a notification of a transaction. -/
structure RpcTxUpdateNotificationParams where
  txId : String
  txStatus : String
  txType : String
  deriving DecidableEq

/-- Key = subscription topic, value = clients interested in the topic. -/
abbrev Subscriptions (Client : Type) : Type :=
  List (String × List Client)

variable {Client : Type}

/-- The notification that each subscriber is sent. -/
def processTxUpdate (txUpdateSubscriptions : Subscriptions Client) (tx : DbTxBase String) :
    List (Client × RpcTxUpdateNotificationParams) :=
  match txUpdateSubscriptions.lookup tx.txId with
  | none => []
  | some subscribers =>
      let updateNotification : RpcTxUpdateNotificationParams :=
        { txId := tx.txId
          txStatus := getTxStatusString tx.status
          txType := getTxTypeString tx.typeId }
      subscribers.map fun client => (client, updateNotification)

/-- The transaction of a `txUpdate` event. -/
def txUpdateOf : DataStoreEvent → Option (DbTxBase String)
  | .txUpdate tx => some tx.toDbTxBase
  | .mempoolTxUpdate tx => some tx.toDbTxBase
  | _ => none

/-- What the listener on `txUpdate` sends. -/
def txNotifications (txUpdateSubscriptions : Subscriptions Client) (event : DataStoreEvent) :
    List (Client × RpcTxUpdateNotificationParams) :=
  match txUpdateOf event with
  | some tx => processTxUpdate txUpdateSubscriptions tx
  | none => []

theorem notification_of_mem {subscriptions : Subscriptions Client} {event : DataStoreEvent}
    {client : Client} {notification : RpcTxUpdateNotificationParams}
    (sent : (client, notification) ∈ txNotifications subscriptions event) :
    ∃ tx, txUpdateOf event = some tx ∧ notification.txId = tx.txId ∧
      notification.txStatus = getTxStatusString tx.status := by
  rw [txNotifications] at sent
  split at sent
  · next tx isUpdate =>
      refine ⟨tx, isUpdate, ?_⟩
      rw [processTxUpdate] at sent
      split at sent
      · cases sent
      · obtain ⟨subscriber, -, same⟩ := List.mem_map.mp sent
        cases same
        exact ⟨rfl, rfl⟩
  · cases sent

/-! ## Agreement -/

section Agrees

variable {CV : Type} (clarity : ClarityLibrary CV) (addresses : AddressLibrary)

/-- The transaction of the notification is found, and with its status. -/
def Agrees (db : Db) (notification : RpcTxUpdateNotificationParams) : Prop :=
  ∀ (Ty : Type) (abis : AbiLibrary Ty),
    getTxFromDataStore clarity addresses abis notification.txId db ≠ .ok none ∧
      ∀ reported, getTxFromDataStore clarity addresses abis notification.txId db =
        .ok (some reported) → reported.txStatus = notification.txStatus

variable {clarity addresses}

theorem agrees_of_found {db : Db} {notification : RpcTxUpdateNotificationParams}
    {status : DbTxStatus} (sent : notification.txStatus = getTxStatusString status)
    (stored : ∀ buffer, hexToBuffer notification.txId = .ok buffer →
      (∃ pending ∈ db.mempoolTxs, pending.txId = buffer) ∨ ∃ row ∈ db.txs, row.txId = buffer)
    (only : ∀ buffer found, hexToBuffer notification.txId = .ok buffer →
      FoundStatus db buffer found → found = status) :
    Agrees clarity addresses db notification := by
  intro Ty abis
  constructor
  · intro missing
    obtain ⟨buffer, decoded, notPending, notMined⟩ := getTxFromDataStore_none missing
    rcases stored buffer decoded with ⟨pending, mem, same⟩ | ⟨row, mem, same⟩
    · exact notPending pending mem same
    · exact notMined row mem same
  · intro reported ok
    obtain ⟨buffer, found, decoded, foundStatus, txStatus⟩ := getTxFromDataStore_ok ok
    rw [txStatus, sent, only buffer found decoded foundStatus]

end Agrees

/-! ## Blocks -/

/-- Transactions of the update with one id have one status. -/
def OneStatus (data : DataStoreUpdateData) : Prop :=
  ∀ first ∈ data.txs, ∀ second ∈ data.txs,
    hexToBuffer first.tx.txId = hexToBuffer second.tx.txId → first.tx.status = second.tx.status

/-- The block becomes the tip, and none of its coinbase transactions is pending. -/
structure TipUpdate (db : Db) (data : DataStoreUpdateData) : Prop where
  heightens : Heightens db data
  coinbases : CoinbasesNotPending db data
  oneStatus : OneStatus data

/-- The transaction is not pending, what is stored for its id has its status, and
its block is new or something is stored for its id. -/
structure OnlyStored (db : Db) (data : DataStoreUpdateData) (tx : DbTxBase String) : Prop where
  notPending : ∀ pending ∈ db.mempoolTxs, hexToBuffer tx.txId ≠ .ok pending.txId
  stored : ∀ row ∈ db.txs, hexToBuffer tx.txId = .ok row.txId → row.status = tx.status
  oneStatus : OneStatus data
  included : (∀ row ∈ db.blocks,
      hexToBuffer data.block.indexBlockHash ≠ .ok row.indexBlockHash) ∨
    ∃ row ∈ db.txs, hexToBuffer tx.txId = .ok row.txId

section Step

variable {db reorged pruned db' : Db} {flag : Buffer → Bool} {data : DataStoreUpdateData}
variable {row : DbBlock Buffer} {entry : TxEntry}

/-- A row of `txs` with the id of an entry is from before or has its status. -/
theorem status_of_mem_txs (accepted : Accepted db data reorged pruned row db')
    (oneStatus : OneStatus data) (entryMem : entry ∈ data.txs) {tx : DbTx Buffer}
    (mem : tx ∈ db'.txs) (sameId : hexToBuffer entry.tx.txId = .ok tx.txId) :
    (∃ original ∈ db.txs, withCanonical true original = withCanonical true tx) ∨
      tx.status = entry.tx.status := by
  rcases accepted.tx_cases mem with old | ⟨other, otherMem, recorded⟩
  · exact Or.inl old
  · right
    rw [recorded.status]
    apply oneStatus other otherMem entry entryMem
    rw [sameId, recorded.txId]

/-- When the block is new, each of its transactions is included in it. -/
theorem exists_row_of_entry (accepted : Accepted db data reorged pruned row db')
    (canonical : data.block.canonical = true) (carries : data.Carries)
    (fresh : ∀ stored ∈ pruned.blocks, stored.indexBlockHash ≠ row.indexBlockHash)
    (entryMem : entry ∈ data.txs) :
    ∃ tx ∈ db'.txs, hexToBuffer entry.tx.txId = .ok tx.txId ∧
      tx.indexBlockHash = row.indexBlockHash := by
  rcases accepted.store with ⟨⟨stored, storedMem, same⟩, -⟩ | ⟨-, rows, computed, rfl⟩
  · exact absurd same (fresh stored storedMem)
  · have settled : ∃ other ∈ (data.settled db).txs, other.tx.txId = entry.tx.txId := by
      rw [DataStoreUpdateData.settled]
      split
      · exact ⟨entry, entryMem, rfl⟩
      · exact ⟨entry.markNonCanonical, List.mem_map_of_mem entryMem, rfl⟩
    obtain ⟨other, otherMem, sameId⟩ := settled
    obtain ⟨entryRow, entryRowMem, ok⟩ := exists_of_mapM_ok computed otherMem
    obtain ⟨tx, mem, txId, hash⟩ := exists_inclusion
      { pruned with blocks := pruned.blocks ++ [row] } entryRowMem
    have decoded := txRow_ok (entryRows_ok ok).tx
    have inBlock := accepted.inBlockRows canonical carries computed entryRow entryRowMem .txs
      entryRow.tx (List.mem_singleton_self _)
    refine ⟨tx, mem, ?_, hash.trans inBlock.1⟩
    rw [← sameId, decoded.txId, txId]

section Agreement

variable {CV : Type} {clarity : ClarityLibrary CV} {addresses : AddressLibrary}
variable {notification : RpcTxUpdateNotificationParams}

/-- A higher block is not stored. -/
theorem not_stored_of_heightens (invariant : ChainInvariant db flag) (incoming : Incoming db data)
    (high : Heightens db data) :
    ∀ stored ∈ db.blocks, hexToBuffer data.block.indexBlockHash ≠ .ok stored.indexBlockHash := by
  intro stored mem decoded
  have sameHeight := incoming.identified stored mem decoded
  have linkMem : stored.link ∈ db.links := List.mem_map_of_mem mem
  have low : stored.blockHeight ≤ maxHeight db.links := height_le_maxHeight linkMem
  have higher := invariant.heightens_iff.mp high
  omega

/-- The rows that a new tip brings are canonical and at its height. -/
theorem precedence_of_tip (invariant : StoreInvariant db flag) (incoming : Incoming db data)
    (attributed : data.Attributed) (accepted : Accepted db data reorged pruned row db')
    (high : Heightens db data) {tx : DbTx Buffer} (mem : tx ∈ db'.txs)
    (sameHash : tx.indexBlockHash = row.indexBlockHash) :
    precedence tx = toLex (true, data.block.blockHeight) := by
  rcases accepted.mem_reorged_or_entry .txs mem with old | ⟨other, otherMem, rows, decoded, new⟩
  · -- rows from before belong to stored blocks
    obtain ⟨counts, handled⟩ := accepted.reorg
    obtain ⟨original, originalMem, sameKey⟩ :=
      exists_key_of_raised_eq ((handleReorg_remarked handled).rows .txs) old
    obtain ⟨b, bMem, bHash⟩ := invariant.rows.attached .txs original originalMem
    obtain ⟨stored, storedMem, rfl⟩ := Db.mem_links.mp bMem
    have storedHash : stored.indexBlockHash = row.indexBlockHash :=
      (bHash.trans sameKey).trans sameHash
    refine absurd ?_ (not_stored_of_heightens invariant.chain incoming high stored storedMem)
    rw [storedHash]
    exact (accepted.decodedBlock incoming.canonical).1
  · obtain rfl : tx = rows.tx := List.mem_singleton.mp new
    rw [DataStoreUpdateData.settled, if_pos high] at otherMem
    have columns := (txRow_ok decoded.tx).columns
    have rowCanonical : rows.tx.canonical = other.tx.canonical :=
      congrArg (fun tx => tx.canonical) columns
    have rowHeight : rows.tx.blockHeight = other.tx.blockHeight :=
      congrArg (fun tx => tx.blockHeight) columns
    rw [precedence, rowCanonical, rowHeight, (attributed.carries other otherMem).tx,
      attributed.blockHeight other otherMem]

/-- The transactions of a new tip are reported as it announces them. -/
theorem agrees_of_tipUpdate (invariant : StoreInvariant db flag) (incoming : Incoming db data)
    (attributed : data.Attributed) (accepted : Accepted db data reorged pruned row db')
    (tip : TipUpdate db data) (entryMem : entry ∈ data.txs)
    (sameId : notification.txId = entry.tx.txId)
    (sent : notification.txStatus = getTxStatusString entry.tx.status) :
    Agrees clarity addresses db' notification := by
  have notStored := not_stored_of_heightens invariant.chain incoming tip.heightens
  obtain ⟨tx, mem, decoded, sameHash⟩ := exists_row_of_entry accepted incoming.canonical
    attributed.carries (accepted.fresh_pruned incoming.canonical notStored) entryMem
  have top : precedence tx = toLex (true, data.block.blockHeight) :=
    precedence_of_tip invariant incoming attributed accepted tip.heightens mem sameHash
  apply agrees_of_found sent
  · intro buffer same
    rw [sameId, decoded] at same
    exact Or.inr ⟨tx, mem, Except.ok.inj same⟩
  · intro buffer found same foundStatus
    rw [sameId] at same
    rcases foundStatus with ⟨pending, pendingMem, pendingId, -⟩ | ⟨-, preferred, preferredTx, rfl⟩
    · -- nothing with the id is left in the mempool
      exfalso
      by_cases isCoinbase : entry.tx.typeId = .coinbase
      · apply tip.coinbases tip.heightens entry entryMem isCoinbase pending
          (accepted.pending_of_mem pendingMem).2
        rw [pendingId]
        exact same
      · exact accepted.not_pending tip.heightens entryMem isCoinbase same pending pendingMem
          pendingId
    · have sameTxId : tx.txId = buffer := Except.ok.inj (decoded.symm.trans same)
      have above := preferredTx.first tx mem sameTxId
      rw [top] at above
      rcases status_of_mem_txs accepted tip.oneStatus entryMem preferredTx.mem
        (preferredTx.txId ▸ same) with ⟨original, originalMem, sameRow⟩ | sameStatus
      · -- all rows from before are lower
        exfalso
        have height : original.blockHeight = preferred.blockHeight :=
          congrArg (fun tx => tx.blockHeight) sameRow
        have low := invariant.heights original originalMem
        have high := invariant.chain.heightens_iff.mp tip.heightens
        rcases (Prod.Lex.toLex_le_toLex.mp above) with lower | ⟨-, lower⟩
        · exact absurd lower (not_lt.mpr (Bool.le_true preferred.canonical))
        · dsimp only at lower
          omega
      · exact sameStatus

/-- A transaction for whose id nothing else is stored is reported as announced. -/
theorem agrees_of_onlyStored (canonical : data.block.canonical = true) (carries : data.Carries)
    (accepted : Accepted db data reorged pruned row db') (entryMem : entry ∈ data.txs)
    (only : OnlyStored db data entry.tx.toDbTxBase)
    (sameId : notification.txId = entry.tx.txId)
    (sent : notification.txStatus = getTxStatusString entry.tx.status) :
    Agrees clarity addresses db' notification := by
  apply agrees_of_found sent
  · intro buffer same
    rw [sameId] at same
    right
    rcases only.included with notStored | ⟨stored, storedMem, storedId⟩
    · obtain ⟨tx, mem, decoded, -⟩ := exists_row_of_entry accepted canonical carries
        (accepted.fresh_pruned canonical notStored) entryMem
      exact ⟨tx, mem, Except.ok.inj (decoded.symm.trans same)⟩
    · obtain ⟨tx, mem, sameRow⟩ := accepted.exists_tx storedMem
      have txId : tx.txId = stored.txId := congrArg (fun tx => tx.txId) sameRow
      exact ⟨tx, mem, txId.trans (Except.ok.inj (storedId.symm.trans same))⟩
  · intro buffer found same foundStatus
    rw [sameId] at same
    rcases foundStatus with ⟨pending, pendingMem, pendingId, -⟩ | ⟨-, preferred, preferredTx, rfl⟩
    · refine absurd ?_ (only.notPending pending (accepted.pending_of_mem pendingMem).2)
      rw [pendingId]
      exact same
    · rcases status_of_mem_txs accepted only.oneStatus entryMem preferredTx.mem
        (preferredTx.txId ▸ same) with ⟨original, originalMem, sameRow⟩ | sameStatus
      · have txId : original.txId = preferred.txId := congrArg (fun tx => tx.txId) sameRow
        have status : original.status = preferred.status := congrArg (fun tx => tx.status) sameRow
        rw [← status]
        apply only.stored original originalMem
        rw [txId, preferredTx.txId]
        exact same
      · exact sameStatus

end Agreement

end Step

/-! ## Runs -/

/-- What is asked of an announced transaction. -/
def Settles (db : Db) : StoreCall → DbTxBase String → Prop
  | .update data, tx => TipUpdate db data ∨ OnlyStored db data tx
  | .updateMempoolTx _, _ => True

/-- The transaction of an event of an update is that of an entry. -/
theorem exists_entry_of_txUpdateOf {db : Db} {data : DataStoreUpdateData} {event : DataStoreEvent}
    {tx : DbTxBase String} (emitted : event ∈ updateEvents (data.settled db))
    (isUpdate : txUpdateOf event = some tx) : ∃ entry ∈ data.txs, entry.tx.toDbTxBase = tx := by
  simp only [updateEvents, emitAddressTxUpdates, List.mem_append, List.mem_map,
    List.mem_singleton] at emitted
  rcases emitted with (rfl | ⟨entry, mem, rfl⟩) | ⟨update, -, rfl⟩
  · cases isUpdate
  · cases isUpdate
    obtain ⟨original, originalMem, same⟩ := exists_of_mem_settled mem
    exact ⟨original, originalMem, (congrArg DbTx.toDbTxBase same).symm⟩
  · cases isUpdate

theorem agrees_of_insert {CV : Type} {clarity : ClarityLibrary CV} {addresses : AddressLibrary}
    {db db' : Db} {mempoolTx : DbMempoolTx String} {events : List DataStoreEvent}
    {event : DataStoreEvent} {tx : DbTxBase String} {notification : RpcTxUpdateNotificationParams}
    (accepted : updateMempoolTx db mempoolTx = .ok (db', events)) (emitted : event ∈ events)
    (isUpdate : txUpdateOf event = some tx) (sameId : notification.txId = tx.txId)
    (sent : notification.txStatus = getTxStatusString tx.status) :
    Agrees clarity addresses db' notification := by
  obtain ⟨row, decoded, ⟨-, -, rfl⟩ | ⟨fresh, rfl, rfl⟩⟩ := updateMempoolTx_ok accepted
  · cases emitted
  · obtain rfl := List.mem_singleton.mp emitted
    cases isUpdate
    have decodedRow := mempoolTxRow_ok decoded
    have rowStatus : row.status = mempoolTx.status :=
      congrArg (fun row => row.status) decodedRow.columns
    have inserted : row ∈ db.mempoolTxs ++ [row] :=
      List.mem_append_right _ (List.mem_singleton_self row)
    apply agrees_of_found sent
    · intro buffer same
      rw [sameId, decodedRow.txId] at same
      exact Or.inl ⟨row, inserted, Except.ok.inj same⟩
    · intro buffer found same foundStatus
      rw [sameId, decodedRow.txId] at same
      have rowId : row.txId = buffer := Except.ok.inj same
      rcases foundStatus with ⟨pending, pendingMem, pendingId, rfl⟩ | ⟨absent, -⟩
      · rcases List.mem_append.mp pendingMem with old | new
        · exact absurd (pendingId.trans rowId.symm) (fresh pending old)
        · rw [List.mem_singleton.mp new, rowStatus]
      · exact absurd rowId (absent row inserted)

/-- After any run, an accepted call notifies subscribers of the status that the
store reports after it, of every settled transaction. -/
theorem performCall_agrees {CV : Type} {clarity : ClarityLibrary CV} {addresses : AddressLibrary}
    {calls : List StoreCall} {call : StoreCall} (regular : RegularCalls (calls ++ [call]))
    {db' : Db} {events : List DataStoreEvent}
    (accepted : performCall (runStore calls) call = .ok (db', events))
    {event : DataStoreEvent} (emitted : event ∈ events)
    {tx : DbTxBase String} (isUpdate : txUpdateOf event = some tx)
    (settles : Settles (runStore calls) call tx) (subscriptions : Subscriptions Client)
    {client : Client} {notification : RpcTxUpdateNotificationParams}
    (sent : (client, notification) ∈ txNotifications subscriptions event) :
    Agrees clarity addresses db' notification := by
  obtain ⟨tx', isUpdate', sameId, status⟩ := notification_of_mem sent
  obtain rfl : tx = tx' := Option.some.inj (isUpdate.symm.trans isUpdate')
  cases call with
  | updateMempoolTx mempoolTx => exact agrees_of_insert accepted emitted isUpdate sameId status
  | update data =>
      obtain ⟨flag, invariant, linksFrom⟩ :=
        runStore_invariant (regular.of_prefix (List.prefix_append calls _))
      have updates : updatesOf (calls ++ [.update data]) = updatesOf calls ++ [data] :=
        updatesOf_append calls [.update data]
      have consistent := regular.consistent
      rw [updates] at consistent
      have incoming := incoming_of_consistent consistent linksFrom
      have attributed : data.Attributed := by
        apply regular.attributed
        rw [updates]
        exact List.mem_append_right _ (List.mem_singleton_self _)
      obtain ⟨rfl, reorged, pruned, row, accepted⟩ := update_ok accepted
      obtain ⟨entry, entryMem, rfl⟩ := exists_entry_of_txUpdateOf emitted isUpdate
      rcases settles with tip | only
      · exact agrees_of_tipUpdate invariant incoming attributed accepted tip entryMem sameId status
      · exact agrees_of_onlyStored incoming.canonical attributed.carries accepted entryMem only
          sameId status

/-! ## A transfer -/

/-- The columns of a transfer. -/
def transferColumns (status : DbTxStatus) : DbTxBase String where
  txId := "0x0a"
  rawTx := []
  typeId := .tokenTransfer
  status := status
  postConditions := [0x01, 0, 0, 0, 0]
  feeRate := 180
  senderAddress := "ST1"
  originHashMode := 0
  sponsored := false
  sponsorAddress := none
  tokenTransferRecipientAddress := some "ST2"
  tokenTransferAmount := some 1000
  tokenTransferMemo := some []

/-- The transfer in a block. -/
def transferTx (indexBlockHash : String) (blockHeight : Nat) : DbTx String :=
  { toDbTxBase := transferColumns .success
    indexBlockHash
    blockHash := indexBlockHash
    blockHeight
    burnBlockTime := 1594647996
    txIndex := 0
    rawResult := some ""
    canonical := true }

/-- A block with the transfer, which succeeded. -/
def transferBlock (indexBlockHash parentIndexBlockHash : String) (blockHeight : Nat) :
    DataStoreUpdateData :=
  { emptyBlock indexBlockHash parentIndexBlockHash blockHeight with
    txs := [{
      tx := transferTx indexBlockHash blockHeight
      stxEvents := []
      ftEvents := []
      nftEvents := []
      contractLogEvents := []
      smartContracts := [] }] }

theorem transferBlock_attributed (indexBlockHash parentIndexBlockHash : String)
    (blockHeight : Nat) :
    (transferBlock indexBlockHash parentIndexBlockHash blockHeight).Attributed where
  carries entry mem := by
    rw [List.mem_singleton.mp mem]
    constructor
    · rfl
    · rfl
    all_goals rintro _ ⟨⟩
  blockHeight entry mem := by
    rw [List.mem_singleton.mp mem]
    rfl

theorem emptyBlock_attributed (indexBlockHash parentIndexBlockHash : String)
    (blockHeight : Nat) :
    (emptyBlock indexBlockHash parentIndexBlockHash blockHeight).Attributed where
  carries := by rintro entry ⟨⟩
  blockHeight := by rintro entry ⟨⟩

/-- The transfer arrives in the mempool. -/
def insertTransfer : StoreCall :=
  .updateMempoolTx { toDbTxBase := transferColumns .pending, receiptTime := 1594647995 }

/-- What a subscriber is told about the transfer in a block. -/
def transferNotification : RpcTxUpdateNotificationParams where
  txId := "0x0a"
  txStatus := "success"
  txType := "token_transfer"

/-- The pending transfer is mined. -/
theorem performCall_minedTransfer :
    ∃ db' events,
      performCall (runStore [insertTransfer]) (.update (transferBlock "0x11" "0x00" 1)) =
        .ok (db', events) ∧
      Agrees ClarityLibrary.booleans AddressLibrary.zeroHash db' transferNotification := by
  have ran : (performCall (runStore [insertTransfer])
      (.update (transferBlock "0x11" "0x00" 1))).map (fun outcome => outcome.2[1]?) =
        .ok (some (.txUpdate (transferTx "0x11" 1))) := by
    decide +kernel
  obtain ⟨⟨db', events⟩, accepted, second⟩ := Except.map_eq_ok.mp ran
  refine ⟨db', events, accepted, ?_⟩
  have regular : RegularCalls ([insertTransfer] ++ [.update (transferBlock "0x11" "0x00" 1)]) :=
    { consistent := consistent_of_checked (by decide) (by decide)
      attributed := by
        intro data mem
        rw [List.mem_singleton.mp mem]
        exact transferBlock_attributed _ _ _ }
  refine performCall_agrees regular accepted (List.mem_of_getElem? second) rfl (Or.inl ?_)
    [("0x0a", ["client"])] (List.mem_singleton_self ("client", _))
  constructor
  · decide +kernel
  · intro _ entry mem isCoinbase
    rw [List.mem_singleton.mp mem] at isCoinbase
    cases isCoinbase
  · intro first firstMem second secondMem _
    rw [List.mem_singleton.mp firstMem, List.mem_singleton.mp secondMem]

/-- The transfer is pending, and two blocks are stored. -/
def pendingTransferCalls : List StoreCall :=
  [insertTransfer, .update (emptyBlock "0x11" "0x00" 1), .update (emptyBlock "0x21" "0x11" 2)]

/-- A fork block with the pending transfer is announced as its success. -/
theorem performCall_forkedTransfer :
    RegularCalls (pendingTransferCalls ++ [.update (transferBlock "0x22" "0x11" 2)]) ∧
      ∃ db' events, performCall (runStore pendingTransferCalls)
          (.update (transferBlock "0x22" "0x11" 2)) = .ok (db', events) ∧
        (∃ event ∈ events,
          ("client", transferNotification) ∈ txNotifications [("0x0a", ["client"])] event) ∧
        ¬Agrees ClarityLibrary.booleans AddressLibrary.zeroHash db' transferNotification := by
  constructor
  · constructor
    · exact consistent_of_checked (by decide) (by decide)
    · have each : ∀ data ∈ [emptyBlock "0x11" "0x00" 1, emptyBlock "0x21" "0x11" 2,
          transferBlock "0x22" "0x11" 2], data.Attributed := by
        simp only [List.forall_mem_cons]
        exact ⟨emptyBlock_attributed _ _ _, emptyBlock_attributed _ _ _,
          transferBlock_attributed _ _ _, List.forall_mem_nil _⟩
      exact each
  · have ran : (performCall (runStore pendingTransferCalls)
        (.update (transferBlock "0x22" "0x11" 2))).map (fun outcome =>
          (outcome.2.flatMap (txNotifications [("0x0a", ["client"])]),
            (getTxFromDataStore ClarityLibrary.booleans AddressLibrary.zeroHash AbiLibrary.null
              "0x0a" outcome.1).map (Option.map Transaction.txStatus))) =
          .ok ([("client", transferNotification)], .ok (some "pending")) := by
      decide +kernel
    obtain ⟨⟨db', events⟩, accepted, outcome⟩ := Except.map_eq_ok.mp ran
    obtain ⟨sent, reported⟩ := Prod.mk.inj outcome
    refine ⟨db', events, accepted, ?_, ?_⟩
    · have notified : ("client", transferNotification) ∈
          events.flatMap (txNotifications [("0x0a", ["client"])]) := by
        rw [show events.flatMap (txNotifications [("0x0a", ["client"])]) = _ from sent]
        exact List.mem_singleton_self _
      exact List.mem_flatMap.mp notified
    · intro agrees
      obtain ⟨found, foundOk, status⟩ := Except.map_eq_ok.mp reported
      obtain ⟨tx, rfl, pending⟩ := Option.map_eq_some_iff.mp status
      have success := (agrees Unit AbiLibrary.null).2 tx foundOk
      rw [pending] at success
      exact absurd success (by decide)

end StacksApi.Routes
