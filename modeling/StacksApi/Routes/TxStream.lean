import StacksApi.Datastore.Acknowledged
import StacksApi.Routes.Links

/-!
# Announced transactions are found

The store emits an event when its call has been committed, and clients hear of it in a
notification of the websocket or in the stream of `GET /tx/stream`.  Whatever commits in
between, the transaction that they hear of is found when they ask for it.
-/

namespace StacksApi.Routes

open StacksApi.Binary
open StacksApi.Datastore
open StacksApi.Controllers
open StacksApi.Transition
open Reading

/-- The transaction that `GET /tx/stream` writes for an event; errors are only logged. -/
def dbTxUpdate {CV Ty : Type} (clarity : ClarityLibrary CV) (addresses : AddressLibrary)
    (abis : AbiLibrary Ty) (txId : String) : QueryM Transaction := do
  match ← Stepwise.getTxFromDataStore clarity addresses abis txId with
  | some result => return result
  | none => (Except.error (.failure "error in tx stream, tx not found") : Except ApiError _)

/-- The transaction that a notification names. -/
def RpcNotification.txId? : RpcNotification → Option String
  | .txUpdate params => some params.txId
  | .addressTxUpdate params => some params.txId
  | .addressBalanceUpdate _ => none

section Announced

variable {calls : List StoreCall} {start last : Moment calls}
variable {CV Ty : Type} {clarity : ClarityLibrary CV} {addresses : AddressLibrary}
variable {abis : AbiLibrary Ty}

theorem dbTxUpdate_of_known (consistent : Consistent (updatesOf calls)) {txId : String}
    {buffer : Buffer} (decoded : hexToBuffer txId = .ok buffer) (known : TxKnown start.db buffer)
    {outcome : Except ApiError Transaction}
    (ends : Ends Moment.Sees start (dbTxUpdate clarity addresses abis txId) last outcome) :
    (∃ shown, outcome = .ok shown ∧ shown.txId = bufferToHexPrefixString buffer) ∨
      ∃ error, outcome = .error error ∧ Ends Moment.Sees start
        (Stepwise.getTxFromDataStore clarity addresses abis txId) last (.error error) := by
  rcases ends_bind_iff.mp ends with ⟨error, rfl, failed⟩ | ⟨found, middle, looked, ends⟩
  · exact Or.inr ⟨error, rfl, failed⟩
  · cases found with
    | none =>
        obtain ⟨_, decoded', unknown⟩ := getTxFromDataStore_missed consistent looked
        cases decoded.symm.trans decoded'
        exact absurd known unknown
    | some shown =>
        obtain ⟨_, decoded', same⟩ := txId_of_getTxFromDataStore looked
        cases decoded.symm.trans decoded'
        obtain ⟨-, rfl⟩ := ends_pure_iff.mp ends
        exact Or.inl ⟨shown, rfl, same⟩

/-- A notification names a transaction that its event reports. -/
theorem idKnown_of_notification {Client : Type} {db : Db} {event : DataStoreEvent}
    {server : WsServer Client} {client : Client} {notification : RpcNotification} {txId : String}
    (reported : Reported db event)
    (sent : (client, notification) ∈ (handleDataStoreEvent event server).2)
    (names : notification.txId? = some txId) : IdKnown db txId := by
  have single : ∀ {event : DataStoreEvent}, Reported db event →
      (client, notification) ∈ (txNotifications server.txUpdateSubscriptions.subscriptions.entries
        event).map (fun sent => (sent.1, RpcNotification.txUpdate sent.2)) → IdKnown db txId := by
    intro event reported sent
    obtain ⟨⟨subscriber, params⟩, mem, same⟩ := List.mem_map.mp sent
    cases same
    cases names
    obtain ⟨tx, isUpdate, sameId, -⟩ := notification_of_mem mem
    rw [sameId]
    cases event with
    | txUpdate tx =>
        cases isUpdate
        exact reported
    | mempoolTxUpdate tx =>
        cases isUpdate
        exact reported
    | _ => cases isUpdate
  cases event with
  | addressUpdate info =>
      change (client, notification) ∈ processAddressUpdate server info at sent
      rw [processAddressUpdate] at sent
      split at sent
      · cases sent
      · obtain ⟨tx, mem, sent⟩ := List.mem_flatMap.mp sent
        obtain ⟨subscriber, -, same⟩ := List.mem_map.mp sent
        cases same
        cases names
        exact reported tx mem
  | _ => exact single reported sent

/-- A transaction that a notification or an event names is found by whoever asks for it after
the call that has emitted the event, or cannot be shown. -/
theorem announced_found {Client : Type} (consistent : Consistent (updatesOf calls))
    (same : SameContents (updatesOf calls)) {past : List StoreCall} {call : StoreCall}
    (isPrefix : past ++ [call] <+: calls) {db' : Db} {events : List DataStoreEvent}
    (ok : performCall (runStore past) call = .ok (db', events)) {event : DataStoreEvent}
    (emitted : event ∈ events) (after : past ++ [call] <+: start.past) :
    (∀ (server : WsServer Client) (client : Client) (notification : RpcNotification)
      (txId : String), (client, notification) ∈ (handleDataStoreEvent event server).2 →
      notification.txId? = some txId → ∀ last outcome,
        Ends Moment.Sees start (getTransaction clarity addresses abis txId) last outcome →
          (∃ shown, outcome = .ok (.ok shown) ∧
            hexToBuffer txId = hexToBuffer shown.txId) ∨
          ∃ error, outcome = .error error ∧ Ends Moment.Sees start
            (Stepwise.getTxFromDataStore clarity addresses abis txId) last (.error error)) ∧
    ∀ tx, txUpdateOf event = some tx → ∀ last outcome,
      Ends Moment.Sees start (dbTxUpdate clarity addresses abis tx.txId) last outcome →
        (∃ shown, outcome = .ok shown ∧ hexToBuffer tx.txId = hexToBuffer shown.txId) ∨
        ∃ error, outcome = .error error ∧ Ends Moment.Sees start
          (Stepwise.getTxFromDataStore clarity addresses abis tx.txId) last (.error error) := by
  have subset := Moment.updatesOf_subset ⟨past ++ [call], isPrefix⟩
  have reported := reported_of_accepted (consistent.of_subset subset)
    (fun first firstMem second secondMem => same first (subset firstMem) second (subset secondMem))
    ok event emitted
  have outlasts : Outlasts (runStore (past ++ [call])) start.db :=
    @Moment.outlasts calls consistent ⟨past ++ [call], isPrefix⟩ start after
  constructor
  · intro server client notification txId sent names last outcome ends
    obtain ⟨buffer, decoded, known⟩ :=
      (idKnown_of_notification reported sent names).mono outlasts
    refine (getTransaction_of_known consistent decoded known ends).imp_left ?_
    rintro ⟨shown, rfl, sameId⟩
    exact ⟨shown, rfl, by rw [decoded, sameId, hexToBuffer_bufferToHexPrefixString]⟩
  · intro tx isUpdate last outcome ends
    have known : IdKnown (runStore (past ++ [call])) tx.txId := by
      cases event with
      | txUpdate tx =>
          cases isUpdate
          exact reported
      | mempoolTxUpdate tx =>
          cases isUpdate
          exact reported
      | _ => cases isUpdate
    obtain ⟨buffer, decoded, known⟩ := known.mono outlasts
    refine (dbTxUpdate_of_known consistent decoded known ends).imp_left ?_
    rintro ⟨shown, rfl, sameId⟩
    exact ⟨shown, rfl, by rw [decoded, sameId, hexToBuffer_bufferToHexPrefixString]⟩

theorem orphaningCalls_sameContents : SameContents (updatesOf orphaningCalls) := by
  have checked : ∀ first ∈ updatesOf orphaningCalls, ∀ second ∈ updatesOf orphaningCalls,
      hexToBuffer first.block.indexBlockHash = hexToBuffer second.block.indexBlockHash →
        first.block.blockHash = second.block.blockHash ∧
          first.txs.map (fun entry => entry.tx.txId) =
            second.txs.map fun entry => entry.tx.txId := by
    decide
  intro first firstMem second secondMem hash decoded decoded'
  exact checked first firstMem second secondMem (decoded.trans decoded'.symm)

/-- The transfer is announced while it is canonical, and written when it is not any more. -/
theorem announced_found_orphaned :
    ∃ shown, (dbTxUpdate ClarityLibrary.booleans AddressLibrary.zeroHash AbiLibrary.null
        "0x0a").alone (orphaningMoment 3).db = .ok shown ∧
      hexToBuffer "0x0a" = hexToBuffer shown.txId := by
  have shows : ((dbTxUpdate ClarityLibrary.booleans AddressLibrary.zeroHash AbiLibrary.null
      "0x0a").alone (orphaningMoment 3).db).isOk = true := by
    decide +kernel
  have accepted : Succeeds (performCall (runStore []) (.update (transferBlock "0x11" "0x00" 1))) :=
    ⟨_, rfl⟩
  obtain ⟨⟨db', events⟩, ok⟩ := accepted
  obtain ⟨emitted, -⟩ := update_ok ok
  have found := (@announced_found _ (orphaningMoment 3) _ _ ClarityLibrary.booleans
    AddressLibrary.zeroHash AbiLibrary.null String orphaningCalls_regular.consistent
    orphaningCalls_sameContents [] (.update (transferBlock "0x11" "0x00" 1)) ⟨_, rfl⟩ db' events ok
    (.txUpdate (transferTx "0x11" 1)) (by rw [emitted]; decide) ⟨_, rfl⟩).2 _ rfl
    (orphaningMoment 3) _ (ends_alone (Moment.sees_self _) _)
  rcases found with found | ⟨error, failed, -⟩
  · exact found
  · have failed : (dbTxUpdate ClarityLibrary.booleans AddressLibrary.zeroHash AbiLibrary.null
        "0x0a").alone (orphaningMoment 3).db = .error error := failed
    rw [failed] at shows
    cases shows

end Announced

end StacksApi.Routes
