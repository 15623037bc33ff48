import StacksApi.Client.Protocol

/-!
# Every update calls back once

Notifications are counted from the update to the callbacks: for a subscription and
an update of its window, the calls of its callback and the notifications that are
still on the way are one together.
-/

namespace StacksApi.Client

open StacksApi.Datastore
open StacksApi.Collections
open StacksApi.Controllers
open StacksApi.Routes
open StacksApi.Transition

variable {Peer : Type} [DecidableEq Peer] {addresses : AddressLibrary} {peer : Peer}

/-! ## The server keeps its sets and its queue -/

section Server

variable {server : WsServer Peer} {topic : String} {set : Nat}

/-- The set of the subscribers to the balance of an address. -/
def balanceSet (server : WsServer Peer) (topic : String) : Option Nat :=
  (server.manager .addressBalanceUpdate).subscriptions.find topic

@[simp]
theorem queue_perform (operation : Peer × Operation) :
    (server.perform operation).addrBalanceProcessorQueue = server.addrBalanceProcessorQueue :=
  WsServer.queue_setManager _

theorem queue_performs (operations : List (Peer × Operation)) :
    (operations.foldl WsServer.perform server).addrBalanceProcessorQueue =
      server.addrBalanceProcessorQueue := by
  induction operations generalizing server with
  | nil => rfl
  | cons operation operations ih => rw [List.foldl_cons, ih, queue_perform]

/-- A set stays as long as the client is in it. -/
theorem balanceSet_perform {operation : Peer × Operation}
    (found : balanceSet server topic = some set)
    (member : peer ∈ (server.perform operation).subscribers .addressBalanceUpdate topic) :
    balanceSet (server.perform operation) topic = some set := by
  unfold balanceSet WsServer.perform at *
  rw [WsServer.subscribers] at member
  by_cases sameKind : operation.2.kind = .addressBalanceUpdate
  · rw [sameKind, WsServer.manager_setManager_self] at member ⊢
    cases subscribe : operation.2.subscribe with
    | true => exact SetMap.find_insert found
    | false =>
        rw [subscribe] at member
        exact SetMap.find_erase found member
  · rw [WsServer.manager_setManager_of_ne (Ne.symm sameKind)]
    exact found

theorem balanceSet_performs {operations : List (Peer × Operation)}
    (found : balanceSet server topic = some set)
    (member : peer ∈ server.subscribers .addressBalanceUpdate topic)
    (others : ∀ operation ∈ operations, operation.1 ≠ peer) :
    balanceSet (operations.foldl WsServer.perform server) topic = some set := by
  induction operations generalizing server with
  | nil => exact found
  | cons operation operations ih =>
      rw [List.foldl_cons]
      have kept : peer ∈ (server.perform operation).subscribers .addressBalanceUpdate topic := by
        rw [mem_subscribers_perform, if_neg (fun own => others operation List.mem_cons_self own.1)]
        exact member
      exact ih (balanceSet_perform found kept) kept fun later mem =>
        others later (List.mem_cons_of_mem _ mem)

theorem find_removeSubscriptions {manager : SubscriptionManager Peer} {client : Peer}
    {listeners : List (Peer × String)} (found : manager.subscriptions.find topic = some set)
    (member : peer ∈ manager.subscriptions.members topic) (differs : client ≠ peer) :
    (listeners.foldl (fun manager listener =>
      manager.removeSubscription client listener.2) manager).subscriptions.find topic =
        some set := by
  induction listeners generalizing manager with
  | nil => exact found
  | cons listener listeners ih =>
      rw [List.foldl_cons]
      have kept : peer ∈ (manager.removeSubscription client
          listener.2).subscriptions.members topic :=
        SetMap.mem_members_erase.mpr ⟨member, fun own => differs own.2.symm⟩
      exact ih (SetMap.find_erase found kept) kept

/-- Other clients change neither the queue nor the sets that the client is in. -/
theorem queue_other {event : WsEvent Peer} (other : IsOther peer event) :
    (serverStep addresses server event).addrBalanceProcessorQueue =
      server.addrBalanceProcessorQueue := by
  cases event with
  | message client data =>
      rw [serverStep, handleClientMessage_server]
      exact queue_performs _
  | close client => rfl
  | dataStore event => cases other
  | balance balance => cases other

theorem balanceSet_other {event : WsEvent Peer} (other : IsOther peer event)
    (found : balanceSet server topic = some set)
    (member : peer ∈ server.subscribers .addressBalanceUpdate topic) :
    balanceSet (serverStep addresses server event) topic = some set := by
  cases event with
  | message client data =>
      rw [serverStep, handleClientMessage_server]
      apply balanceSet_performs found member
      intro operation mem
      obtain ⟨asked, -, rfl⟩ := List.mem_map.mp mem
      exact other
  | close client => exact find_removeSubscriptions found member other
  | dataStore event => cases other
  | balance balance => cases other

end Server

/-! ## What an event sends -/

/-- The message notifies of the update with this number. -/
def SocketMessage.isNotificationOf (update : Nat) : SocketMessage → Bool
  | .response _ => false
  | .notification number _ => number = update

/-- How often a notification of an update, or its job, is on the way. -/
def System.way (state : System Peer) (update : Nat) : Nat :=
  state.socket.countP (SocketMessage.isNotificationOf update) + state.jobs.count update

theorem countP_numbered {sent : List (Peer × RpcNotification)} {first update : Nat} :
    (numbered peer sent first).countP (SocketMessage.isNotificationOf update) =
      if first ≤ update ∧ update < first + (sent.filter fun message => message.1 = peer).length
        then 1 else 0 := by
  unfold numbered
  induction sent.filter (fun message => message.1 = peer) generalizing first with
  | nil => simp
  | cons message sent ih =>
      rw [List.zipIdx_cons, List.map_cons, List.countP_cons, ih, List.length_cons]
      by_cases same : first = update
      · simp [SocketMessage.isNotificationOf, same]
      · simp only [SocketMessage.isNotificationOf, same, decide_false, Bool.false_eq_true,
          if_false, Nat.add_zero]
        apply if_congr _ rfl rfl
        omega

theorem mem_numbered {sent : List (Peer × RpcNotification)} {first update : Nat}
    {notification : RpcNotification}
    (mem : .notification update notification ∈ numbered peer sent first) :
    first ≤ update ∧ (sent.filter fun message => message.1 = peer)[update - first]? =
      some (peer, notification) := by
  obtain ⟨entry, entryMem, same⟩ := List.mem_map.mp mem
  cases same
  obtain ⟨low, found⟩ := List.mem_zipIdx_iff_le_and_getElem?_sub.mp entryMem
  refine ⟨low, found.trans ?_⟩
  have own := of_decide_eq_true (List.mem_filter.mp (List.mem_of_getElem? found)).2
  rw [← own]

section Announce

variable {server : WsServer Peer} {event : DataStoreEvent} {state : System Peer}

/-- What the client is sent for an address: one notification for each transaction. -/
theorem filter_processAddressUpdate (info : AddressTxUpdateInfo) :
    (processAddressUpdate server info).filter (fun message => message.1 = peer) =
      if peer ∈ server.subscribers .addressTxUpdate info.address then
        info.txs.map fun tx => (peer, .addressTxUpdate
          { address := info.address
            txId := tx.txId
            txStatus := getTxStatusString tx.status
            txType := getTxTypeString tx.typeId })
      else [] := by
  unfold processAddressUpdate
  cases found : server.addressTxUpdateSubscriptions.subscriptions.get info.address with
  | none => simp [WsServer.subscribers, WsServer.manager, SetMap.members, found]
  | some clients =>
      have members : server.subscribers .addressTxUpdate info.address = clients := by
        rw [WsServer.subscribers, WsServer.manager, SetMap.members, found]
        rfl
      dsimp only
      rw [members, List.filter_flatMap]
      simp only [filter_map_of_nodup (SetMap.get_ne_nil found).2]
      split
      · exact List.map_eq_flatMap.symm
      · induction info.txs with
        | nil => rfl
        | cons tx txs ih => exact ih

/-- The jobs that an event adds to the queue. -/
def addedJobs (server : WsServer Peer) : DataStoreEvent → List BalanceJob
  | .addressUpdate info =>
      ((balanceSet server info.address).map fun subscribers =>
        ({ address := info.address, subscribers } : BalanceJob)).toList
  | _ => []

omit [DecidableEq Peer] in
theorem queue_handleDataStoreEvent :
    (handleDataStoreEvent event server).1.addrBalanceProcessorQueue =
      server.addrBalanceProcessorQueue ++ addedJobs server event := by
  cases event with
  | addressUpdate info =>
      show (processAddressBalanceUpdate server info).addrBalanceProcessorQueue = _
      dsimp only [addedJobs, balanceSet, WsServer.manager]
      unfold processAddressBalanceUpdate
      cases server.addressBalanceUpdateSubscriptions.subscriptions.find info.address with
      | none => simp
      | some subscribers => simp
  | _ => exact (List.append_nil _).symm

/-- What the client is sent at once. -/
def sentTo (peer : Peer) (event : DataStoreEvent) (server : WsServer Peer) :
    List (Peer × RpcNotification) :=
  (handleDataStoreEvent event server).2.filter fun message => message.1 = peer

/-- A notification is of the update with its number. -/
theorem topic_of_sentTo {index : Nat} {notification : RpcNotification}
    (sent : (sentTo peer event server)[index]? = some (peer, notification)) :
    (updatesOf event)[index]? = some (notificationTopic notification) := by
  have single : ∀ tx : DbTxBase String, txUpdateOf event = some tx →
      updatesOf event = [(.txUpdate, tx.txId)] →
        (updatesOf event)[index]? = some (notificationTopic notification) := by
    intro tx isUpdate updates
    rw [sentTo, filter_handleDataStoreEvent isUpdate] at sent
    rw [updates]
    split at sent
    · rcases index with _ | index
      · cases sent
        rfl
      · cases sent
    · cases sent
  cases event with
  | txUpdate tx => exact single tx.toDbTxBase rfl rfl
  | mempoolTxUpdate tx => exact single tx.toDbTxBase rfl rfl
  | blockUpdate block => cases sent
  | addressUpdate info =>
      rw [sentTo] at sent
      dsimp only [handleDataStoreEvent] at sent
      rw [filter_processAddressUpdate] at sent
      split at sent
      · rw [List.getElem?_map, Option.map_eq_some_iff] at sent
        obtain ⟨tx, found, same⟩ := sent
        cases same
        rw [updatesOf, List.getElem?_append_left
          (by simpa using (List.getElem?_eq_some_iff.mp found).1), List.getElem?_map, found]
        rfl
      · cases sent

/-- An update of a topic with the client in it is announced once: it is sent at once,
or a job is added for it. -/
theorem announced_once {index : Nat} {kind : RpcSubscriptionType} {topic : String}
    (isUpdate : (updatesOf event)[index]? = some (kind, topic))
    (member : peer ∈ server.subscribers kind topic) :
    (if index < (sentTo peer event server).length then 1 else 0) +
      (List.replicate (addedJobs server event).length ((updatesOf event).length - 1)).count
        index = 1 := by
  have single : ∀ tx : DbTxBase String, txUpdateOf event = some tx →
      updatesOf event = [(.txUpdate, tx.txId)] → addedJobs server event = [] →
        (if index < (sentTo peer event server).length then 1 else 0) +
          (List.replicate (addedJobs server event).length ((updatesOf event).length - 1)).count
            index = 1 := by
    intro tx isTx updates noJobs
    rw [updates] at isUpdate
    rcases index with _ | index
    · cases isUpdate
      rw [sentTo, filter_handleDataStoreEvent isTx, if_pos member, noJobs]
      rfl
    · cases isUpdate
  cases event with
  | txUpdate tx => exact single tx.toDbTxBase rfl rfl rfl
  | mempoolTxUpdate tx => exact single tx.toDbTxBase rfl rfl rfl
  | blockUpdate block => cases isUpdate
  | addressUpdate info =>
      have sent : sentTo peer (.addressUpdate info) server = _ := filter_processAddressUpdate info
      rw [updatesOf, List.getElem?_append] at isUpdate
      rw [List.length_map] at isUpdate
      rw [List.count_replicate]
      have last : (updatesOf (.addressUpdate info)).length - 1 = info.txs.length := by
        simp [updatesOf]
      rw [last]
      split at isUpdate
      · next isTx =>
          rw [List.getElem?_map, Option.map_eq_some_iff] at isUpdate
          obtain ⟨tx, -, same⟩ := isUpdate
          cases same
          rw [sent, if_pos member, List.length_map, if_pos isTx]
          have differs : (info.txs.length == index) = false := by
            rw [beq_eq_false_iff_ne]
            omega
          rw [differs]
          rfl
      · next isBalance =>
          have isLast : index = info.txs.length := by
            have bound := (List.getElem?_eq_some_iff.mp isUpdate).1
            simp only [List.length_singleton] at bound
            omega
          subst isLast
          rw [Nat.sub_self] at isUpdate
          cases isUpdate
          have notSent : ¬info.txs.length < (sentTo peer (.addressUpdate info) server).length := by
            rw [sent]
            split <;> simp
          obtain ⟨set, found⟩ : ∃ set, balanceSet server info.address = some set := by
            cases found : balanceSet server info.address with
            | some set => exact ⟨set, rfl⟩
            | none =>
                rw [WsServer.subscribers, SetMap.members_of_find_none found] at member
                cases member
          rw [if_neg notSent, addedJobs, found]
          simp

theorem announce_eq : state.announce peer event =
    { state with
      server := (handleDataStoreEvent event state.server).1
      socket := state.socket ++
        numbered peer (handleDataStoreEvent event state.server).2 state.updates.length
      updates := state.updates ++ updatesOf event
      jobs := state.jobs ++ List.replicate
        ((handleDataStoreEvent event state.server).1.addrBalanceProcessorQueue.length -
          state.server.addrBalanceProcessorQueue.length)
        (state.updates.length + (updatesOf event).length - 1) } :=
  rfl

theorem jobs_announce : (state.announce peer event).jobs = state.jobs ++
    List.replicate (addedJobs state.server event).length
      (state.updates.length + (updatesOf event).length - 1) := by
  rw [announce_eq]
  dsimp only
  rw [queue_handleDataStoreEvent, List.length_append, Nat.add_sub_cancel_left]

omit [DecidableEq Peer] in
theorem addedJobs_eq_nil_or (server : WsServer Peer) (event : DataStoreEvent) :
    addedJobs server event = [] ∨
    ∃ address set, addedJobs server event = [{ address, subscribers := set }] ∧
      balanceSet server address = some set ∧
      (updatesOf event)[(updatesOf event).length - 1]? = some (.addressBalanceUpdate, address) ∧
      0 < (updatesOf event).length := by
  cases event with
  | addressUpdate info =>
      rw [addedJobs]
      cases found : balanceSet server info.address with
      | none => exact Or.inl rfl
      | some set => exact Or.inr ⟨info.address, set, rfl, found, by simp [updatesOf]⟩
  | _ => exact Or.inl rfl

theorem way_announce (update : Nat) : (state.announce peer event).way update =
    state.way update +
      ((if state.updates.length ≤ update ∧
          update < state.updates.length + (sentTo peer event state.server).length then 1 else 0) +
        (List.replicate (addedJobs state.server event).length
          (state.updates.length + (updatesOf event).length - 1)).count update) := by
  rw [System.way, jobs_announce, List.count_append, announce_eq]
  dsimp only
  rw [List.countP_append, countP_numbered, System.way, sentTo]
  omega

/-- Updates from before are on the way as often as before. -/
theorem way_announce_of_lt {update : Nat} (old : update < state.updates.length) :
    (state.announce peer event).way update = state.way update := by
  rw [way_announce, if_neg (by omega), Nat.zero_add]
  rcases addedJobs_eq_nil_or state.server event with
    none | ⟨address, set, one, -, -, nonempty⟩
  · rw [none]
    rfl
  · rw [one, List.count_eq_zero.mpr]
    · rfl
    · intro mem
      have same := List.eq_of_mem_replicate mem
      omega

/-- A new update of a topic with the client in it is on the way once. -/
theorem way_announce_of_le {update : Nat} {kind : RpcSubscriptionType} {topic : String}
    (new : state.updates.length ≤ update)
    (isUpdate : (updatesOf event)[update - state.updates.length]? = some (kind, topic))
    (member : peer ∈ state.server.subscribers kind topic) :
    (state.announce peer event).way update = state.way update + 1 := by
  have once := announced_once isUpdate member
  have bound := (List.getElem?_eq_some_iff.mp isUpdate).1
  have sentNow : (state.updates.length ≤ update ∧
      update < state.updates.length + (sentTo peer event state.server).length) ↔
        update - state.updates.length < (sentTo peer event state.server).length := by
    omega
  have isLast : (state.updates.length + (updatesOf event).length - 1 == update) =
      ((updatesOf event).length - 1 == update - state.updates.length) := by
    rw [Bool.eq_iff_iff, beq_iff_eq, beq_iff_eq]
    omega
  rw [List.count_replicate] at once
  rw [way_announce, if_congr sentNow rfl rfl, List.count_replicate, isLast, once]

end Announce

/-! ## The invariant -/

/-- What is on the way to the client belongs to the updates there have been. -/
structure Delivery (state : System Peer) : Prop where
  since : ∀ subscription ∈ state.subscriptions, subscription.since ≤ state.updates.length
  /-- Notifications are of the updates with their numbers, and so are the jobs. -/
  sent : ∀ update notification, .notification update notification ∈ state.socket →
    state.updates[update]? = some (notificationTopic notification)
  queued : List.Forall₂ (fun (job : BalanceJob) update =>
      state.updates[update]? = some (.addressBalanceUpdate, job.address))
    state.server.addrBalanceProcessorQueue state.jobs
  called : ∀ entry ∈ state.calls, entry.2 < state.updates.length
  left : ∀ subscription ∈ state.subscriptions, subscription ∈ state.client.listeners ∨
    ∃ entry ∈ state.unsubscribed, entry.1 = subscription.id
  leaving : ∀ entry ∈ state.unsubscribed, entry.2 ≤ state.updates.length ∧
    ∃ subscription ∈ state.subscriptions, subscription.id = entry.1
  /-- The jobs of the window of a listener hold on to the set of its topic. -/
  sets : ∀ listener ∈ state.client.listeners, listener.kind = .addressBalanceUpdate →
    ∀ entry ∈ state.server.addrBalanceProcessorQueue.zip state.jobs,
      listener.since ≤ entry.2 → entry.1.address = listener.topic →
        balanceSet state.server listener.topic = some entry.1.subscribers
  counted : ∀ subscription update, state.InWindow subscription update →
    update ∉ state.failed → state.calls.count (subscription.id, update) + state.way update = 1
  finished : ∀ subscription update, state.InWindow subscription update →
    update ∉ state.failed → subscription ∉ state.client.listeners → state.way update = 0

omit [DecidableEq Peer] in
theorem Delivery.start : Delivery (System.start : System Peer) where
  since := by rintro subscription ⟨⟩
  sent := by rintro update notification ⟨⟩
  queued := List.Forall₂.nil
  called := by rintro entry ⟨⟩
  left := by rintro subscription ⟨⟩
  leaving := by rintro entry ⟨⟩
  sets := by rintro listener ⟨⟩
  counted := by rintro subscription update ⟨⟨⟩, -⟩
  finished := by rintro subscription update ⟨⟨⟩, -⟩

section Steps

variable {state state' : System Peer}

/-- What a delivery is about, besides the socket and the server. -/
structure SameHistory (state state' : System Peer) : Prop where
  listeners : state'.client.listeners = state.client.listeners
  updates : state'.updates = state.updates
  jobs : state'.jobs = state.jobs
  failed : state'.failed = state.failed
  subscriptions : state'.subscriptions = state.subscriptions
  unsubscribed : state'.unsubscribed = state.unsubscribed
  calls : state'.calls = state.calls

omit [DecidableEq Peer] in
/-- Responses come and go, and the server keeps its queue and the sets of listeners. -/
theorem Delivery.congr (delivery : Delivery state) (same : SameHistory state state')
    (queue : state'.server.addrBalanceProcessorQueue = state.server.addrBalanceProcessorQueue)
    (sent : ∀ update notification, .notification update notification ∈ state'.socket →
      .notification update notification ∈ state.socket)
    (counts : ∀ update, state'.socket.countP (SocketMessage.isNotificationOf update) =
      state.socket.countP (SocketMessage.isNotificationOf update))
    (sets : ∀ listener ∈ state.client.listeners, listener.kind = .addressBalanceUpdate →
      ∀ set, balanceSet state.server listener.topic = some set →
        balanceSet state'.server listener.topic = some set) : Delivery state' := by
  obtain ⟨listeners, updates, jobs, failed, subscriptions, unsubscribed, calls⟩ := same
  have window : ∀ {subscription update}, state'.InWindow subscription update →
      state.InWindow subscription update := by
    intro subscription update inWindow
    rw [System.InWindow, subscriptions, updates, unsubscribed] at inWindow
    exact inWindow
  have way : ∀ update, state'.way update = state.way update := by
    intro update
    rw [System.way, System.way, counts, jobs]
  exact
    { since := by
        rw [subscriptions, updates]
        exact delivery.since
      sent := by
        intro update notification mem
        rw [updates]
        exact delivery.sent update notification (sent update notification mem)
      queued := by
        rw [queue, jobs, updates]
        exact delivery.queued
      called := by
        rw [calls, updates]
        exact delivery.called
      left := by
        rw [subscriptions, listeners, unsubscribed]
        exact delivery.left
      leaving := by
        rw [unsubscribed, updates, subscriptions]
        exact delivery.leaving
      sets := by
        intro listener mem isBalance entry entryMem late onTopic
        rw [listeners] at mem
        rw [queue, jobs] at entryMem
        exact sets listener mem isBalance _
          (delivery.sets listener mem isBalance entry entryMem late onTopic)
      counted := by
        intro subscription update inWindow succeeded
        rw [failed] at succeeded
        rw [calls, way]
        exact delivery.counted subscription update (window inWindow) succeeded
      finished := by
        intro subscription update inWindow succeeded left
        rw [failed] at succeeded
        rw [listeners] at left
        rw [way]
        exact delivery.finished subscription update (window inWindow) succeeded left }

omit [DecidableEq Peer] in
theorem Delivery.resume (delivery : Delivery state) (call : Subscribed) :
    Delivery (state.resume call) := by
  -- no update has been processed since the call goes on
  have window : ∀ {subscription update}, (state.resume call).InWindow subscription update →
      state.InWindow subscription update := by
    rintro subscription update ⟨isSubscription, isUpdate, late, unsubscribed⟩
    rcases List.mem_append.mp isSubscription with old | new
    · exact ⟨old, isUpdate, late, unsubscribed⟩
    · rw [List.mem_singleton.mp new] at late
      have bound := (List.getElem?_eq_some_iff.mp isUpdate).1
      exact absurd bound (not_lt.mpr late)
  have queued : ∀ entry ∈ state.server.addrBalanceProcessorQueue.zip state.jobs,
      entry.2 < state.updates.length := by
    intro entry entryMem
    exact (List.getElem?_eq_some_iff.mp (List.forall₂_zip delivery.queued entryMem)).1
  exact
    { since := by
        intro subscription isSubscription
        rcases List.mem_append.mp isSubscription with old | new
        · exact delivery.since subscription old
        · rw [List.mem_singleton.mp new]
          exact le_refl state.updates.length
      sent := delivery.sent
      queued := delivery.queued
      called := delivery.called
      left := by
        intro subscription isSubscription
        rcases List.mem_append.mp isSubscription with old | new
        · rcases delivery.left subscription old with listening | left
          · exact Or.inl (List.mem_append_left _ listening)
          · exact Or.inr left
        · exact Or.inl (List.mem_append_right _ new)
      leaving := by
        intro entry isEntry
        obtain ⟨bound, subscription, isSubscription, same⟩ := delivery.leaving entry isEntry
        exact ⟨bound, subscription, List.mem_append_left _ isSubscription, same⟩
      sets := by
        intro listener isListener isBalance entry entryMem late onTopic
        rcases List.mem_append.mp isListener with old | new
        · exact delivery.sets listener old isBalance entry entryMem late onTopic
        · rw [List.mem_singleton.mp new] at late
          exact absurd (queued entry entryMem) (not_lt.mpr late)
      counted := fun subscription update inWindow => delivery.counted subscription update
        (window inWindow)
      finished := by
        intro subscription update inWindow succeeded left
        apply delivery.finished subscription update (window inWindow) succeeded
        exact fun listening => left (List.mem_append_left _ listening) }

theorem Delivery.respond (delivery : Delivery state) (protocol : Protocol addresses peer state)
    {req : RpcRequest} {requests : List RpcRequest} (first : state.requests = req :: requests) :
    Delivery (state.respond addresses peer req requests) := by
  have connected := (protocol.respond first).connected
  rw [respond_eq] at connected ⊢
  refine delivery.congr ⟨rfl, rfl, rfl, rfl, rfl, rfl, rfl⟩ ?_ ?_ ?_ ?_
  · dsimp only
    rw [handleClientRpcReq_server]
    cases operationOf addresses req with
    | none => rfl
    | some operation => exact queue_perform _
  · intro update notification mem
    rcases List.mem_append.mp mem with old | new
    · exact old
    · cases List.mem_singleton.mp new
  · intro update
    rw [List.countP_append]
    rfl
  · intro listener mem isBalance set found
    have member := (connected listener mem).member
    rw [isBalance] at member
    dsimp only at member ⊢
    rw [handleClientRpcReq_server] at member ⊢
    cases isOperation : operationOf addresses req with
    | none => exact found
    | some operation =>
        rw [isOperation] at member
        exact balanceSet_perform found member

omit [DecidableEq Peer] in
theorem Delivery.settle (delivery : Delivery state) (protocol : Protocol addresses peer state)
    {response : JsonRpc} {socket : List SocketMessage}
    (first : state.socket = .response response :: socket) :
    Delivery (state.settle response socket) := by
  obtain ⟨id, responseId⟩ := protocol.answers response (first ▸ List.mem_cons_self)
  have settled := (state.client.settled_handleResponse responseId).1
  refine delivery.congr ⟨settled.listeners, rfl, rfl, rfl, rfl, rfl, rfl⟩ rfl ?_ ?_ ?_
  · intro update notification mem
    rw [first]
    exact List.mem_cons_of_mem _ mem
  · intro update
    rw [first]
    rfl
  · exact fun _ _ _ _ found => found

omit [DecidableEq Peer] in
theorem System.way_eq_zero {update : Nat} (none : ¬state.OnTheWay update) :
    state.way update = 0 := by
  have noJob : state.jobs.count update = 0 := List.count_eq_zero.mpr fun mem => none (Or.inl mem)
  rw [System.way, noJob, Nat.add_zero, List.countP_eq_zero]
  intro message mem isNotification
  cases message with
  | response response => cases isNotification
  | notification number notification =>
      obtain rfl : number = update := of_decide_eq_true isNotification
      exact none (Or.inr ⟨notification, mem⟩)

omit [DecidableEq Peer] in
theorem System.way_pos {update : Nat} (onTheWay : state.OnTheWay update) :
    0 < state.way update := by
  rcases onTheWay with job | ⟨notification, mem⟩
  · exact Nat.add_pos_right _ (List.count_pos_iff.mpr job)
  · apply Nat.add_pos_left
    exact List.countP_pos_iff.mpr ⟨_, mem, decide_eq_true rfl⟩

omit [DecidableEq Peer] in
/-- A subscription with an update of its window on the way has not been left. -/
theorem Delivery.listening_of_way (delivery : Delivery state) {subscription : Subscription}
    {update : Nat} (inWindow : state.InWindow subscription update)
    (succeeded : update ∉ state.failed) (onTheWay : 0 < state.way update) :
    subscription ∈ state.client.listeners := by
  by_contra left
  exact absurd (delivery.finished subscription update inWindow succeeded left) onTheWay.ne'

omit [DecidableEq Peer] in
/-- A subscription is left when nothing of its window is on the way. -/
theorem Delivery.leave (delivery : Delivery state) {subscription : Subscription}
    (mem : subscription ∈ state.subscriptions)
    (arrived : ∀ other ∈ state.subscriptions, other.id = subscription.id →
      ∀ update, state.InWindow other update → ¬state.OnTheWay update) :
    Delivery (state.leave subscription) := by
  have window : ∀ {other update}, (state.leave subscription).InWindow other update →
      state.InWindow other update := by
    rintro other update ⟨isSubscription, isUpdate, late, unsubscribed⟩
    exact ⟨isSubscription, isUpdate, late,
      fun entry isEntry => unsubscribed entry (List.mem_append_left _ isEntry)⟩
  exact
    { since := delivery.since
      sent := delivery.sent
      queued := delivery.queued
      called := delivery.called
      left := by
        intro other isSubscription
        by_cases same : other.id = subscription.id
        · exact Or.inr ⟨_, List.mem_append_right _ (List.mem_singleton_self _), same.symm⟩
        · rcases delivery.left other isSubscription with listening | ⟨entry, isEntry, isLeft⟩
          · exact Or.inl (List.mem_filter.mpr ⟨listening, decide_eq_true same⟩)
          · exact Or.inr ⟨entry, List.mem_append_left _ isEntry, isLeft⟩
      leaving := by
        intro entry isEntry
        rcases List.mem_append.mp isEntry with old | new
        · exact delivery.leaving entry old
        · rw [List.mem_singleton.mp new]
          exact ⟨le_refl state.updates.length, subscription, mem, rfl⟩
      sets := fun listener isListener =>
        delivery.sets listener (List.mem_of_mem_filter isListener)
      counted := fun other update inWindow => delivery.counted other update (window inWindow)
      finished := by
        intro other update inWindow succeeded left
        by_cases listening : other ∈ state.client.listeners
        · apply System.way_eq_zero
          apply arrived other inWindow.1 _ update (window inWindow)
          by_contra differs
          exact left (List.mem_filter.mpr ⟨listening, decide_eq_true differs⟩)
        · exact delivery.finished other update (window inWindow) succeeded listening }

omit [DecidableEq Peer] in
/-- The ids of the listeners are distinct. -/
theorem Protocol.nodup_listeners (protocol : Protocol addresses peer state) :
    (state.client.listeners.map fun listener => listener.id).Nodup :=
  (List.nodup_append.mp protocol.nodup).2.1.sublist (protocol.listeners.map _)

omit [DecidableEq Peer] in
/-- A notification calls back a listener of its topic once. -/
theorem Protocol.count_notified (protocol : Protocol addresses peer state)
    {listener : Subscription} {update : Nat} {notification : RpcNotification}
    (mem : listener ∈ state.client.listeners)
    (onTopic : notificationTopic notification = (listener.kind, listener.topic)) :
    ((state.client.notified notification).map fun listener => (listener.id, update)).count
      (listener.id, update) = 1 := by
  apply List.count_eq_one_of_mem
  · apply List.Nodup.of_map Prod.fst
    rw [List.map_map]
    exact protocol.nodup_listeners.sublist (List.filter_sublist.map _)
  · exact List.mem_map_of_mem (f := fun listener : Subscription => (listener.id, update))
      (List.mem_filter.mpr ⟨mem, decide_eq_true onTopic⟩)

omit [DecidableEq Peer] in
theorem Delivery.notify (delivery : Delivery state) (protocol : Protocol addresses peer state)
    {number : Nat} {notification : RpcNotification} {socket : List SocketMessage}
    (first : state.socket = .notification number notification :: socket) :
    Delivery (state.notify number notification socket) := by
  have isUpdate := delivery.sent number notification (first ▸ List.mem_cons_self)
  have way : ∀ update, state.way update =
      (state.notify number notification socket).way update + if number = update then 1 else 0 := by
    intro update
    rw [System.way, System.way, first, List.countP_cons]
    simp only [SocketMessage.isNotificationOf, decide_eq_true_eq, System.notify]
    omega
  exact
    { since := delivery.since
      sent := fun update notification mem =>
        delivery.sent update notification (first ▸ List.mem_cons_of_mem _ mem)
      queued := delivery.queued
      called := by
        intro entry mem
        rcases List.mem_append.mp mem with old | new
        · exact delivery.called entry old
        · obtain ⟨listener, -, rfl⟩ := List.mem_map.mp new
          exact (List.getElem?_eq_some_iff.mp isUpdate).1
      left := delivery.left
      leaving := delivery.leaving
      sets := delivery.sets
      counted := by
        intro subscription update inWindow succeeded
        have counted := delivery.counted subscription update inWindow succeeded
        rw [way] at counted
        show (state.calls ++ _).count (subscription.id, update) + _ = 1
        rw [List.count_append]
        by_cases same : number = update
        · subst same
          rw [if_pos rfl] at counted
          have listening : subscription ∈ state.client.listeners := by
            apply delivery.listening_of_way inWindow succeeded
            rw [way, if_pos rfl]
            exact Nat.succ_pos _
          have onTopic : notificationTopic notification =
              (subscription.kind, subscription.topic) :=
            Option.some_injective _ (isUpdate.symm.trans inWindow.2.1)
          rw [protocol.count_notified listening onTopic]
          omega
        · rw [if_neg same] at counted
          have notCalled : ((state.client.notified notification).map fun listener =>
              (listener.id, number)).count (subscription.id, update) = 0 := by
            rw [List.count_eq_zero]
            intro mem
            obtain ⟨listener, -, pair⟩ := List.mem_map.mp mem
            exact same (congrArg Prod.snd pair)
          omega
      finished := by
        intro subscription update inWindow succeeded left
        have finished := delivery.finished subscription update inWindow succeeded left
        rw [way] at finished
        exact (Nat.add_eq_zero_iff.mp finished).1 }

omit [DecidableEq Peer] in
/-- Only updates that the server has processed are on the way. -/
theorem Delivery.lt_of_onTheWay (delivery : Delivery state) {update : Nat}
    (onTheWay : state.OnTheWay update) : update < state.updates.length := by
  rcases onTheWay with job | ⟨notification, mem⟩
  · obtain ⟨index, bound, rfl⟩ := List.mem_iff_getElem.mp job
    have isUpdate := delivery.queued.get (delivery.queued.length_eq ▸ bound) bound
    exact (List.getElem?_eq_some_iff.mp isUpdate).1
  · exact (List.getElem?_eq_some_iff.mp (delivery.sent update notification mem)).1

omit [DecidableEq Peer] in
/-- A subscription whose window is open has its listener. -/
theorem Delivery.listening (delivery : Delivery state) {subscription : Subscription} {update : Nat}
    (mem : subscription ∈ state.subscriptions) (new : state.updates.length ≤ update)
    (notLeft : ∀ entry ∈ state.unsubscribed, entry.1 = subscription.id → update < entry.2) :
    subscription ∈ state.client.listeners := by
  rcases delivery.left subscription mem with listening | ⟨entry, isEntry, isLeft⟩
  · exact listening
  · have before := notLeft entry isEntry isLeft
    have bound := (delivery.leaving entry isEntry).1
    omega

section Announced

variable {event : DataStoreEvent}

theorem updates_announce (peer : Peer) :
    (state.announce peer event).updates = state.updates ++ updatesOf event :=
  rfl

theorem getElem?_updates_announce (peer : Peer) {update : Nat}
    {topic : RpcSubscriptionType × String} (isUpdate : state.updates[update]? = some topic) :
    (state.announce peer event).updates[update]? = some topic := by
  rw [updates_announce, List.getElem?_append_left (List.getElem?_eq_some_iff.mp isUpdate).1]
  exact isUpdate

theorem balanceSet_announce (peer : Peer) (topic : String) :
    balanceSet (state.announce peer event).server topic = balanceSet state.server topic := by
  rw [balanceSet, balanceSet, announce_eq]
  dsimp only
  rw [manager_handleDataStoreEvent]

/-- An old update is in the window as before, a new one when its listener is there. -/
theorem Delivery.inWindow_announce (delivery : Delivery state) {subscription : Subscription}
    {update : Nat} (inWindow : (state.announce peer event).InWindow subscription update) :
    update < state.updates.length ∧ state.InWindow subscription update ∨
      state.updates.length ≤ update ∧ subscription ∈ state.client.listeners ∧
        (updatesOf event)[update - state.updates.length]? =
          some (subscription.kind, subscription.topic) := by
  obtain ⟨isSubscription, isUpdate, late, unsubscribed⟩ := inWindow
  rw [updates_announce] at isUpdate
  rcases lt_or_ge update state.updates.length with old | new
  · rw [List.getElem?_append_left old] at isUpdate
    exact Or.inl ⟨old, isSubscription, isUpdate, late, unsubscribed⟩
  · rw [List.getElem?_append_right new] at isUpdate
    exact Or.inr ⟨new, delivery.listening isSubscription new unsubscribed, isUpdate⟩

/-- The job that an event adds has the number of the last update. -/
theorem queued_addedJobs (peer : Peer) : List.Forall₂ (fun (job : BalanceJob) update =>
      (state.announce peer event).updates[update]? = some (.addressBalanceUpdate, job.address))
    (addedJobs state.server event)
    (List.replicate (addedJobs state.server event).length
      (state.updates.length + (updatesOf event).length - 1)) := by
  rcases addedJobs_eq_nil_or state.server event with
    none | ⟨address, set, one, -, isLast, nonempty⟩
  · rw [none]
    exact List.Forall₂.nil
  · rw [one]
    refine List.Forall₂.cons ?_ List.Forall₂.nil
    rw [updates_announce, List.getElem?_append_right (by omega), ← isLast]
    congr 1
    omega

end Announced

theorem Delivery.announce (delivery : Delivery state) (protocol : Protocol addresses peer state)
    (event : DataStoreEvent) : Delivery (state.announce peer event) := by
  have longer : state.updates.length ≤ (state.announce peer event).updates.length := by
    rw [updates_announce, List.length_append]
    exact Nat.le_add_right _ _
  have queue : (state.announce peer event).server.addrBalanceProcessorQueue =
      state.server.addrBalanceProcessorQueue ++ addedJobs state.server event :=
    queue_handleDataStoreEvent
  have lengths := delivery.queued.length_eq
  exact
    { since := fun subscription mem => (delivery.since subscription mem).trans longer
      sent := by
        intro update notification mem
        rcases List.mem_append.mp mem with old | new
        · exact getElem?_updates_announce peer (delivery.sent update notification old)
        · obtain ⟨late, found⟩ := mem_numbered new
          rw [updates_announce, List.getElem?_append_right late]
          exact topic_of_sentTo found
      queued := by
        rw [queue, jobs_announce]
        exact List.rel_append (delivery.queued.imp fun job update isUpdate =>
          getElem?_updates_announce peer isUpdate) (queued_addedJobs peer)
      called := fun entry mem => (delivery.called entry mem).trans_le longer
      left := delivery.left
      leaving := fun entry mem =>
        ⟨(delivery.leaving entry mem).1.trans longer, (delivery.leaving entry mem).2⟩
      sets := by
        intro listener isListener isBalance entry entryMem late onTopic
        rw [balanceSet_announce]
        rw [queue, jobs_announce, List.zip_append lengths] at entryMem
        rcases List.mem_append.mp entryMem with old | new
        · exact delivery.sets listener isListener isBalance entry old late onTopic
        · rcases addedJobs_eq_nil_or state.server event with
            none | ⟨address, set, one, found, -, -⟩
          · rw [none] at new
            cases new
          · rw [one] at new
            have job := List.mem_singleton.mp (List.of_mem_zip new).1
            rw [job] at onTopic ⊢
            rw [← onTopic]
            exact found
      counted := by
        intro subscription update inWindow succeeded
        rcases delivery.inWindow_announce inWindow with
          ⟨old, inWindow⟩ | ⟨new, isListener, isUpdate⟩
        · rw [way_announce_of_lt old]
          exact delivery.counted subscription update inWindow succeeded
        · have notCalled : state.calls.count (subscription.id, update) = 0 := by
            rw [List.count_eq_zero]
            intro mem
            exact absurd (delivery.called _ mem) (not_lt.mpr new)
          have notYet : state.way update = 0 := System.way_eq_zero fun onTheWay =>
            absurd (delivery.lt_of_onTheWay onTheWay) (not_lt.mpr new)
          rw [way_announce_of_le new isUpdate (protocol.connected subscription isListener).member,
            notYet]
          exact congrArg (· + 1) notCalled
      finished := by
        intro subscription update inWindow succeeded left
        rcases delivery.inWindow_announce inWindow with
          ⟨old, inWindow⟩ | ⟨new, isListener, isUpdate⟩
        · rw [way_announce_of_lt old]
          exact delivery.finished subscription update inWindow succeeded left
        · exact absurd isListener left }

/-- What a job sends: the balance to everyone in its set. -/
def balanceMessages (balance : Option Int) (job : BalanceJob) (clients : List Peer) :
    List (Peer × RpcNotification) :=
  match balance with
  | none => []
  | some balance => clients.map fun client =>
      (client, .addressBalanceUpdate { address := job.address, balance := toString balance })

omit [DecidableEq Peer] in
theorem runBalanceJob_cons {server : WsServer Peer} {job : BalanceJob} {queue : List BalanceJob}
    (first : server.addrBalanceProcessorQueue = job :: queue) (balance : Option Int) :
    runBalanceJob balance server = ({ server with addrBalanceProcessorQueue := queue },
      balanceMessages balance job
        (server.addressBalanceUpdateSubscriptions.subscriptions.setOf job.subscribers)) := by
  rw [runBalanceJob, first]
  cases balance <;> rfl

/-- The client is sent the balance once when it is in the set of the job. -/
theorem filter_balanceMessages {balance : Option Int} {job : BalanceJob} {clients : List Peer}
    (nodup : clients.Nodup) :
    (balanceMessages balance job clients).filter (fun message => message.1 = peer) =
      (if peer ∈ clients then balance else none).toList.map fun balance =>
        (peer, .addressBalanceUpdate { address := job.address, balance := toString balance }) := by
  cases balance with
  | none => simp [balanceMessages]
  | some balance =>
      rw [balanceMessages, filter_map_of_nodup nodup]
      split <;> rfl

/-- How often a job sends the client a notification with a number. -/
theorem countP_numbered_balanceMessages {balance : Option Int} {job : BalanceJob}
    {clients : List Peer} (nodup : clients.Nodup) (number update : Nat) :
    (numbered peer (balanceMessages balance job clients) number).countP
        (SocketMessage.isNotificationOf update) =
      if number = update ∧ peer ∈ clients ∧ balance ≠ none then 1 else 0 := by
  rw [countP_numbered, filter_balanceMessages nodup, List.length_map]
  apply if_congr _ rfl rfl
  by_cases member : peer ∈ clients
  · cases balance with
    | none =>
        rw [if_pos member, Option.toList_none, List.length_nil]
        constructor
        · omega
        · exact fun all => absurd rfl all.2.2
    | some balance =>
        have read : some balance ≠ none := Option.some_ne_none balance
        rw [if_pos member, Option.toList_some, List.length_singleton]
        exact ⟨fun bounds => ⟨by omega, member, read⟩, by omega⟩
  · rw [if_neg member, Option.toList_none, List.length_nil]
    constructor
    · omega
    · exact fun all => absurd all.2.1 member

/-- A job sends notifications with its own number and topic. -/
theorem topic_of_mem_balanceMessages {balance : Option Int} {job : BalanceJob}
    {clients : List Peer} (nodup : clients.Nodup) {number update : Nat}
    {notification : RpcNotification}
    (mem : .notification update notification ∈
      numbered peer (balanceMessages balance job clients) number) :
    update = number ∧ notificationTopic notification = (.addressBalanceUpdate, job.address) := by
  obtain ⟨late, found⟩ := mem_numbered mem
  rw [filter_balanceMessages nodup, List.getElem?_map] at found
  obtain ⟨read, isRead, same⟩ := Option.map_eq_some_iff.mp found
  have bound := (List.getElem?_eq_some_iff.mp isRead).1
  have single : (if peer ∈ clients then balance else none).toList.length ≤ 1 := by
    cases (if peer ∈ clients then balance else none) <;> simp
  cases same
  exact ⟨by omega, rfl⟩

section RunJob

variable {number : Nat} {jobs : List Nat} {job : BalanceJob} {queue : List BalanceJob}

/-- The clients that a job is for. -/
def jobClients (server : WsServer Peer) (job : BalanceJob) : List Peer :=
  server.addressBalanceUpdateSubscriptions.subscriptions.setOf job.subscribers

omit [DecidableEq Peer] in
theorem nodup_jobClients (server : WsServer Peer) (job : BalanceJob) :
    (jobClients server job).Nodup :=
  SetMap.nodup_setOf _ _

variable (peer) (balance : Option Int)

theorem runJob_eq (isQueue : state.server.addrBalanceProcessorQueue = job :: queue) :
    state.runJob peer balance number jobs =
      { state with
        server := { state.server with addrBalanceProcessorQueue := queue }
        jobs
        socket := state.socket ++
          numbered peer (balanceMessages balance job (jobClients state.server job)) number
        failed := if balance = none then state.failed ++ [number] else state.failed } := by
  rw [System.runJob, runBalanceJob_cons isQueue]
  rfl

/-- The job is no longer on the way, and its notification is when it was sent. -/
theorem way_runJob (isQueue : state.server.addrBalanceProcessorQueue = job :: queue)
    (first : state.jobs = number :: jobs) (update : Nat) :
    (state.runJob peer balance number jobs).way update + (if number = update then 1 else 0) =
      state.way update +
        if number = update ∧ peer ∈ jobClients state.server job ∧ balance ≠ none then 1 else 0 := by
  have jobCount : state.jobs.count update =
      jobs.count update + if number = update then 1 else 0 := by
    rw [first, List.count_cons]
    exact congrArg (jobs.count update + ·) (if_congr beq_iff_eq rfl rfl)
  rw [runJob_eq peer balance isQueue, System.way, System.way, jobCount, List.countP_append,
    countP_numbered_balanceMessages (nodup_jobClients _ _)]
  dsimp only
  omega

theorem way_runJob_of_ne (isQueue : state.server.addrBalanceProcessorQueue = job :: queue)
    (first : state.jobs = number :: jobs) {update : Nat} (differs : number ≠ update) :
    (state.runJob peer balance number jobs).way update = state.way update := by
  have changed := way_runJob peer balance isQueue first update
  rwa [if_neg differs, if_neg (fun all => differs all.1)] at changed

/-- An update whose balance is read has not failed. -/
theorem read_of_not_mem_failed {update : Nat}
    (succeeded : update ∉ (state.runJob peer balance number jobs).failed) :
    update ∉ state.failed ∧ (number = update → balance ≠ none) := by
  have failed : (state.runJob peer balance number jobs).failed =
      if balance = none then state.failed ++ [number] else state.failed := rfl
  rw [failed] at succeeded
  split at succeeded
  · next unread =>
      rw [List.mem_append, not_or] at succeeded
      refine ⟨succeeded.1, fun same => absurd ?_ succeeded.2⟩
      rw [same]
      exact List.mem_singleton_self _
  · next read => exact ⟨succeeded, fun _ => read⟩

end RunJob

theorem Delivery.runJob (delivery : Delivery state) (protocol : Protocol addresses peer state)
    (balance : Option Int) {number : Nat} {jobs : List Nat} (first : state.jobs = number :: jobs) :
    Delivery (state.runJob peer balance number jobs) := by
  have queued := delivery.queued
  rw [first, List.forall₂_cons_right_iff] at queued
  obtain ⟨job, queue, isUpdate, rest, isQueue⟩ := queued
  have after : state.runJob peer balance number jobs = _ := runJob_eq peer balance isQueue
  have zipped : state.server.addrBalanceProcessorQueue.zip state.jobs =
      (job, number) :: queue.zip jobs := by
    rw [isQueue, first]
    rfl
  have onTheWay : 0 < state.way number := System.way_pos (Or.inl (first ▸ List.mem_cons_self))
  exact
    { since := delivery.since
      sent := by
        rw [after]
        intro update notification mem
        rcases List.mem_append.mp mem with old | new
        · exact delivery.sent update notification old
        · obtain ⟨rfl, topic⟩ := topic_of_mem_balanceMessages (nodup_jobClients _ _) new
          rw [topic]
          exact isUpdate
      queued := by
        rw [after]
        exact rest
      called := delivery.called
      left := delivery.left
      leaving := delivery.leaving
      sets := by
        rw [after]
        intro listener mem isBalance entry entryMem
        apply delivery.sets listener mem isBalance entry
        rw [zipped]
        exact List.mem_cons_of_mem _ entryMem
      counted := by
        intro subscription update inWindow succeeded
        have inWindow : state.InWindow subscription update := inWindow
        obtain ⟨before, read⟩ := read_of_not_mem_failed peer balance succeeded
        have counted := delivery.counted subscription update inWindow before
        show state.calls.count (subscription.id, update) + _ = 1
        by_cases same : number = update
        · subst same
          have listening := delivery.listening_of_way inWindow before onTheWay
          have topic := Option.some_injective _ (isUpdate.symm.trans inWindow.2.1)
          rw [Prod.mk.injEq] at topic
          have found := delivery.sets subscription listening topic.1.symm (job, number)
            (zipped ▸ List.mem_cons_self) inWindow.2.2.1 topic.2
          have member : peer ∈ jobClients state.server job := by
            have member := (protocol.connected subscription listening).member
            rw [← topic.1, WsServer.subscribers, SetMap.members_of_find found] at member
            exact member
          have changed := way_runJob peer balance isQueue first number
          rw [if_pos rfl, if_pos ⟨rfl, member, read rfl⟩] at changed
          rw [Nat.add_right_cancel changed]
          exact counted
        · rw [way_runJob_of_ne peer balance isQueue first same]
          exact counted
      finished := by
        intro subscription update inWindow succeeded left
        have inWindow : state.InWindow subscription update := inWindow
        have before := (read_of_not_mem_failed peer balance succeeded).1
        have differs : number ≠ update := by
          rintro rfl
          exact left (delivery.listening_of_way inWindow before onTheWay)
        rw [way_runJob_of_ne peer balance isQueue first differs]
        exact delivery.finished subscription update inWindow before left }

theorem Delivery.step {action : SystemAction Peer} (delivery : Delivery state)
    (protocol : Protocol addresses peer state) (alone : Alone addresses state action)
    (effect : SystemEffect addresses peer state action state') : Delivery state' := by
  cases effect with
  | subscribe kind param =>
      exact delivery.congr ⟨rfl, rfl, rfl, rfl, rfl, rfl, rfl⟩ rfl (fun _ _ mem => mem)
        (fun _ => rfl) (fun _ _ _ _ found => found)
  | @resume call mem => exact delivery.resume call
  | unsubscribe mem =>
      exact delivery.leave mem fun other isSubscription same => (alone other isSubscription same).2
  | respond first => exact delivery.respond protocol first
  | settle first => exact delivery.settle protocol first
  | notify first => exact delivery.notify protocol first
  | announce event => exact delivery.announce protocol event
  | runJob balance first => exact delivery.runJob protocol balance first
  | @other event other =>
      refine delivery.congr ⟨rfl, rfl, rfl, rfl, rfl, rfl, rfl⟩ (queue_other other)
        (fun _ _ mem => mem) (fun _ => rfl) ?_
      intro listener mem isBalance set found
      have member := (protocol.connected listener mem).member
      rw [isBalance] at member
      exact balanceSet_other other found member

end Steps

/-! ## Runs -/

/-- When every subscription is left only while no other call of its topic is live and
nothing of its window is on the way, its callback is called exactly once for each update
of the window whose notification has arrived, and not before. -/
theorem callback_called_once {actions : List (SystemAction Peer)} {state : System Peer}
    (alone : Meets (Alone addresses) (systemStep addresses peer) System.start actions)
    (ran : execute (systemStep addresses peer) System.start actions = some state)
    (subscription : Subscription) (update : Nat) (inWindow : state.InWindow subscription update)
    (succeeded : update ∉ state.failed) :
    (state.OnTheWay update → state.calls.count (subscription.id, update) = 0) ∧
      (¬state.OnTheWay update → state.calls.count (subscription.id, update) = 1) := by
  have kept : ∀ (before : System Peer) action after,
      Protocol addresses peer before ∧ Delivery before → Alone addresses before action →
        systemStep addresses peer before action = some after →
          Protocol addresses peer after ∧ Delivery after := by
    rintro before action after ⟨protocol, delivery⟩ alone taken
    have effect := systemStep_effect taken
    exact ⟨protocol.step alone effect, delivery.step protocol alone effect⟩
  have invariant := execute_invariant kept ⟨Protocol.start, Delivery.start⟩ alone ran
  have counted := invariant.2.counted subscription update inWindow succeeded
  constructor
  · intro onTheWay
    have way := System.way_pos onTheWay
    omega
  · intro arrived
    rw [System.way_eq_zero arrived] at counted
    exact counted

/-- Two calls subscribe to the sample transaction and go on. -/
def subscribedTwice : List (SystemAction String) :=
  [.subscribe .txUpdate sampleTopic, .subscribe .txUpdate sampleTopic, .deliverRequest,
    .deliverRequest, .deliverMessage, .deliverMessage, .resume 1, .resume 2]

/-- A transaction that nothing else is subscribed to. -/
def otherTopic : String :=
  "0x8913000000000000000000000000000000000000000000000000000000000000"

/-- A third call subscribes to another transaction, and the sample one is stored. -/
def notifiedBefore : List (SystemAction String) :=
  subscribedTwice ++ [.subscribe .txUpdate otherTopic, .deliverRequest, .deliverMessage, .resume 3,
    .dataStore (.txUpdate sampleTx), .deliverMessage]

/-- The subscription of the third call is left, and the sample transaction is stored once
more. -/
def notifiedAround : List (SystemAction String) :=
  notifiedBefore ++ [.unsubscribe 3, .deliverRequest, .deliverMessage,
    .dataStore (.txUpdate sampleTx), .deliverMessage]

/-- The first subscription is left, and the transaction is stored afterwards. -/
def leftBefore : List (SystemAction String) :=
  subscribedTwice ++ [.unsubscribe 1, .deliverRequest, .deliverMessage,
    .dataStore (.txUpdate sampleTx)]

/-- The subscription of the second call. -/
def secondSubscription : Subscription where
  id := 2
  kind := .txUpdate
  param := sampleTopic
  topic := sampleTopic
  since := 0

/-- The state after some actions of a client. -/
def sampleRun (actions : List (SystemAction String)) : System String :=
  (execute (systemStep AddressLibrary.zeroHash "first") System.start actions).getD System.start

theorem execute_sampleRun (actions : List (SystemAction String))
    (enabled : (execute (systemStep AddressLibrary.zeroHash "first") System.start
      actions).isSome) :
    execute (systemStep AddressLibrary.zeroHash "first") System.start actions =
      some (sampleRun actions) := by
  obtain ⟨state, ran⟩ := Option.isSome_iff_exists.mp enabled
  rw [sampleRun, ran, Option.getD_some]

/-- The third subscription is the only one of its topic, and nothing is on the way when it is
left. -/
theorem meets_alone_notifiedAround : Meets (Alone AddressLibrary.zeroHash)
    (systemStep AddressLibrary.zeroHash "first") System.start notifiedAround := by
  have before : ∀ action ∈ notifiedBefore, ∀ state,
      Alone AddressLibrary.zeroHash state action := by
    intro action mem state
    cases action with
    | unsubscribe id => simp [notifiedBefore, subscribedTwice] at mem
    | _ => trivial
  refine (meets_of_forall before).append fun middle ran => ⟨?_, fun _ _ => ?_⟩
  · rw [execute_sampleRun notifiedBefore (by decide +kernel)] at ran
    obtain rfl := Option.some.inj ran
    intro subscription mem same
    have others : ∀ subscription ∈ (sampleRun notifiedBefore).subscriptions,
        subscription.id = 3 → ∀ other ∈ (sampleRun notifiedBefore).live AddressLibrary.zeroHash
          subscription.kind subscription.topic, other = 3 := by
      decide +kernel
    have quiet : (sampleRun notifiedBefore).jobs = [] ∧
        (sampleRun notifiedBefore).socket = [] := by
      decide +kernel
    refine ⟨others subscription mem same, fun update _ => ?_⟩
    rintro (job | ⟨notification, sent⟩)
    · rw [quiet.1] at job
      cases job
    · rw [quiet.2] at sent
      cases sent
  · apply meets_of_forall
    intro action mem state
    cases action with
    | unsubscribe id => simp at mem
    | _ => trivial

/-- The callback of the second subscription is called once for the update before and once for
the one after the third subscription is left. -/
theorem callback_called_once_notifiedAround :
    (¬(sampleRun notifiedAround).OnTheWay 0 →
        (sampleRun notifiedAround).calls.count (2, 0) = 1) ∧
      (¬(sampleRun notifiedAround).OnTheWay 1 →
        (sampleRun notifiedAround).calls.count (2, 1) = 1) ∧
      (sampleRun notifiedAround).jobs = [] ∧ (sampleRun notifiedAround).socket = [] := by
  have ran := execute_sampleRun notifiedAround (by decide +kernel)
  have facts : (∀ update ∈ [0, 1],
      (sampleRun notifiedAround).InWindow secondSubscription update ∧
        update ∉ (sampleRun notifiedAround).failed) ∧
      (sampleRun notifiedAround).jobs = [] ∧ (sampleRun notifiedAround).socket = [] := by
    unfold System.InWindow
    decide +kernel
  obtain ⟨inWindow, quiet⟩ := facts
  have called : ∀ update ∈ [0, 1], ¬(sampleRun notifiedAround).OnTheWay update →
      (sampleRun notifiedAround).calls.count (2, update) = 1 := fun update mem =>
    (callback_called_once meets_alone_notifiedAround ran secondSubscription update
      (inWindow update mem).1 (inWindow update mem).2).2
  exact ⟨called 0 (by decide), called 1 (by decide), quiet⟩

/-- The request of the first subscription takes the client out of the topic, and the
second one is not called back. -/
theorem leftBefore_notCalled :
    execute (systemStep AddressLibrary.zeroHash "first") System.start leftBefore =
        some (sampleRun leftBefore) ∧
      (sampleRun leftBefore).InWindow secondSubscription 0 ∧
      0 ∉ (sampleRun leftBefore).failed ∧ ¬(sampleRun leftBefore).OnTheWay 0 ∧
      (sampleRun leftBefore).calls.count (secondSubscription.id, 0) = 0 := by
  have ran := execute_sampleRun leftBefore (by decide +kernel)
  have facts : (sampleRun leftBefore).InWindow secondSubscription 0 ∧
      0 ∉ (sampleRun leftBefore).failed ∧ (sampleRun leftBefore).jobs = [] ∧
      (sampleRun leftBefore).socket = [] ∧
      (sampleRun leftBefore).calls.count (secondSubscription.id, 0) = 0 := by
    unfold System.InWindow
    decide +kernel
  obtain ⟨inWindow, succeeded, jobs, socket, notCalled⟩ := facts
  refine ⟨ran, inWindow, succeeded, ?_, notCalled⟩
  rintro (job | ⟨notification, sent⟩)
  · rw [jobs] at job
    cases job
  · rw [socket] at sent
    cases sent

end StacksApi.Client
