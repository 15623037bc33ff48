import StacksApi.Routes.Subscriptions

/-!
# Who is subscribed

Messages change the server by the operations that they ask for.  Every manager
maps a topic to exactly the open clients whose last operation on it was to
subscribe, and each of them is sent one notification of a transaction.
-/

namespace StacksApi.Routes

open StacksApi.Collections
open StacksApi.Datastore
open StacksApi.Controllers

/-! ## Operations -/

/-- A valid request to join or leave a topic. -/
structure Operation where
  kind : RpcSubscriptionType
  topic : String
  subscribe : Bool
  deriving DecidableEq

section Operations

variable {Client : Type} [DecidableEq Client] (addresses : AddressLibrary)

/-- The topic that the parameters of a request name. -/
def subscriptionTopic (params : SubscriptionParams) : RpcSubscriptionType → Option String
  | .txUpdate => params.txId.bind normalizeHashString
  | _ => params.address.filter fun address => (isValidPrincipal addresses address).isSome

/-- What a request asks for, when it is valid. -/
def operationOf (req : RpcRequest) : Option Operation :=
  let subscribe :=
    if req.method = "subscribe" then some true
    else if req.method = "unsubscribe" then some false
    else none
  subscribe.bind fun subscribe =>
    req.params.bind fun params =>
      (params.event.bind RpcSubscriptionType.ofEvent).bind fun kind =>
        (subscriptionTopic addresses params kind).map fun topic => { kind, topic, subscribe }

/-- What a parsed object asks for. -/
def objectOperation : ParsedObject → Option Operation
  | .request req => operationOf addresses req
  | _ => none

/-- The parsed objects of a message. -/
def WebSocketData.objects : WebSocketData → List ParsedObject
  | .single obj => [obj]
  | .batch objs => objs
  | .other _ => []

/-- The operations of an event in their order. -/
def WsEvent.operations : WsEvent Client → List (Client × Operation)
  | .message client data =>
      (data.objects.filterMap (objectOperation addresses)).map fun operation => (client, operation)
  | _ => []

/-- Whether the last operation of a client on a topic was to subscribe. -/
def lastOperation (operations : List (Client × Operation)) (kind : RpcSubscriptionType)
    (topic : String) (client : Client) : Option Bool :=
  (operations.filter fun operation => operation.1 = client ∧ operation.2.kind = kind ∧
    operation.2.topic = topic).getLast?.map fun operation => operation.2.subscribe

/-- No client sends a request after its socket has closed. -/
def SilentAfterClose (events : List (WsEvent Client)) : Prop :=
  ∀ earlier client data later, events = earlier ++ .message client data :: later →
    WsEvent.close client ∉ earlier

/-- The server after an operation of a client. -/
def WsServer.perform (server : WsServer Client) (operation : Client × Operation) :
    WsServer Client :=
  let manager := server.manager operation.2.kind
  let changed :=
    if operation.2.subscribe then manager.addSubscription operation.1 operation.2.topic
    else manager.removeSubscription operation.1 operation.2.topic
  server.setManager changed operation.2.kind

variable {addresses} {client : Client} {server : WsServer Client}

theorem handleSubscription_server (kind : RpcSubscriptionType) (topic : Option String)
    (invalid : String) (result : String → SubscriptionResult) (id : RpcId) (subscribe : Bool) :
    (handleSubscription kind topic invalid result client id subscribe server).1 =
      (topic.map fun topic => ({ kind, topic, subscribe } : Operation)).elim server
        fun operation => server.perform (client, operation) := by
  cases topic with
  | none => rfl
  | some topic => rfl

theorem handleClientSubscription_server (req : RpcRequest) (subscribe : Bool) :
    (handleClientSubscription addresses client req subscribe server).1 =
      (req.params.bind fun params =>
        (params.event.bind RpcSubscriptionType.ofEvent).bind fun kind =>
          (subscriptionTopic addresses params kind).map fun topic =>
            ({ kind, topic, subscribe } : Operation)).elim server
        fun operation => server.perform (client, operation) := by
  unfold handleClientSubscription
  cases req.params with
  | none => rfl
  | some params =>
      dsimp only [Option.bind_some]
      split
      · next absent => rw [absent]; rfl
      · next absent => rw [absent]; rfl
      · next event _ named =>
          rw [named, Option.bind_some]
          cases RpcSubscriptionType.ofEvent event with
          | none => rfl
          | some kind => cases kind <;> apply handleSubscription_server

/-- A request changes the server by the operation that it asks for. -/
theorem handleClientRpcReq_server (req : RpcRequest) :
    (handleClientRpcReq addresses client req server).1 =
      (operationOf addresses req).elim server fun operation =>
        server.perform (client, operation) := by
  unfold handleClientRpcReq operationOf
  by_cases subscribes : req.method = "subscribe"
  · rw [if_pos subscribes, if_pos subscribes]
    exact handleClientSubscription_server req true
  · rw [if_neg subscribes, if_neg subscribes]
    by_cases unsubscribes : req.method = "unsubscribe"
    · rw [if_pos unsubscribes, if_pos unsubscribes]
      exact handleClientSubscription_server req false
    · rw [if_neg unsubscribes, if_neg unsubscribes]
      rfl

theorem handleParsedObject_server (obj : ParsedObject) :
    (handleParsedObject addresses client obj server).1 =
      (objectOperation addresses obj).elim server fun operation =>
        server.perform (client, operation) := by
  cases obj with
  | request req => exact handleClientRpcReq_server req
  | _ => rfl

theorem handleParsedObjects_server (objs : List ParsedObject) :
    (handleParsedObjects addresses client objs server).1 =
      (objs.filterMap (objectOperation addresses)).foldl
        (fun server operation => server.perform (client, operation)) server := by
  unfold handleParsedObjects
  induction objs using List.reverseRecOn with
  | nil => rfl
  | append_singleton objs obj ih =>
      rw [List.foldl_append, List.filterMap_append, List.foldl_append, ← ih, List.foldl_cons,
        List.foldl_nil]
      dsimp only
      rw [handleParsedObject_server]
      cases found : objectOperation addresses obj with
      | none => simp [found]
      | some operation => simp [found]

/-- A message changes the server by its operations. -/
theorem handleClientMessage_server (data : WebSocketData) :
    (handleClientMessage addresses client data server).1 =
      ((WsEvent.message client data).operations addresses).foldl WsServer.perform server := by
  rw [WsEvent.operations, List.foldl_map]
  cases data with
  | other constructorName => rfl
  | single obj => exact handleParsedObjects_server [obj]
  | batch objs => exact handleParsedObjects_server objs

end Operations

/-! ## Who is subscribed -/

section Exact

variable {Client : Type} [DecidableEq Client] {addresses : AddressLibrary}
variable {server : WsServer Client} {kind : RpcSubscriptionType} {topic : String} {client : Client}

/-- The clients of a topic. -/
def WsServer.subscribers (server : WsServer Client) (kind : RpcSubscriptionType)
    (topic : String) : List Client :=
  (server.manager kind).subscriptions.members topic

theorem mem_subscribers_perform {operation : Client × Operation} :
    client ∈ (server.perform operation).subscribers kind topic ↔
      if operation.1 = client ∧ operation.2.kind = kind ∧ operation.2.topic = topic then
        operation.2.subscribe = true
      else client ∈ server.subscribers kind topic := by
  rw [WsServer.subscribers, WsServer.perform]
  by_cases sameKind : operation.2.kind = kind
  · rw [← sameKind, WsServer.manager_setManager_self]
    cases subscribe : operation.2.subscribe with
    | true =>
        rw [if_pos rfl, SubscriptionManager.addSubscription, SetMap.mem_members_insert]
        split
        · next same => simp [same.1, same.2.2]
        · next differs =>
            have apart : ¬(topic = operation.2.topic ∧ client = operation.1) := by
              rintro ⟨rfl, rfl⟩
              exact differs ⟨rfl, rfl, rfl⟩
            simp [apart, WsServer.subscribers]
    | false =>
        rw [if_neg Bool.false_ne_true, SubscriptionManager.removeSubscription,
          SetMap.mem_members_erase]
        split
        · next same => simp [same.1, same.2.2]
        · next differs =>
            have apart : ¬(topic = operation.2.topic ∧ client = operation.1) := by
              rintro ⟨rfl, rfl⟩
              exact differs ⟨rfl, rfl, rfl⟩
            simp [apart, WsServer.subscribers]
  · rw [WsServer.manager_setManager_of_ne (Ne.symm sameKind),
      if_neg (fun same => sameKind same.2.1),
      WsServer.subscribers]

theorem lastOperation_append (earlier later : List (Client × Operation)) :
    lastOperation (earlier ++ later) kind topic client =
      (lastOperation later kind topic client).or (lastOperation earlier kind topic client) := by
  rw [lastOperation, List.filter_append, List.getLast?_append, Option.map_or]
  rfl

theorem lastOperation_singleton (operation : Client × Operation) :
    lastOperation [operation] kind topic client =
      if operation.1 = client ∧ operation.2.kind = kind ∧ operation.2.topic = topic then
        some operation.2.subscribe
      else none := by
  rw [lastOperation, List.filter_cons, List.filter_nil]
  by_cases own : operation.1 = client ∧ operation.2.kind = kind ∧ operation.2.topic = topic
  · rw [if_pos own, if_pos (decide_eq_true own)]
    rfl
  · rw [if_neg own, if_neg (by simpa using own)]
    rfl

/-- After some operations a client is in a topic when the last of its operations on
it says so, or when there was none and it was in it before. -/
theorem mem_subscribers_performs (operations : List (Client × Operation)) :
    client ∈ (operations.foldl WsServer.perform server).subscribers kind topic ↔
      (lastOperation operations kind topic client).elim
        (client ∈ server.subscribers kind topic) fun subscribe => subscribe = true := by
  induction operations using List.reverseRecOn with
  | nil => rfl
  | append_singleton operations operation ih =>
      rw [List.foldl_append, List.foldl_cons, List.foldl_nil, mem_subscribers_perform, ih,
        lastOperation_append, lastOperation_singleton]
      split
      · rfl
      · rw [Option.none_or]

theorem mem_subscribers_close {closed : Client} :
    client ∈ (handleClose closed server).subscribers kind topic ↔
      client ∈ server.subscribers kind topic ∧ client ≠ closed := by
  cases kind <;> exact SubscriptionManager.mem_closed

omit [DecidableEq Client] in
/-- Events of the data store and balances change no subscription. -/
theorem manager_handleDataStoreEvent (event : DataStoreEvent) :
    ((handleDataStoreEvent event server).1).manager kind = server.manager kind := by
  cases event with
  | addressUpdate info =>
      rw [handleDataStoreEvent, processAddressBalanceUpdate]
      split
      · rfl
      · cases kind <;> rfl
  | _ => rfl

omit [DecidableEq Client] in
theorem manager_runBalanceJob (balance : Option Int) :
    ((runBalanceJob balance server).1).manager kind = server.manager kind := by
  rw [runBalanceJob]
  split
  · rfl
  · cases kind <;> rfl

/-- Only the operations of an open client are in its messages. -/
theorem notMem_close_of_lastOperation {past : List (WsEvent Client)} {sender : Client}
    {data : WebSocketData} {subscribe : Bool}
    (silent : SilentAfterClose (past ++ [.message sender data]))
    (last : lastOperation ((WsEvent.message sender data).operations addresses) kind topic client =
      some subscribe) : WsEvent.close client ∉ past := by
  obtain ⟨operation, isLast, -⟩ := Option.map_eq_some_iff.mp last
  obtain ⟨mem, own⟩ := List.mem_filter.mp (List.mem_of_getLast? isLast)
  obtain ⟨asked, -, rfl⟩ := List.mem_map.mp mem
  obtain ⟨rfl, -⟩ := of_decide_eq_true own
  exact silent past sender data [] rfl

omit [DecidableEq Client] in
theorem SilentAfterClose.of_append {past later : List (WsEvent Client)}
    (silent : SilentAfterClose (past ++ later)) : SilentAfterClose past := by
  rintro earlier client data rest rfl
  exact silent earlier client data (rest ++ later) (by simp)

/-- The subscribers of every topic after any events. -/
theorem mem_subscribers_serverRun {events : List (WsEvent Client)}
    (silent : SilentAfterClose events) :
    client ∈ (serverRun addresses events).subscribers kind topic ↔
      lastOperation (events.flatMap (WsEvent.operations addresses)) kind topic client = some true ∧
        WsEvent.close client ∉ events := by
  induction events using List.reverseRecOn with
  | nil =>
      rw [serverRun, List.foldl_nil, WsServer.subscribers, WsServer.manager_start]
      simp [lastOperation, SubscriptionManager.notMem_empty]
  | append_singleton past event ih =>
      have ih := ih silent.of_append
      rw [serverRun, List.foldl_append, List.foldl_cons, List.foldl_nil, ← serverRun,
        List.flatMap_append, List.flatMap_singleton, lastOperation_append, List.mem_append,
        List.mem_singleton]
      cases event with
      | message sender data =>
          rw [serverStep, handleClientMessage_server, mem_subscribers_performs, ih]
          cases last : lastOperation ((WsEvent.message sender data).operations addresses) kind
              topic client with
          | none => simp
          | some subscribe => simp [notMem_close_of_lastOperation silent last]
      | close closed =>
          rw [serverStep, mem_subscribers_close, ih]
          simp [WsEvent.operations, lastOperation, and_assoc]
      | dataStore event =>
          rw [serverStep, WsServer.subscribers, manager_handleDataStoreEvent,
            ← WsServer.subscribers,
            ih]
          simp [WsEvent.operations, lastOperation]
      | balance balance =>
          rw [serverStep, WsServer.subscribers, manager_runBalanceJob, ← WsServer.subscribers, ih]
          simp [WsEvent.operations, lastOperation]

/-! ## Notifications of transactions -/

theorem filter_map_of_nodup {β : Type} {clients : List Client} (nodup : clients.Nodup)
    (message : β) : (clients.map fun subscriber => (subscriber, message)).filter
      (fun sent => sent.1 = client) = if client ∈ clients then [(client, message)] else [] := by
  induction clients with
  | nil => rfl
  | cons head clients ih =>
      rw [List.nodup_cons] at nodup
      rw [List.map_cons, List.filter_cons, ih nodup.2]
      by_cases same : head = client
      · subst same
        simp [nodup.1]
      · simp [same, Ne.symm same]

/-- What a client is sent for a transaction: one notification when it is in the topic. -/
theorem filter_handleDataStoreEvent {event : DataStoreEvent} {tx : DbTxBase String}
    (isUpdate : txUpdateOf event = some tx) :
    (handleDataStoreEvent event server).2.filter (fun sent => sent.1 = client) =
      if client ∈ server.subscribers .txUpdate tx.txId then
        [(client, .txUpdate
          { txId := tx.txId
            txStatus := getTxStatusString tx.status
            txType := getTxTypeString tx.typeId })]
      else [] := by
  have sent : (handleDataStoreEvent event server).2 =
      (txNotifications server.txUpdateSubscriptions.subscriptions.entries event).map
        fun sent => (sent.1, .txUpdate sent.2) := by
    cases event with
    | addressUpdate info => cases isUpdate
    | _ => rfl
  rw [sent, txNotifications, isUpdate]
  dsimp only
  rw [processTxUpdate, SetMap.lookup_entries]
  cases found : server.txUpdateSubscriptions.subscriptions.get tx.txId with
  | none => simp [WsServer.subscribers, WsServer.manager, SetMap.members, found]
  | some clients =>
      have members : server.subscribers .txUpdate tx.txId = clients := by
        rw [WsServer.subscribers, WsServer.manager, SetMap.members, found]
        rfl
      rw [members, ← filter_map_of_nodup (SetMap.get_ne_nil found).2, List.map_map]
      rfl

/-- After any events, every manager maps a topic to the open clients whose last
operation on it was to subscribe, no topic has an empty set, and a transaction
is announced once to each of its subscribers and to nobody else. -/
theorem serverRun_exact {events : List (WsEvent Client)} (silent : SilentAfterClose events) :
    (∀ kind topic client,
      (∃ clients, ((serverRun addresses events).manager kind).subscriptions.get topic =
          some clients ∧ client ∈ clients) ↔
        lastOperation (events.flatMap (WsEvent.operations addresses)) kind topic client =
            some true ∧ WsEvent.close client ∉ events) ∧
      (∀ kind topic clients,
        ((serverRun addresses events).manager kind).subscriptions.get topic = some clients →
          clients ≠ [] ∧ clients.Nodup) ∧
      ∀ event tx, txUpdateOf event = some tx → ∀ client,
        (handleDataStoreEvent event (serverRun addresses events)).2.filter
            (fun sent => sent.1 = client) =
          if lastOperation (events.flatMap (WsEvent.operations addresses)) .txUpdate tx.txId
              client = some true ∧ WsEvent.close client ∉ events then
            [(client, .txUpdate
              { txId := tx.txId
                txStatus := getTxStatusString tx.status
                txType := getTxTypeString tx.typeId })]
          else [] := by
  refine ⟨?_, fun kind topic clients found => SetMap.get_ne_nil found, ?_⟩
  · intro kind topic client
    rw [← mem_subscribers_serverRun silent, WsServer.subscribers, SetMap.members]
    cases ((serverRun addresses events).manager kind).subscriptions.get topic with
    | none => simp
    | some clients => simp
  · intro event tx isUpdate client
    rw [filter_handleDataStoreEvent isUpdate]
    exact if_congr (mem_subscribers_serverRun silent) rfl rfl

end Exact

/-- The transaction of the sample requests. -/
def sampleTopic : String :=
  "0x8912000000000000000000000000000000000000000000000000000000000000"

/-- A request on the notifications of the sample transaction. -/
def sampleRequest (method : String) : WebSocketData :=
  .single (.request
    { id := .number 1
      method
      params := some { event := some "tx_update", txId := some sampleTopic, address := none } })

/-- Two clients subscribe, the second one twice before its socket closes. -/
def sampleEvents : List (WsEvent String) :=
  [.message "first" (sampleRequest "subscribe"), .message "second" (sampleRequest "subscribe"),
    .message "second" (sampleRequest "subscribe"), .close "second"]

/-- The transfer under the sample topic. -/
def sampleTx : DbTx String :=
  { transferTx "0x11" 1 with txId := sampleTopic }

theorem sampleEvents_silent : SilentAfterClose sampleEvents := by
  intro earlier client data later same closed
  obtain ⟨index, bound, isClose⟩ := List.mem_iff_getElem.mp closed
  have stored : sampleEvents[index]? = some (.close client) := by
    rw [same, List.getElem?_append_left bound, List.getElem?_eq_getElem bound, isClose]
  have sent : sampleEvents[earlier.length]? = some (.message client data) := by
    rw [same, List.getElem?_append_right (Nat.le_refl _), Nat.sub_self]
    rfl
  rcases index with _ | _ | _ | _ | index
  case succ.succ.succ.zero =>
    -- the message would come after the last event
    rw [List.getElem?_eq_none (show sampleEvents.length ≤ earlier.length from bound)] at sent
    cases sent
  all_goals cases stored

/-- The second client is no longer told of the transaction. -/
theorem serverRun_exact_sampleEvents :
    (handleDataStoreEvent (.txUpdate sampleTx)
        (serverRun AddressLibrary.zeroHash sampleEvents)).2.filter
        (fun sent => sent.1 = "second") =
      if lastOperation (sampleEvents.flatMap (WsEvent.operations AddressLibrary.zeroHash))
          .txUpdate sampleTopic "second" = some true ∧ WsEvent.close "second" ∉ sampleEvents then
        [("second", .txUpdate
          { txId := sampleTopic, txStatus := "success", txType := "token_transfer" })]
      else [] :=
  (serverRun_exact sampleEvents_silent).2.2 (.txUpdate sampleTx) sampleTx.toDbTxBase rfl "second"

end StacksApi.Routes
