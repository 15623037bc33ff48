import StacksApi.Client.WebSocketClient

/-!
# The two ends agree

What holds of requests, responses and subscriptions in every state of the system
in which no subscription was left while another call of its topic was live: the
server keeps the client in the topic of every call that it has answered.
-/

namespace StacksApi.Client

open StacksApi.Datastore
open StacksApi.Collections
open StacksApi.Routes
open StacksApi.Transition

variable {Peer : Type} [DecidableEq Peer] {addresses : AddressLibrary} {peer : Peer}

/-! ## Operations of calls -/

/-- The topic that the server makes of the parameter of a call. -/
def PendingCall.topic (addresses : AddressLibrary) (call : PendingCall) : Option String :=
  subscriptionTopic addresses (subscriptionParams call.kind call.param) call.kind

/-- The result that a topic is sent in. -/
def topicResult (topic : String) : RpcSubscriptionType → SubscriptionResult
  | .txUpdate => .txId topic
  | _ => .address topic

@[simp]
theorem resultTopic_topicResult (topic : String) (kind : RpcSubscriptionType) :
    resultTopic (topicResult topic kind) = topic := by
  cases kind <;> rfl

theorem ofEvent_eventName (kind : RpcSubscriptionType) :
    RpcSubscriptionType.ofEvent (eventName kind) = some kind := by
  cases kind <;> decide

theorem operationOf_request (call : PendingCall) (id : Int) :
    operationOf addresses (call.request id) = (call.topic addresses).map fun topic =>
      { kind := call.kind, topic, subscribe := call.subscribe } := by
  obtain ⟨subscribe, kind, param⟩ := call
  have event : (subscriptionParams kind param).event.bind RpcSubscriptionType.ofEvent =
      some kind := ofEvent_eventName kind
  have method : (if (PendingCall.request ⟨subscribe, kind, param⟩ id).method = "subscribe" then
      some true
    else if (PendingCall.request ⟨subscribe, kind, param⟩ id).method = "unsubscribe" then
      some false
    else none) = some subscribe := by
    cases subscribe <;> rfl
  unfold operationOf
  dsimp only
  rw [method, Option.bind_some, PendingCall.request, Option.bind_some, event, Option.bind_some]
  rfl

theorem handleSubscription_response {kind : RpcSubscriptionType} {topic : Option String}
    {invalid : String} {result : String → SubscriptionResult} {id : RpcId} {subscribe : Bool}
    {server : WsServer Peer} :
    (handleSubscription kind topic invalid result peer id subscribe server).2 =
      topic.elim (.error id (.invalidParams invalid)) fun topic => .success id (result topic) := by
  cases topic <;> rfl

/-- The server answers with the topic of the call, or with an error. -/
theorem handleClientRpcReq_request (call : PendingCall) (id : Int) (server : WsServer Peer) :
    ∃ error, (handleClientRpcReq addresses peer (call.request id) server).2 =
      (call.topic addresses).elim (.error (.number id) error) fun topic =>
        .success (.number id) (topicResult topic call.kind) := by
  obtain ⟨subscribe, kind, param⟩ := call
  have answered : (handleClientRpcReq addresses peer
      (PendingCall.request ⟨subscribe, kind, param⟩ id) server).2 =
      (handleClientSubscription addresses peer
        (PendingCall.request ⟨subscribe, kind, param⟩ id) subscribe server).2 := by
    cases subscribe <;> rfl
  rw [answered]
  cases kind with
  | txUpdate => exact ⟨.invalidParams "invalid tx_id", handleSubscription_response⟩
  | addressTxUpdate => exact ⟨.invalidParams "invalid address", handleSubscription_response⟩
  | addressBalanceUpdate => exact ⟨.invalidParams "invalid address", handleSubscription_response⟩

/-- A call that succeeds has its id and its topic in the response. -/
theorem handleClientRpcReq_success {call : PendingCall} {id other : Int} {server : WsServer Peer}
    {result : SubscriptionResult}
    (answered : (handleClientRpcReq addresses peer (call.request id) server).2 =
      .success (.number other) result) :
    id = other ∧ call.topic addresses = some (resultTopic result) := by
  obtain ⟨error, answer⟩ := @handleClientRpcReq_request _ _ addresses peer call id server
  rw [answer] at answered
  cases found : call.topic addresses with
  | none =>
      rw [found] at answered
      cases answered
  | some topic =>
      rw [found] at answered
      cases answered
      rw [resultTopic_topicResult]
      exact ⟨rfl, rfl⟩

/-! ## The invariant -/

/-- The subscribe calls on a topic that have not been rejected or left. -/
def System.live (addresses : AddressLibrary) (state : System Peer) (kind : RpcSubscriptionType)
    (topic : String) : List Int :=
  (state.client.pendingRequests.filter fun entry => entry.2.subscribe ∧ entry.2.kind = kind ∧
      entry.2.topic addresses = some topic).map Prod.fst ++
    (state.client.resolved.filter fun call => call.kind = kind ∧ call.topic = topic).map
      Subscribed.id ++
    (state.client.listeners.filter fun listener => listener.kind = kind ∧
      listener.topic = topic).map fun listener => listener.id

/-- The ids of all calls that may have a subscription or get one. -/
def System.ids (state : System Peer) : List Int :=
  state.client.pendingRequests.map Prod.fst ++ state.client.resolved.map Subscribed.id ++
    state.subscriptions.map fun subscription => subscription.id

/-- The request that a message answers, if it is a response. -/
def SocketMessage.responseId : SocketMessage → Option RpcId
  | .response (.success id _) => some id
  | .response (.error id _) => some id
  | .notification _ _ => none

/-- The server has the client in the topic, and no request to leave it is on the way. -/
structure Connected (addresses : AddressLibrary) (peer : Peer) (server : WsServer Peer)
    (requests : List RpcRequest) (kind : RpcSubscriptionType) (topic : String) : Prop where
  member : peer ∈ server.subscribers kind topic
  kept : ∀ req ∈ requests, operationOf addresses req ≠ some { kind, topic, subscribe := false }

/-- No request to leave a topic follows one to join it. -/
def InOrder (addresses : AddressLibrary) (first second : RpcRequest) : Prop :=
  ∀ kind topic, operationOf addresses first = some { kind, topic, subscribe := true } →
    operationOf addresses second ≠ some { kind, topic, subscribe := false }

/-- Requests, pending calls and responses of a client and its server fit together. -/
structure Protocol (addresses : AddressLibrary) (peer : Peer) (state : System Peer) : Prop where
  nodup : state.ids.Nodup
  bound : ∀ id ∈ state.ids, id ≤ state.client.idCursor
  listeners : state.client.listeners.Sublist state.subscriptions
  /-- The call of every request on the way is pending. -/
  known : ∀ req ∈ state.requests, ∃ id call, (id, call) ∈ state.client.pendingRequests ∧
    req = call.request id
  order : state.requests.Pairwise (InOrder addresses)
  inFlight : (state.requests.map RpcRequest.id ++
    state.socket.filterMap SocketMessage.responseId).Nodup
  answers : ∀ response, .response response ∈ state.socket →
    ∃ id, (SocketMessage.response response).responseId = some (.number id)
  responseBound : ∀ id, .number id ∈ state.socket.filterMap SocketMessage.responseId →
    id ≤ state.client.idCursor
  responses : ∀ id result, .response (.success (.number id) result) ∈ state.socket →
    ∀ call, (id, call) ∈ state.client.pendingRequests → call.subscribe = true →
      call.topic addresses = some (resultTopic result) ∧
        Connected addresses peer state.server state.requests call.kind (resultTopic result)
  resolved : ∀ call ∈ state.client.resolved,
    PendingCall.topic addresses ⟨true, call.kind, call.param⟩ = some call.topic ∧
      Connected addresses peer state.server state.requests call.kind call.topic
  connected : ∀ listener ∈ state.client.listeners,
    Connected addresses peer state.server state.requests listener.kind listener.topic
  topics : ∀ subscription ∈ state.subscriptions,
    PendingCall.topic addresses ⟨true, subscription.kind, subscription.param⟩ =
      some subscription.topic

omit [DecidableEq Peer] in
theorem Protocol.start : Protocol addresses peer (System.start : System Peer) where
  nodup := List.nodup_nil
  bound := by rintro id ⟨⟩
  listeners := List.Sublist.refl _
  known := by rintro req ⟨⟩
  order := List.Pairwise.nil
  inFlight := List.nodup_nil
  answers := by rintro response ⟨⟩
  responseBound := by rintro id ⟨⟩
  responses := by rintro id result ⟨⟩
  resolved := by rintro call ⟨⟩
  connected := by rintro listener ⟨⟩
  topics := by rintro subscription ⟨⟩

section Live

variable {state : System Peer} {kind : RpcSubscriptionType} {topic : String}

omit [DecidableEq Peer] in
theorem mem_live_of_pending {id : Int} {call : PendingCall}
    (mem : (id, call) ∈ state.client.pendingRequests) (subscribes : call.subscribe = true)
    (found : call.topic addresses = some topic) : id ∈ state.live addresses call.kind topic := by
  apply List.mem_append_left
  apply List.mem_append_left
  exact List.mem_map_of_mem (f := Prod.fst) (List.mem_filter.mpr ⟨mem, by simp [subscribes, found]⟩)

omit [DecidableEq Peer] in
theorem mem_live_of_resolved {call : Subscribed} (mem : call ∈ state.client.resolved) :
    call.id ∈ state.live addresses call.kind call.topic := by
  apply List.mem_append_left
  apply List.mem_append_right
  exact List.mem_map_of_mem (List.mem_filter.mpr ⟨mem, by simp⟩)

omit [DecidableEq Peer] in
theorem mem_live_of_listener {listener : Subscription}
    (mem : listener ∈ state.client.listeners) :
    listener.id ∈ state.live addresses listener.kind listener.topic := by
  apply List.mem_append_right
  exact List.mem_map.mpr ⟨listener, List.mem_filter.mpr ⟨mem, by simp⟩, rfl⟩

end Live

section Connected

variable {server server' : WsServer Peer} {requests : List RpcRequest}
variable {kind : RpcSubscriptionType} {topic : String}

omit [DecidableEq Peer] in
/-- A request that does not leave the topic is sent. -/
theorem Connected.append (connected : Connected addresses peer server requests kind topic)
    {req : RpcRequest}
    (kept : operationOf addresses req ≠ some { kind, topic, subscribe := false }) :
    Connected addresses peer server (requests ++ [req]) kind topic where
  member := connected.member
  kept other mem := by
    rcases List.mem_append.mp mem with old | new
    · exact connected.kept other old
    · rw [List.mem_singleton.mp new]
      exact kept

theorem mem_subscribers_request {req : RpcRequest} :
    peer ∈ ((handleClientRpcReq addresses peer req server).1).subscribers kind topic ↔
      (operationOf addresses req = some { kind, topic, subscribe := true } ∨
        peer ∈ server.subscribers kind topic ∧
          operationOf addresses req ≠ some { kind, topic, subscribe := false }) := by
  rw [handleClientRpcReq_server]
  cases operationOf addresses req with
  | none => simp
  | some operation =>
      rw [Option.elim_some, mem_subscribers_perform]
      obtain ⟨kind', topic', subscribe⟩ := operation
      by_cases same : kind' = kind ∧ topic' = topic
      · obtain ⟨rfl, rfl⟩ := same
        cases subscribe <;> simp
      · have differs : ∀ value, some (Operation.mk kind' topic' subscribe) ≠
            some { kind, topic, subscribe := value } := by
          rintro value ⟨⟩
          exact same ⟨rfl, rfl⟩
        rw [if_neg (fun all => same all.2)]
        simp [differs]

/-- The server takes the first request, which does not leave the topic. -/
theorem Connected.deliver {req : RpcRequest}
    (connected : Connected addresses peer server (req :: requests) kind topic) :
    Connected addresses peer (handleClientRpcReq addresses peer req server).1 requests kind
      topic where
  member := by
    rw [mem_subscribers_request]
    exact Or.inr ⟨connected.member, connected.kept req List.mem_cons_self⟩
  kept other mem := connected.kept other (List.mem_cons_of_mem req mem)

omit [DecidableEq Peer] in
theorem Connected.congr (connected : Connected addresses peer server requests kind topic)
    (same : peer ∈ server.subscribers kind topic → peer ∈ server'.subscribers kind topic) :
    Connected addresses peer server' requests kind topic where
  member := same connected.member
  kept := connected.kept

end Connected

/-! ## The steps -/

section Steps

variable {state : System Peer}

omit [DecidableEq Peer] in
theorem ids_send (listeners : List Subscription) (call : PendingCall) :
    (state.send listeners call).ids.Perm ((state.client.idCursor + 1) :: state.ids) := by
  have appended : (state.send listeners call).ids =
      state.client.pendingRequests.map Prod.fst ++ (state.client.idCursor + 1) ::
        (state.client.resolved.map Subscribed.id ++
          state.subscriptions.map fun subscription => subscription.id) := by
    simp [System.ids, System.send, WebSocketClient.rpcCall]
  rw [appended, System.ids, List.append_assoc]
  exact List.perm_middle

omit [DecidableEq Peer] in
/-- The request of a call leaves no topic with a live call, and no topic that a
request on the way joins. -/
theorem Protocol.send (protocol : Protocol addresses peer state) {listeners : List Subscription}
    {call : PendingCall} (fewer : listeners.Sublist state.client.listeners)
    (keeps : ∀ kind topic id,
      id ∈ ({ state with client := { state.client with listeners } } : System Peer).live addresses
        kind topic →
      operationOf addresses (call.request (state.client.idCursor + 1)) ≠
        some { kind, topic, subscribe := false }) :
    Protocol addresses peer (state.send listeners call) where
  nodup := by
    rw [(ids_send listeners call).nodup_iff, List.nodup_cons]
    refine ⟨fun old => ?_, protocol.nodup⟩
    have bound := protocol.bound _ old
    omega
  bound id mem := by
    show id ≤ state.client.idCursor + 1
    rcases List.mem_cons.mp ((ids_send listeners call).mem_iff.mp mem) with rfl | old
    · exact le_refl _
    · have bound := protocol.bound id old
      omega
  listeners := fewer.trans protocol.listeners
  known req mem := by
    rcases List.mem_append.mp mem with old | new
    · obtain ⟨id, other, pending, same⟩ := protocol.known req old
      exact ⟨id, other, List.mem_append_left _ pending, same⟩
    · exact ⟨_, call, List.mem_append_right _ (List.mem_singleton_self _),
        List.mem_singleton.mp new⟩
  order := by
    rw [System.send, List.pairwise_append]
    refine ⟨protocol.order, List.pairwise_singleton _ _, ?_⟩
    intro first mem second isNew kind topic joins
    rw [List.mem_singleton.mp isNew]
    obtain ⟨id, other, pending, rfl⟩ := protocol.known first mem
    rw [operationOf_request] at joins
    obtain ⟨found, isTopic, same⟩ := Option.map_eq_some_iff.mp joins
    rw [Operation.mk.injEq] at same
    obtain ⟨rfl, rfl, subscribes⟩ := same
    exact keeps _ _ id (mem_live_of_pending pending subscribes isTopic)
  inFlight := by
    have fresh : RpcId.number (state.client.idCursor + 1) ∉
        state.requests.map RpcRequest.id ++
          state.socket.filterMap SocketMessage.responseId := by
      rw [List.mem_append]
      rintro (requested | responded)
      · obtain ⟨req, mem, same⟩ := List.mem_map.mp requested
        obtain ⟨id, other, pending, rfl⟩ := protocol.known req mem
        cases same
        have bound := protocol.bound _ (List.mem_append_left _ (List.mem_append_left _
          (List.mem_map_of_mem pending)))
        dsimp only at bound
        omega
      · have bound := protocol.responseBound _ responded
        omega
    have perm : ((state.send listeners call).requests.map RpcRequest.id ++
        (state.send listeners call).socket.filterMap SocketMessage.responseId).Perm
          (.number (state.client.idCursor + 1) :: (state.requests.map RpcRequest.id ++
            state.socket.filterMap SocketMessage.responseId)) := by
      simp only [System.send, List.map_append, List.append_assoc]
      exact List.perm_middle
    rw [perm.nodup_iff, List.nodup_cons]
    exact ⟨fresh, protocol.inFlight⟩
  answers := protocol.answers
  responseBound id mem := by
    show id ≤ state.client.idCursor + 1
    have bound := protocol.responseBound id mem
    omega
  responses id result mem other pending subscribes := by
    rcases List.mem_append.mp pending with old | new
    · obtain ⟨topic, connected⟩ := protocol.responses id result mem other old subscribes
      refine ⟨topic, connected.append (keeps _ _ id ?_)⟩
      exact mem_live_of_pending old subscribes topic
    · cases List.mem_singleton.mp new
      have responded : RpcId.number (state.client.idCursor + 1) ∈
          state.socket.filterMap SocketMessage.responseId :=
        List.mem_filterMap.mpr ⟨_, mem, rfl⟩
      have bound := protocol.responseBound _ responded
      omega
  resolved other mem := by
    obtain ⟨topic, connected⟩ := protocol.resolved other mem
    exact ⟨topic, connected.append (keeps _ _ other.id (mem_live_of_resolved mem))⟩
  connected listener mem :=
    (protocol.connected listener (fewer.subset mem)).append
      (keeps _ _ listener.id (mem_live_of_listener mem))
  topics := protocol.topics

omit [DecidableEq Peer] in
/-- The server keeps the client in its topics, and only notifications are sent. -/
theorem Protocol.congr (protocol : Protocol addresses peer state) (state' : System Peer)
    (client : state'.client = state.client) (requests : state'.requests = state.requests)
    (subscriptions : state'.subscriptions = state.subscriptions)
    (member : ∀ kind topic, peer ∈ state.server.subscribers kind topic →
      peer ∈ state'.server.subscribers kind topic)
    (responseIds : state'.socket.filterMap SocketMessage.responseId =
      state.socket.filterMap SocketMessage.responseId)
    (responses : ∀ response, .response response ∈ state'.socket →
      .response response ∈ state.socket) : Protocol addresses peer state' where
  nodup := by
    rw [System.ids, client, subscriptions]
    exact protocol.nodup
  bound := by
    rw [System.ids, client, subscriptions]
    exact protocol.bound
  listeners := by
    rw [client, subscriptions]
    exact protocol.listeners
  known := by
    rw [client, requests]
    exact protocol.known
  order := by
    rw [requests]
    exact protocol.order
  inFlight := by
    rw [requests, responseIds]
    exact protocol.inFlight
  answers response mem := protocol.answers response (responses response mem)
  responseBound := by
    rw [client, responseIds]
    exact protocol.responseBound
  responses id result mem call pending subscribes := by
    rw [client] at pending
    rw [requests]
    obtain ⟨topic, connected⟩ := protocol.responses id result (responses _ mem) call pending
      subscribes
    exact ⟨topic, connected.congr (member _ _)⟩
  resolved call mem := by
    rw [client] at mem
    rw [requests]
    obtain ⟨topic, connected⟩ := protocol.resolved call mem
    exact ⟨topic, connected.congr (member _ _)⟩
  connected listener mem := by
    rw [client] at mem
    rw [requests]
    exact (protocol.connected listener mem).congr (member _ _)
  topics := by
    rw [subscriptions]
    exact protocol.topics

theorem perm_cons_filter_ne {α : Type} {key : α → Int} {entries : List α} {entry : α}
    (nodup : (entries.map key).Nodup) (mem : entry ∈ entries) :
    entries.Perm (entry :: entries.filter fun other => key other ≠ key entry) := by
  induction entries with
  | nil => cases mem
  | cons head entries ih =>
      rw [List.map_cons, List.nodup_cons] at nodup
      rcases List.mem_cons.mp mem with rfl | mem
      · have others : entries.filter (fun other => key other ≠ key entry) = entries := by
          rw [List.filter_eq_self]
          intro other otherMem
          apply decide_eq_true
          intro same
          exact nodup.1 (same ▸ List.mem_map_of_mem otherMem)
        rw [List.filter_cons_of_neg (by simp), others]
      · have differs : key head ≠ key entry := by
          intro same
          exact nodup.1 (same ▸ List.mem_map_of_mem mem)
        rw [List.filter_cons_of_pos (by simpa using differs)]
        exact ((ih nodup.2 mem).cons head).trans (List.Perm.swap entry head _)

omit [DecidableEq Peer] in
theorem Protocol.ids_resume (protocol : Protocol addresses peer state) {call : Subscribed}
    (mem : call ∈ state.client.resolved) : (state.resume call).ids.Perm state.ids := by
  have nodup : (state.client.resolved.map Subscribed.id).Nodup :=
    (List.nodup_append.mp (List.nodup_append.mp protocol.nodup).1).2.1
  have moved := (perm_cons_filter_ne nodup mem).map Subscribed.id
  rw [System.ids, System.ids, System.resume, List.map_append, List.append_assoc, List.append_assoc]
  apply List.Perm.append_left
  rw [← List.append_assoc]
  refine List.Perm.trans ?_ (moved.append_right _).symm
  simp only [List.map_cons, List.map_nil]
  exact List.perm_append_singleton _ _

omit [DecidableEq Peer] in
theorem Protocol.resume (protocol : Protocol addresses peer state) {call : Subscribed}
    (mem : call ∈ state.client.resolved) : Protocol addresses peer (state.resume call) where
  nodup := (protocol.ids_resume mem).nodup_iff.mpr protocol.nodup
  bound id isId := protocol.bound id ((protocol.ids_resume mem).mem_iff.mp isId)
  listeners := protocol.listeners.append (List.Sublist.refl _)
  known := protocol.known
  order := protocol.order
  inFlight := protocol.inFlight
  answers := protocol.answers
  responseBound := protocol.responseBound
  responses := protocol.responses
  resolved other isResolved := protocol.resolved other (List.mem_of_mem_filter isResolved)
  connected listener isListener := by
    rcases List.mem_append.mp isListener with old | new
    · exact protocol.connected listener old
    · rw [List.mem_singleton.mp new]
      exact (protocol.resolved call mem).2
  topics subscription isSubscription := by
    rcases List.mem_append.mp isSubscription with old | new
    · exact protocol.topics subscription old
    · rw [List.mem_singleton.mp new]
      exact (protocol.resolved call mem).1

omit [DecidableEq Peer] in
theorem Protocol.pending_unique (protocol : Protocol addresses peer state) {id : Int}
    {first second : PendingCall} (firstMem : (id, first) ∈ state.client.pendingRequests)
    (secondMem : (id, second) ∈ state.client.pendingRequests) : first = second := by
  have nodup := (List.nodup_append.mp (List.nodup_append.mp protocol.nodup).1).1
  exact congrArg Prod.snd (List.inj_on_of_nodup_map nodup firstMem secondMem rfl)

theorem respond_eq (req : RpcRequest) (requests : List RpcRequest) :
    state.respond addresses peer req requests =
      { state with
        server := (handleClientRpcReq addresses peer req state.server).1
        requests
        socket := state.socket ++
          [.response (handleClientRpcReq addresses peer req state.server).2] } :=
  rfl

theorem Protocol.respond (protocol : Protocol addresses peer state) {req : RpcRequest}
    {requests : List RpcRequest} (first : state.requests = req :: requests) :
    Protocol addresses peer (state.respond addresses peer req requests) := by
  obtain ⟨id, call, pending, rfl⟩ := protocol.known req (first ▸ List.mem_cons_self)
  obtain ⟨error, answer⟩ := @handleClientRpcReq_request _ _ addresses peer call id state.server
  have deliver : ∀ {kind topic},
      Connected addresses peer state.server state.requests kind topic →
        Connected addresses peer (handleClientRpcReq addresses peer (call.request id)
          state.server).1 requests kind topic := by
    intro kind topic connected
    rw [first] at connected
    exact connected.deliver
  have order := protocol.order
  rw [first, List.pairwise_cons] at order
  have responseId : (SocketMessage.response (handleClientRpcReq addresses peer (call.request id)
      state.server).2).responseId = some (.number id) := by
    rw [answer]
    cases call.topic addresses <;> rfl
  have perm : (requests.map RpcRequest.id ++ (state.socket ++ [SocketMessage.response
      (handleClientRpcReq addresses peer (call.request id) state.server).2]).filterMap
        SocketMessage.responseId).Perm
      (state.requests.map RpcRequest.id ++ state.socket.filterMap SocketMessage.responseId) := by
    simp only [first, List.filterMap_append, List.filterMap_cons, responseId,
      List.filterMap_nil, List.map_cons, ← List.append_assoc]
    exact List.perm_append_singleton _ _
  have socketIds : ∀ other, .number other ∈ (state.socket ++ [SocketMessage.response
      (handleClientRpcReq addresses peer (call.request id) state.server).2]).filterMap
        SocketMessage.responseId →
      other = id ∨ .number other ∈ state.socket.filterMap SocketMessage.responseId := by
    intro other mem
    rw [List.filterMap_append, List.mem_append] at mem
    rcases mem with old | new
    · exact Or.inr old
    · simp only [List.filterMap_cons, responseId, List.filterMap_nil, List.mem_singleton] at new
      cases new
      exact Or.inl rfl
  rw [respond_eq]
  exact
    { nodup := protocol.nodup
      bound := protocol.bound
      listeners := protocol.listeners
      known := fun req mem => protocol.known req (first ▸ List.mem_cons_of_mem _ mem)
      order := order.2
      inFlight := perm.nodup_iff.mpr protocol.inFlight
      answers := by
        intro response mem
        rcases List.mem_append.mp mem with old | new
        · exact protocol.answers response old
        · rw [List.mem_singleton.mp new]
          exact ⟨id, responseId⟩
      responseBound := by
        intro other mem
        rcases socketIds other mem with rfl | old
        · exact protocol.bound _ (List.mem_append_left _ (List.mem_append_left _
            (List.mem_map_of_mem pending)))
        · exact protocol.responseBound other old
      responses := by
        intro other result mem otherCall otherPending subscribes
        rcases List.mem_append.mp mem with old | new
        · obtain ⟨topic, connected⟩ := protocol.responses other result old otherCall
            otherPending subscribes
          exact ⟨topic, deliver connected⟩
        · have response := SocketMessage.response.inj (List.mem_singleton.mp new)
          obtain ⟨rfl, isTopic⟩ := handleClientRpcReq_success response.symm
          obtain rfl := protocol.pending_unique pending otherPending
          have joins : operationOf addresses (call.request id) =
              some { kind := call.kind, topic := resultTopic result, subscribe := true } := by
            rw [operationOf_request, isTopic, subscribes]
            rfl
          exact ⟨isTopic, mem_subscribers_request.mpr (Or.inl joins),
            fun req mem => order.1 req mem _ _ joins⟩
      resolved := by
        intro other mem
        obtain ⟨topic, connected⟩ := protocol.resolved other mem
        exact ⟨topic, deliver connected⟩
      connected := fun listener mem => deliver (protocol.connected listener mem)
      topics := protocol.topics }

/-- What is left when a call is settled, and a subscribe call resolved. -/
structure Settled (client client' : WebSocketClient) (id : Int) : Prop where
  idCursor : client'.idCursor = client.idCursor
  listeners : client'.listeners = client.listeners
  pending : ∀ entry, entry ∈ client'.pendingRequests →
    entry ∈ client.pendingRequests ∧ entry.1 ≠ id
  kept : ∀ entry, entry ∈ client.pendingRequests → entry.1 ≠ id → entry ∈ client'.pendingRequests

theorem WebSocketClient.settled (client : WebSocketClient) (id : Int) :
    Settled client (client.settle id) id where
  idCursor := rfl
  listeners := rfl
  pending entry mem := by simpa [WebSocketClient.settle] using mem
  kept entry mem differs := by simpa [WebSocketClient.settle] using ⟨mem, differs⟩

/-- A response to a call takes it out of the pending ones. -/
theorem WebSocketClient.settled_handleResponse (client : WebSocketClient) {response : JsonRpc}
    {id : Int} (responseId : (SocketMessage.response response).responseId = some (.number id)) :
    Settled client (client.handleResponse response) id ∧
      ((client.handleResponse response).resolved = client.resolved ∧
          ((client.handleResponse response).pendingRequests.map Prod.fst).Sublist
            (client.pendingRequests.map Prod.fst) ∨
        ∃ call result, response = .success (.number id) result ∧
          (id, call) ∈ client.pendingRequests ∧ call.subscribe = true ∧
          (client.handleResponse response).resolved = client.resolved ++
            [{ id, kind := call.kind, param := call.param, topic := resultTopic result }] ∧
          (client.handleResponse response).pendingRequests =
            client.pendingRequests.filter fun entry => entry.1 ≠ id) := by
  have fewer : ((client.settle id).pendingRequests.map Prod.fst).Sublist
      (client.pendingRequests.map Prod.fst) := List.filter_sublist.map Prod.fst
  cases response with
  | error errorId error =>
      cases responseId
      exact ⟨client.settled id, Or.inl ⟨rfl, fewer⟩⟩
  | success successId result =>
      cases responseId
      rw [WebSocketClient.handleResponse, WebSocketClient.resolve]
      split
      · next absent =>
          have notPending := lookup_eq_none_iff_notMem.mp absent
          refine ⟨⟨rfl, rfl, ?_, fun entry mem _ => mem⟩, Or.inl ⟨rfl, List.Sublist.refl _⟩⟩
          intro entry mem
          refine ⟨mem, ?_⟩
          rintro rfl
          exact notPending (List.mem_map_of_mem mem)
      · next call found =>
          obtain ⟨before, after, split, -⟩ := List.lookup_eq_some_iff.mp found
          have pending : (id, call) ∈ client.pendingRequests := by
            rw [split]
            exact List.mem_append_right _ List.mem_cons_self
          dsimp only
          split
          · next subscribes =>
              refine ⟨⟨rfl, rfl, (client.settled id).pending, (client.settled id).kept⟩, Or.inr ?_⟩
              exact ⟨call, result, rfl, pending, subscribes, rfl, rfl⟩
          · exact ⟨client.settled id, Or.inl ⟨rfl, fewer⟩⟩

omit [DecidableEq Peer] in
/-- A response moves or removes an id. -/
theorem Protocol.ids_settle (protocol : Protocol addresses peer state) {response : JsonRpc}
    {id : Int}
    (socket : List SocketMessage)
    (responseId : (SocketMessage.response response).responseId = some (.number id)) :
    (state.settle response socket).ids.Subperm state.ids := by
  obtain ⟨-, outcome⟩ := state.client.settled_handleResponse responseId
  rcases outcome with ⟨resolved, fewer⟩ | ⟨call, result, -, pending, -, resolved, left⟩
  · apply List.Sublist.subperm
    rw [System.ids, System.ids, System.settle, resolved]
    exact (fewer.append (List.Sublist.refl _)).append (List.Sublist.refl _)
  · apply List.Perm.subperm
    have nodup := (List.nodup_append.mp (List.nodup_append.mp protocol.nodup).1).1
    have moved := (perm_cons_filter_ne nodup pending).map Prod.fst
    rw [System.ids, System.ids, System.settle, resolved, left, List.map_append]
    apply List.Perm.append_right
    rw [← List.append_assoc]
    refine (List.perm_append_singleton _ _).trans ?_
    exact (moved.append_right _).symm

omit [DecidableEq Peer] in
/-- The client takes the first message, a response. -/
theorem Protocol.settle (protocol : Protocol addresses peer state) {response : JsonRpc}
    {socket : List SocketMessage} (first : state.socket = .response response :: socket) :
    Protocol addresses peer (state.settle response socket) := by
  obtain ⟨id, responseId⟩ := protocol.answers response (first ▸ List.mem_cons_self)
  obtain ⟨settled, outcome⟩ := state.client.settled_handleResponse responseId
  have socketIds : state.socket.filterMap SocketMessage.responseId =
      .number id :: socket.filterMap SocketMessage.responseId := by
    rw [first, List.filterMap_cons, responseId]
  have inFlight := protocol.inFlight
  rw [socketIds] at inFlight
  -- no request on the way has the id of the response
  have apart : ∀ req ∈ state.requests, req.id ≠ .number id := by
    intro req mem same
    exact (List.nodup_append.mp inFlight).2.2 _ (List.mem_map_of_mem mem) _ List.mem_cons_self same
  obtain ⟨ids, perm, fewer⟩ := protocol.ids_settle socket responseId
  exact
    { nodup := perm.nodup_iff.mp (protocol.nodup.sublist fewer)
      bound := by
        intro other mem
        show other ≤ (state.client.handleResponse response).idCursor
        rw [settled.idCursor]
        exact protocol.bound other (fewer.subset (perm.mem_iff.mpr mem))
      listeners := by
        show (state.client.handleResponse response).listeners.Sublist state.subscriptions
        rw [settled.listeners]
        exact protocol.listeners
      known := by
        intro req mem
        obtain ⟨other, call, pending, rfl⟩ := protocol.known req mem
        refine ⟨other, call, settled.kept _ pending ?_, rfl⟩
        rintro rfl
        exact apart _ mem rfl
      order := protocol.order
      answers := fun response mem => protocol.answers response (first ▸ List.mem_cons_of_mem _ mem)
      inFlight := inFlight.sublist ((List.Sublist.refl _).append (List.sublist_cons_self _ _))
      responseBound := by
        intro other mem
        show other ≤ (state.client.handleResponse response).idCursor
        rw [settled.idCursor]
        apply protocol.responseBound other
        rw [socketIds]
        exact List.mem_cons_of_mem _ mem
      responses := by
        intro other result mem call pending subscribes
        exact protocol.responses other result (first ▸ List.mem_cons_of_mem _ mem) call
          (settled.pending _ pending).1 subscribes
      resolved := by
        intro other mem
        rcases outcome with ⟨same, -⟩ | ⟨call, result, rfl, pending, subscribes, added, -⟩
        · exact protocol.resolved other (same ▸ mem)
        · have mem : other ∈ state.client.resolved ++ _ := added ▸ mem
          rcases List.mem_append.mp mem with old | new
          · exact protocol.resolved other old
          · rw [List.mem_singleton.mp new]
            have answered := protocol.responses id result (first ▸ List.mem_cons_self) call pending
              subscribes
            obtain ⟨subscribe, kind, param⟩ := call
            obtain rfl : subscribe = true := subscribes
            exact answered
      connected := by
        intro listener mem
        apply protocol.connected listener
        rw [← settled.listeners]
        exact mem
      topics := protocol.topics }

theorem notMem_numbered {sent : List (Peer × RpcNotification)} {first : Nat} (response : JsonRpc) :
    .response response ∉ numbered peer sent first := by
  intro mem
  obtain ⟨entry, -, same⟩ := List.mem_map.mp mem
  cases same

theorem filterMap_numbered {sent : List (Peer × RpcNotification)} {first : Nat} :
    (numbered peer sent first).filterMap SocketMessage.responseId = [] := by
  rw [List.filterMap_eq_nil_iff]
  intro message mem
  obtain ⟨entry, -, rfl⟩ := List.mem_map.mp mem
  rfl

/-- Notifications are sent, and the client stays in its topics. -/
theorem Protocol.notify (protocol : Protocol addresses peer state) (state' : System Peer)
    (client : state'.client = state.client) (requests : state'.requests = state.requests)
    (subscriptions : state'.subscriptions = state.subscriptions)
    (member : ∀ kind topic, peer ∈ state.server.subscribers kind topic →
      peer ∈ state'.server.subscribers kind topic)
    {sent : List (Peer × RpcNotification)} {first : Nat}
    (socket : state'.socket = state.socket ++ numbered peer sent first) :
    Protocol addresses peer state' := by
  apply protocol.congr state' client requests subscriptions member
  · rw [socket, List.filterMap_append, filterMap_numbered, List.append_nil]
  · intro response mem
    rw [socket] at mem
    rcases List.mem_append.mp mem with old | new
    · exact old
    · exact absurd new (notMem_numbered response)

/-- Messages and closes of other clients change nothing for this one. -/
theorem mem_subscribers_other {event : WsEvent Peer} {server : WsServer Peer}
    (other : IsOther peer event) {kind : RpcSubscriptionType} {topic : String} :
    peer ∈ (serverStep addresses server event).subscribers kind topic ↔
      peer ∈ server.subscribers kind topic := by
  cases event with
  | message client data =>
      have none : lastOperation ((WsEvent.message client data).operations addresses) kind topic
          peer = none := by
        rw [lastOperation, Option.map_eq_none_iff, List.getLast?_eq_none_iff,
          List.filter_eq_nil_iff]
        intro operation mem own
        obtain ⟨asked, -, rfl⟩ := List.mem_map.mp mem
        exact other (of_decide_eq_true own).1
      rw [serverStep, handleClientMessage_server, mem_subscribers_performs, none]
      rfl
  | close client =>
      rw [serverStep, mem_subscribers_close]
      exact and_iff_left (Ne.symm other)
  | dataStore event => cases other
  | balance balance => cases other

end Steps

/-! ## Runs -/

/-- A notification of the update is on the way, or its balance is still to be read. -/
def System.OnTheWay (state : System Peer) (update : Nat) : Prop :=
  update ∈ state.jobs ∨ ∃ notification, .notification update notification ∈ state.socket

/-- An update of the topic that the server has processed after the subscribe call was
resolved and before `unsubscribe` was called. -/
def System.InWindow (state : System Peer) (subscription : Subscription) (update : Nat) : Prop :=
  subscription ∈ state.subscriptions ∧
    state.updates[update]? = some (subscription.kind, subscription.topic) ∧
    subscription.since ≤ update ∧
    ∀ entry ∈ state.unsubscribed, entry.1 = subscription.id → update < entry.2

/-- A subscription is left only when no other call of its topic is live and no
notification of its window is on the way. -/
def Alone (addresses : AddressLibrary) (state : System Peer) : SystemAction Peer → Prop
  | .unsubscribe id => ∀ subscription ∈ state.subscriptions, subscription.id = id →
      (∀ other ∈ state.live addresses subscription.kind subscription.topic, other = id) ∧
        ∀ update, state.InWindow subscription update → ¬state.OnTheWay update
  | _ => True

omit [DecidableEq Peer] in
/-- When a subscription was the only live call of its topic, none is left without
its listener. -/
theorem Protocol.notMem_live {state : System Peer} (protocol : Protocol addresses peer state)
    {subscription : Subscription} (mem : subscription ∈ state.subscriptions)
    (alone : ∀ other ∈ state.live addresses subscription.kind subscription.topic,
      other = subscription.id) {other : Int} :
    other ∉ ({ state with
        client := { state.client with
          listeners := state.client.listeners.filter fun listener =>
            listener.id ≠ subscription.id } } : System Peer).live addresses
      subscription.kind subscription.topic := by
  intro live
  obtain ⟨-, -, apart⟩ := List.nodup_append.mp protocol.nodup
  have isSubscription : subscription.id ∈ state.subscriptions.map fun subscription =>
      subscription.id := List.mem_map_of_mem (f := fun subscription => subscription.id) mem
  rcases List.mem_append.mp live with early | listening
  · have isLive : other ∈ state.live addresses subscription.kind subscription.topic :=
      List.mem_append_left _ early
    have isCall : other ∈ state.client.pendingRequests.map Prod.fst ++
        state.client.resolved.map Subscribed.id := by
      rcases List.mem_append.mp early with pending | resolved
      · exact List.mem_append_left _ ((List.filter_sublist.map Prod.fst).subset pending)
      · exact List.mem_append_right _ ((List.filter_sublist.map Subscribed.id).subset resolved)
    exact apart other isCall subscription.id isSubscription (alone other isLive)
  · obtain ⟨listener, listenerMem, rfl⟩ := List.mem_map.mp listening
    obtain ⟨kept, onTopic⟩ := List.mem_filter.mp listenerMem
    obtain ⟨old, differs⟩ := List.mem_filter.mp kept
    apply of_decide_eq_true differs
    apply alone
    apply List.mem_append_right
    exact List.mem_map.mpr ⟨listener, List.mem_filter.mpr ⟨old, onTopic⟩, rfl⟩

theorem Protocol.step {state state' : System Peer} {action : SystemAction Peer}
    (protocol : Protocol addresses peer state) (alone : Alone addresses state action)
    (effect : SystemEffect addresses peer state action state') :
    Protocol addresses peer state' := by
  cases effect with
  | subscribe kind param =>
      apply protocol.send (List.Sublist.refl _)
      intro kind topic id _ leaves
      rw [operationOf_request] at leaves
      obtain ⟨found, -, same⟩ := Option.map_eq_some_iff.mp leaves
      cases same
  | resume mem => exact protocol.resume mem
  | @unsubscribe subscription mem =>
      have sent : Protocol addresses peer (state.send
          (state.client.listeners.filter fun listener => listener.id ≠ subscription.id)
          { subscribe := false, kind := subscription.kind, param := subscription.param }) := by
        apply protocol.send List.filter_sublist
        intro kind topic other live leaves
        rw [operationOf_request] at leaves
        obtain ⟨left, isTopic, same⟩ := Option.map_eq_some_iff.mp leaves
        cases same
        cases (protocol.topics _ mem).symm.trans isTopic
        exact protocol.notMem_live mem (alone _ mem rfl).1 live
      exact sent.congr _ rfl rfl rfl (fun _ _ mem => mem) rfl (fun _ mem => mem)
  | respond first => exact protocol.respond first
  | settle first => exact protocol.settle first
  | notify first =>
      refine protocol.congr _ rfl rfl rfl (fun _ _ mem => mem) ?_ ?_
      · rw [first]
        rfl
      · intro response mem
        rw [first]
        exact List.mem_cons_of_mem _ mem
  | announce event =>
      apply protocol.notify (state.announce peer event) rfl rfl rfl _ rfl
      intro kind topic mem
      rw [WsServer.subscribers] at mem ⊢
      rw [← manager_handleDataStoreEvent event] at mem
      exact mem
  | runJob balance first =>
      refine protocol.notify _ rfl rfl rfl ?_ rfl
      intro kind topic mem
      rw [WsServer.subscribers] at mem ⊢
      rw [← manager_runBalanceJob balance] at mem
      exact mem
  | @other event other =>
      refine protocol.congr _ rfl rfl rfl ?_ rfl (fun _ mem => mem)
      intro kind topic mem
      exact (mem_subscribers_other other).mpr mem

end StacksApi.Client
