import StacksApi.Routes.Subscribed
import StacksApi.Transition.Actions

/-!
# The client of the subscriptions

`StacksApiWebSocketClient` of `client/src/ws/index.ts` with the server of
`api/routes/ws-rpc.ts` at the other end of the socket.  Requests, responses and
notifications are delivered in order.  The promise of a call is resolved when its
response arrives, and the call goes on some time later.
-/

namespace StacksApi.Client

open StacksApi.Datastore
open StacksApi.Collections
open StacksApi.Controllers
open StacksApi.Routes
open StacksApi.Transition

/-! ## The client -/

/-- A call that waits for its response. -/
structure PendingCall where
  subscribe : Bool
  kind : RpcSubscriptionType
  param : String
  deriving DecidableEq

/-- A subscribe call whose promise is resolved with the topic of the response. -/
structure Subscribed where
  id : Int
  kind : RpcSubscriptionType
  param : String
  topic : String
  deriving DecidableEq

/-- A subscription that a call has returned, with its listener.  `since` counts the
updates that the server had processed by then. -/
structure Subscription extends Subscribed where
  since : Nat
  deriving DecidableEq

/-- The state of `StacksApiWebSocketClient` with its emitter. -/
structure WebSocketClient where
  idCursor : Int
  pendingRequests : List (Int × PendingCall)
  /-- Resolved calls that have not gone on. -/
  resolved : List Subscribed
  /-- The listeners of the event emitter in order. -/
  listeners : List Subscription
  deriving DecidableEq

/-- The `event` of the parameters of a request. -/
def eventName : RpcSubscriptionType → String
  | .txUpdate => "tx_update"
  | .addressTxUpdate => "address_tx_update"
  | .addressBalanceUpdate => "address_balance_update"

/-- The parameters of a request for one of the three kinds of subscription. -/
def subscriptionParams (kind : RpcSubscriptionType) (param : String) : SubscriptionParams where
  event := some (eventName kind)
  txId := if kind = .txUpdate then some param else none
  address := if kind = .txUpdate then none else some param

/-- The request that a call sends. -/
def PendingCall.request (call : PendingCall) (id : Int) : RpcRequest where
  id := .number id
  method := if call.subscribe then "subscribe" else "unsubscribe"
  params := some (subscriptionParams call.kind call.param)

/-- `subscribed.tx_id` or `subscribed.address` -/
def resultTopic : SubscriptionResult → String
  | .txId value => value
  | .address value => value

namespace WebSocketClient

/-- A client that has just been connected. -/
def start : WebSocketClient where
  idCursor := 0
  pendingRequests := []
  resolved := []
  listeners := []

/-- `this.client.call`: the request gets the next id, and its call is pending. -/
def rpcCall (client : WebSocketClient) (call : PendingCall) : WebSocketClient × RpcRequest :=
  let id := client.idCursor + 1
  ({ client with
      idCursor := id
      pendingRequests := client.pendingRequests ++ [(id, call)] },
    call.request id)

/-- A call is taken out of the pending ones by the id of a response. -/
def settle (client : WebSocketClient) (id : Int) : WebSocketClient :=
  { client with pendingRequests := client.pendingRequests.filter fun entry => entry.1 ≠ id }

/-- `resolve(result)`: a subscribe call has the topic that the server has sent. -/
def resolve (client : WebSocketClient) (id : Int) (result : SubscriptionResult) :
    WebSocketClient :=
  match client.pendingRequests.lookup id with
  | none => client
  | some call =>
      let client := client.settle id
      if call.subscribe then
        { client with
          resolved := client.resolved ++
            [{ id, kind := call.kind, param := call.param, topic := resultTopic result }] }
      else client

/-- A response settles the call with its id; an error rejects it. -/
def handleResponse (client : WebSocketClient) : JsonRpc → WebSocketClient
  | .success (.number id) result => client.resolve id result
  | .error (.number id) _ => client.settle id
  | _ => client

end WebSocketClient

/-- The event of the emitter and the field that listeners compare. -/
def notificationTopic : RpcNotification → RpcSubscriptionType × String
  | .txUpdate params => (.txUpdate, params.txId)
  | .addressTxUpdate params => (.addressTxUpdate, params.address)
  | .addressBalanceUpdate params => (.addressBalanceUpdate, params.address)

/-- The listeners whose callbacks are called for a notification. -/
def WebSocketClient.notified (client : WebSocketClient) (notification : RpcNotification) :
    List Subscription :=
  client.listeners.filter fun listener =>
    notificationTopic notification = (listener.kind, listener.topic)

/-! ## Both ends of the socket -/

/-- What is on the way to the client.  Notifications are numbered with the update
that they report. -/
inductive SocketMessage
  | response (response : JsonRpc)
  | notification (update : Nat) (notification : RpcNotification)
  deriving DecidableEq

/-- The updates of an event, one for each notification that it may produce. -/
def updatesOf : DataStoreEvent → List (RpcSubscriptionType × String)
  | .txUpdate tx => [(.txUpdate, tx.txId)]
  | .mempoolTxUpdate tx => [(.txUpdate, tx.txId)]
  | .addressUpdate info =>
      info.txs.map (fun _ => (.addressTxUpdate, info.address)) ++
        [(.addressBalanceUpdate, info.address)]
  | .blockUpdate _ => []

/-- One client, the server, and what is on the way between them. -/
structure System (Peer : Type) where
  client : WebSocketClient
  server : WsServer Peer
  /-- Requests on the way to the server. -/
  requests : List RpcRequest
  /-- Messages on the way to the client. -/
  socket : List SocketMessage
  /-- The topics of the updates that the server has processed. -/
  updates : List (RpcSubscriptionType × String)
  /-- The updates of the jobs in the queue of the server. -/
  jobs : List Nat
  /-- The updates whose balance could not be read. -/
  failed : List Nat
  /-- All subscriptions that calls have returned. -/
  subscriptions : List Subscription
  /-- The calls of `unsubscribe`, with the number of updates by then. -/
  unsubscribed : List (Int × Nat)
  /-- The calls of callbacks, by subscription and update. -/
  calls : List (Int × Nat)

variable {Peer : Type}

/-- The client is connected, and nothing has happened yet. -/
def System.start : System Peer where
  client := WebSocketClient.start
  server := WsServer.start
  requests := []
  socket := []
  updates := []
  jobs := []
  failed := []
  subscriptions := []
  unsubscribed := []
  calls := []

/-- What may happen next. -/
inductive SystemAction (Peer : Type)
  | subscribe (kind : RpcSubscriptionType) (param : String)
  /-- A resolved call goes on: it adds its listener and returns. -/
  | resume (id : Int)
  | unsubscribe (id : Int)
  | deliverRequest
  | deliverMessage
  | dataStore (event : DataStoreEvent)
  | balance (balance : Option Int)
  /-- A message or the close of another client. -/
  | other (event : WsEvent Peer)
  deriving DecidableEq

variable [DecidableEq Peer] (addresses : AddressLibrary) (self : Peer)

/-- The messages of a response to the client. -/
def responseMessages : ServerMessage → List SocketMessage
  | .response response => [.response response]
  | .responses responses => responses.map .response
  | .notification _ => []

/-- What of some notifications is sent to the client, numbered from an update on. -/
def numbered (sent : List (Peer × RpcNotification)) (first : Nat) : List SocketMessage :=
  ((sent.filter fun message => message.1 = self).zipIdx first).map fun entry =>
    .notification entry.2 entry.1.2

/-- A call is made with the listeners that are left. -/
def System.send (state : System Peer) (listeners : List Subscription) (call : PendingCall) :
    System Peer :=
  let (client, req) := ({ state.client with listeners } : WebSocketClient).rpcCall call
  { state with client, requests := state.requests ++ [req] }

/-- A resolved call adds its listener and returns. -/
def System.resume (state : System Peer) (call : Subscribed) : System Peer :=
  let subscription : Subscription := { call with since := state.updates.length }
  { state with
    client := { state.client with
      resolved := state.client.resolved.filter fun other => other.id ≠ call.id
      listeners := state.client.listeners ++ [subscription] }
    subscriptions := state.subscriptions ++ [subscription] }

/-- `unsubscribe`: the listener is removed before the request is sent. -/
def System.leave (state : System Peer) (subscription : Subscription) : System Peer :=
  let listeners := state.client.listeners.filter fun listener => listener.id ≠ subscription.id
  let sent := state.send listeners
    { subscribe := false, kind := subscription.kind, param := subscription.param }
  { sent with
    unsubscribed := state.unsubscribed ++ [(subscription.id, state.updates.length)] }

/-- The server takes a request and responds. -/
def System.respond (state : System Peer) (req : RpcRequest) (requests : List RpcRequest) :
    System Peer :=
  let (server, messages) :=
    handleClientMessage addresses self (.single (.request req)) state.server
  { state with
    server
    requests
    socket := state.socket ++ messages.flatMap responseMessages }

/-- The client takes a response. -/
def System.settle (state : System Peer) (response : JsonRpc) (socket : List SocketMessage) :
    System Peer :=
  { state with client := state.client.handleResponse response, socket }

/-- The client takes a notification and calls back. -/
def System.notify (state : System Peer) (update : Nat) (notification : RpcNotification)
    (socket : List SocketMessage) : System Peer :=
  { state with
    socket
    calls := state.calls ++ (state.client.notified notification).map fun listener =>
      (listener.id, update) }

/-- The notifications of the transactions are sent at once, that of the balance, which
is the last update of the event, is left to the queue. -/
def System.announce (state : System Peer) (event : DataStoreEvent) : System Peer :=
  let (server, sent) := handleDataStoreEvent event state.server
  let first := state.updates.length
  let queued := server.addrBalanceProcessorQueue.length -
    state.server.addrBalanceProcessorQueue.length
  { state with
    server
    socket := state.socket ++ numbered self sent first
    updates := state.updates ++ updatesOf event
    jobs := state.jobs ++ List.replicate queued (first + (updatesOf event).length - 1) }

/-- The first job of the queue ends. -/
def System.runJob (state : System Peer) (balance : Option Int) (update : Nat) (jobs : List Nat) :
    System Peer :=
  let (server, sent) := runBalanceJob balance state.server
  { state with
    server
    jobs
    socket := state.socket ++ numbered self sent update
    failed := if balance = none then state.failed ++ [update] else state.failed }

/-- A step of the system. -/
def systemStep (state : System Peer) (action : SystemAction Peer) : Option (System Peer) :=
  match action with
  | .subscribe kind param =>
      some (state.send state.client.listeners { subscribe := true, kind, param })
  | .resume id =>
      (state.client.resolved.find? fun call => call.id = id).map state.resume
  | .unsubscribe id =>
      (state.subscriptions.find? fun subscription => subscription.id = id).map state.leave
  | .deliverRequest =>
      match state.requests with
      | [] => none
      | req :: requests => some (state.respond addresses self req requests)
  | .deliverMessage =>
      match state.socket with
      | [] => none
      | .response response :: socket => some (state.settle response socket)
      | .notification update notification :: socket =>
          some (state.notify update notification socket)
  | .dataStore event => some (state.announce self event)
  | .balance balance =>
      match state.jobs with
      | [] => none
      | update :: jobs => some (state.runJob self balance update jobs)
  | .other (.message client data) =>
      if client = self then none
      else some { state with server := serverStep addresses state.server (.message client data) }
  | .other (.close client) =>
      if client = self then none
      else some { state with server := serverStep addresses state.server (.close client) }
  | .other _ => none

/-! ## What a step does -/

/-- The event is a message or the close of another client. -/
def IsOther : WsEvent Peer → Prop
  | .message client _ => client ≠ self
  | .close client => client ≠ self
  | _ => False

/-- What an action does, where it is possible. -/
inductive SystemEffect (state : System Peer) : SystemAction Peer → System Peer → Prop
  | subscribe (kind : RpcSubscriptionType) (param : String) :
      SystemEffect state (.subscribe kind param)
        (state.send state.client.listeners { subscribe := true, kind, param })
  | resume {call : Subscribed} (mem : call ∈ state.client.resolved) :
      SystemEffect state (.resume call.id) (state.resume call)
  | unsubscribe {subscription : Subscription} (mem : subscription ∈ state.subscriptions) :
      SystemEffect state (.unsubscribe subscription.id) (state.leave subscription)
  | respond {req : RpcRequest} {requests : List RpcRequest}
      (first : state.requests = req :: requests) :
      SystemEffect state .deliverRequest (state.respond addresses self req requests)
  | settle {response : JsonRpc} {socket : List SocketMessage}
      (first : state.socket = .response response :: socket) :
      SystemEffect state .deliverMessage (state.settle response socket)
  | notify {update : Nat} {notification : RpcNotification} {socket : List SocketMessage}
      (first : state.socket = .notification update notification :: socket) :
      SystemEffect state .deliverMessage (state.notify update notification socket)
  | announce (event : DataStoreEvent) :
      SystemEffect state (.dataStore event) (state.announce self event)
  | runJob (balance : Option Int) {update : Nat} {jobs : List Nat}
      (first : state.jobs = update :: jobs) :
      SystemEffect state (.balance balance) (state.runJob self balance update jobs)
  | other {event : WsEvent Peer} (other : IsOther self event) :
      SystemEffect state (.other event)
        { state with server := serverStep addresses state.server event }

variable {addresses} {self}

/-- Every step has one of the effects. -/
theorem systemStep_effect {state state' : System Peer} {action : SystemAction Peer}
    (taken : systemStep addresses self state action = some state') :
    SystemEffect addresses self state action state' := by
  cases action with
  | subscribe kind param =>
      cases taken
      exact .subscribe kind param
  | resume id =>
      obtain ⟨call, found, rfl⟩ := Option.map_eq_some_iff.mp taken
      obtain rfl : call.id = id := by simpa using List.find?_some found
      exact .resume (List.mem_of_find?_eq_some found)
  | unsubscribe id =>
      obtain ⟨subscription, found, rfl⟩ := Option.map_eq_some_iff.mp taken
      obtain rfl : subscription.id = id := by simpa using List.find?_some found
      exact .unsubscribe (List.mem_of_find?_eq_some found)
  | deliverRequest =>
      dsimp only [systemStep] at taken
      split at taken
      · cases taken
      · next first =>
          cases taken
          exact .respond first
  | deliverMessage =>
      dsimp only [systemStep] at taken
      split at taken
      · cases taken
      · next first =>
          cases taken
          exact .settle first
      · next first =>
          cases taken
          exact .notify first
  | dataStore event =>
      cases taken
      exact .announce event
  | balance balance =>
      dsimp only [systemStep] at taken
      split at taken
      · cases taken
      · next first =>
          cases taken
          exact .runJob balance first
  | other event =>
      cases event with
      | message client data =>
          dsimp only [systemStep] at taken
          split at taken
          · cases taken
          · next differs =>
              cases taken
              exact .other differs
      | close client =>
          dsimp only [systemStep] at taken
          split at taken
          · cases taken
          · next differs =>
              cases taken
              exact .other differs
      | dataStore event => cases taken
      | balance balance => cases taken

end StacksApi.Client
