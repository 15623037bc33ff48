import StacksApi.Collections.SetMap
import StacksApi.Routes.WsRpc

/-!
# The subscriptions of the server

`SubscriptionManager` and the router of `api/routes/ws-rpc.ts`: requests of
clients, closed sockets, events of the data store and the queue that reads
balances.
-/

namespace StacksApi.Routes

open StacksApi.Binary
open StacksApi.Text
open StacksApi.Collections
open StacksApi.Datastore
open StacksApi.Controllers

/-! ## Topics -/

/-- `id.substr(0, 2).toLowerCase() === '0x'` -/
def has0xPrefix (id : String) : Bool :=
  id.toList.take 2 == ['0', 'x'] || id.toList.take 2 == ['0', 'X']

/-- The lower-case and prefixed text of 32 bytes of hexadecimal digits. -/
def normalizeHashString (input : String) : Option String :=
  let hashBuffer : Option Buffer :=
    if utf16Length input = 66 ∧ has0xPrefix input = true then some (fromHex (input.toList.drop 2))
    else if utf16Length input = 64 then some (fromHex input.toList)
    else none
  match hashBuffer with
  | none => none
  | some hashBuffer =>
      if hashBuffer.length ≠ 32 then none else some (bufferToHexPrefixString hashBuffer)

/-- The text is that of an address. -/
def isValidC32Address (addresses : AddressLibrary) (stxAddress : String) : Bool :=
  match addresses.c32addressDecode stxAddress with
  | .ok _ => true
  | .error _ => false

/-- `/^[a-zA-Z]([a-zA-Z0-9]|[-_])*$/` -/
def matchesContractName : List Char → Bool
  | [] => false
  | first :: rest =>
      first.isAlpha && rest.all fun char => char.isAlphanum || char == '-' || char == '_'

/-- The text is a name that a contract may have. -/
def isValidContractName (contractName : String) : Bool :=
  if 128 < utf16Length contractName ∨ utf16Length contractName < 5 then false
  else matchesContractName contractName.toList

/-- Kinds of principals. -/
inductive PrincipalType
  | standardAddress
  | contractAddress
  deriving DecidableEq

/-- Only the first two of the parts between dots are looked at. -/
def isValidPrincipal (addresses : AddressLibrary) (principal : String) : Option PrincipalType :=
  if principal = "" then none
  else
    match principal.toList.splitOn '.' with
    | addr :: contractName :: _ =>
        if isValidC32Address addresses (String.ofList addr) = false then none
        else if isValidContractName (String.ofList contractName) = false then none
        else some .contractAddress
    | _ => if isValidC32Address addresses principal then some .standardAddress else none

/-! ## Subscription managers -/

/-- A subscription manager with the listeners on `close` that it has added to the
sockets, in order.  Every subscriber has one for its topic. -/
structure SubscriptionManager (Client : Type) where
  subscriptions : SetMap String Client
  closeListeners : List (Client × String)
  listening : ∀ topicId, ∀ client ∈ subscriptions.members topicId,
    (client, topicId) ∈ closeListeners

namespace SubscriptionManager

variable {Client : Type}

/-- Nobody has subscribed. -/
def empty : SubscriptionManager Client where
  subscriptions := SetMap.empty
  closeListeners := []
  listening := by
    rintro topicId client ⟨⟩

variable [DecidableEq Client]

/-- A client subscribes to a topic, and its socket is listened to. -/
def addSubscription (manager : SubscriptionManager Client) (client : Client) (topicId : String) :
    SubscriptionManager Client where
  subscriptions := manager.subscriptions.insert topicId client
  closeListeners := manager.closeListeners ++ [(client, topicId)]
  listening := by
    intro topic subscriber mem
    rw [List.mem_append, List.mem_singleton]
    rcases SetMap.mem_members_insert.mp mem with ⟨rfl, rfl⟩ | old
    · exact Or.inr rfl
    · exact Or.inl (manager.listening topic subscriber old)

/-- A client leaves a topic. -/
def removeSubscription (manager : SubscriptionManager Client) (client : Client)
    (topicId : String) : SubscriptionManager Client :=
  { manager with
    subscriptions := manager.subscriptions.erase topicId client
    listening := fun topic subscriber mem =>
      manager.listening topic subscriber (SetMap.mem_members_erase.mp mem).1 }

/-- The socket of a client emits `close`: its listeners run in order. -/
def closed (manager : SubscriptionManager Client) (client : Client) :
    SubscriptionManager Client :=
  (manager.closeListeners.filter fun listener => listener.1 = client).foldl
    (fun manager listener => manager.removeSubscription client listener.2) manager

variable {manager : SubscriptionManager Client} {client subscriber : Client}
variable {topicId topic : String}

omit [DecidableEq Client] in
theorem notMem_empty : subscriber ∉ (empty : SubscriptionManager Client).subscriptions.members
    topic :=
  List.not_mem_nil

theorem mem_removeSubscriptions {listeners : List (Client × String)} :
    subscriber ∈ (listeners.foldl (fun manager listener =>
        manager.removeSubscription client listener.2) manager).subscriptions.members topic ↔
      subscriber ∈ manager.subscriptions.members topic ∧
        ¬(subscriber = client ∧ topic ∈ listeners.map Prod.snd) := by
  induction listeners generalizing manager with
  | nil => simp
  | cons listener listeners ih =>
      rw [List.foldl_cons, ih, removeSubscription, SetMap.mem_members_erase, List.map_cons,
        List.mem_cons]
      tauto

/-- The listeners of a closed client take it out of every topic. -/
theorem mem_closed : subscriber ∈ (manager.closed client).subscriptions.members topic ↔
    subscriber ∈ manager.subscriptions.members topic ∧ subscriber ≠ client := by
  rw [closed, mem_removeSubscriptions]
  constructor
  · rintro ⟨mem, notListening⟩
    refine ⟨mem, ?_⟩
    rintro rfl
    apply notListening
    have listens := manager.listening topic subscriber mem
    have own : (subscriber, topic) ∈ manager.closeListeners.filter
        fun listener => listener.1 = subscriber := by simpa using listens
    exact ⟨rfl, List.mem_map_of_mem own⟩
  · rintro ⟨mem, differs⟩
    exact ⟨mem, fun own => differs own.1⟩

end SubscriptionManager

/-! ## The router -/

/-- Kinds of subscriptions. -/
inductive RpcSubscriptionType
  | txUpdate
  | addressTxUpdate
  | addressBalanceUpdate
  deriving DecidableEq

/-- The `event` of a request that names a kind of subscription. -/
def RpcSubscriptionType.ofEvent (event : String) : Option RpcSubscriptionType :=
  if event = "tx_update" then some .txUpdate
  else if event = "address_tx_update" then some .addressTxUpdate
  else if event = "address_balance_update" then some .addressBalanceUpdate
  else none

/-- The id of a request. -/
inductive RpcId
  | null
  | number (value : Int)
  | text (value : String)
  deriving DecidableEq

/-- The parameters of a request.  A field that is absent or not a text is `none`, except
that an `event` which is true in a condition is some text, and no event's name when it
is not a text. -/
structure SubscriptionParams where
  event : Option String
  txId : Option String
  address : Option String
  deriving DecidableEq

/-- A request with an id. -/
structure RpcRequest where
  id : RpcId
  method : String
  params : Option SubscriptionParams
  deriving DecidableEq

/-- What is wrong with a request. -/
inductive JsonRpcError
  | parseError (data : String)
  | invalidRequest (data : String)
  | methodNotFound
  | invalidParams (data : String)
  deriving DecidableEq

/-- What has been subscribed to. -/
inductive SubscriptionResult
  | txId (value : String)
  | address (value : String)
  deriving DecidableEq

/-- The response to a request. -/
inductive JsonRpc
  | success (id : RpcId) (result : SubscriptionResult)
  | error (id : RpcId) (error : JsonRpcError)
  deriving DecidableEq

/-- What the parser of `jsonrpc-lite` makes of an object. -/
inductive ParsedObject
  | request (req : RpcRequest)
  | notification
  | success (id : RpcId)
  | error (id : RpcId)
  | invalid (error : JsonRpcError)
  deriving DecidableEq

/-- The data of a message: a text, which is parsed to one object or a batch, or
data of another type. -/
inductive WebSocketData
  | single (obj : ParsedObject)
  | batch (objs : List ParsedObject)
  | other (constructorName : String)
  deriving DecidableEq

/-- The parameters of a notification of a transaction of an address. -/
structure RpcAddressTxNotificationParams where
  address : String
  txId : String
  txStatus : String
  txType : String
  deriving DecidableEq

/-- The parameters of a notification of a balance. -/
structure RpcAddressBalanceNotificationParams where
  address : String
  balance : String
  deriving DecidableEq

/-- What the clients of a topic are notified of. -/
inductive RpcNotification
  | txUpdate (params : RpcTxUpdateNotificationParams)
  | addressTxUpdate (params : RpcAddressTxNotificationParams)
  | addressBalanceUpdate (params : RpcAddressBalanceNotificationParams)
  deriving DecidableEq

/-- What the server sends to a client. -/
inductive ServerMessage
  | response (response : JsonRpc)
  | responses (responses : List JsonRpc)
  | notification (notification : RpcNotification)
  deriving DecidableEq

/-- A job of the queue that reads balances holds on to the set of subscribers. -/
structure BalanceJob where
  address : String
  subscribers : Nat
  deriving DecidableEq

/-- The subscriptions of each kind, and the queue of balance reads. -/
structure WsServer (Client : Type) where
  txUpdateSubscriptions : SubscriptionManager Client
  addressTxUpdateSubscriptions : SubscriptionManager Client
  addressBalanceUpdateSubscriptions : SubscriptionManager Client
  addrBalanceProcessorQueue : List BalanceJob

namespace WsServer

variable {Client : Type}

/-- The server before the first connection. -/
def start : WsServer Client where
  txUpdateSubscriptions := SubscriptionManager.empty
  addressTxUpdateSubscriptions := SubscriptionManager.empty
  addressBalanceUpdateSubscriptions := SubscriptionManager.empty
  addrBalanceProcessorQueue := []

/-- The subscriptions of a kind. -/
def manager (server : WsServer Client) : RpcSubscriptionType → SubscriptionManager Client
  | .txUpdate => server.txUpdateSubscriptions
  | .addressTxUpdate => server.addressTxUpdateSubscriptions
  | .addressBalanceUpdate => server.addressBalanceUpdateSubscriptions

/-- Replace the subscriptions of a kind. -/
def setManager (server : WsServer Client) (manager : SubscriptionManager Client) :
    RpcSubscriptionType → WsServer Client
  | .txUpdate => { server with txUpdateSubscriptions := manager }
  | .addressTxUpdate => { server with addressTxUpdateSubscriptions := manager }
  | .addressBalanceUpdate => { server with addressBalanceUpdateSubscriptions := manager }

variable {server : WsServer Client} {changed : SubscriptionManager Client}

@[simp]
theorem manager_start (kind : RpcSubscriptionType) :
    (start : WsServer Client).manager kind = SubscriptionManager.empty := by
  cases kind <;> rfl

@[simp]
theorem manager_setManager_self (kind : RpcSubscriptionType) :
    (server.setManager changed kind).manager kind = changed := by
  cases kind <;> rfl

theorem manager_setManager_of_ne {kind other : RpcSubscriptionType} (differs : other ≠ kind) :
    (server.setManager changed kind).manager other = server.manager other := by
  cases kind <;> cases other <;> first | rfl | exact absurd rfl differs

@[simp]
theorem queue_setManager (kind : RpcSubscriptionType) :
    (server.setManager changed kind).addrBalanceProcessorQueue =
      server.addrBalanceProcessorQueue := by
  cases kind <;> rfl

end WsServer

section Router

variable {Client : Type} [DecidableEq Client] (addresses : AddressLibrary)

/-- A request to join or leave a topic, which is `none` when it is not valid. -/
def handleSubscription (kind : RpcSubscriptionType) (topic : Option String) (invalid : String)
    (result : String → SubscriptionResult) (client : Client) (id : RpcId) (subscribe : Bool)
    (server : WsServer Client) : WsServer Client × JsonRpc :=
  match topic with
  | none => (server, .error id (.invalidParams invalid))
  | some topic =>
      let manager := server.manager kind
      let changed :=
        if subscribe then manager.addSubscription client topic
        else manager.removeSubscription client topic
      (server.setManager changed kind, .success id (result topic))

/-- Subscribe to a transaction, or leave it. -/
def handleTxUpdateSubscription (client : Client) (id : RpcId) (params : SubscriptionParams)
    (subscribe : Bool) (server : WsServer Client) : WsServer Client × JsonRpc :=
  handleSubscription .txUpdate (params.txId.bind normalizeHashString) "invalid tx_id"
    SubscriptionResult.txId client id subscribe server

/-- Subscribe to the transactions of an address, or leave them. -/
def handleAddressTxUpdateSubscription (client : Client) (id : RpcId)
    (params : SubscriptionParams) (subscribe : Bool) (server : WsServer Client) :
    WsServer Client × JsonRpc :=
  handleSubscription .addressTxUpdate
    (params.address.filter fun address => (isValidPrincipal addresses address).isSome)
    "invalid address" SubscriptionResult.address client id subscribe server

/-- Subscribe to the balance of an address, or leave it. -/
def handleAddressBalanceUpdateSubscription (client : Client) (id : RpcId)
    (params : SubscriptionParams) (subscribe : Bool) (server : WsServer Client) :
    WsServer Client × JsonRpc :=
  handleSubscription .addressBalanceUpdate
    (params.address.filter fun address => (isValidPrincipal addresses address).isSome)
    "invalid address" SubscriptionResult.address client id subscribe server

/-- Route supported subscription events. -/
def handleClientSubscription (client : Client) (req : RpcRequest) (subscribe : Bool)
    (server : WsServer Client) : WsServer Client × JsonRpc :=
  match req.params with
  | none =>
      (server, .error req.id
        (.invalidParams "subscription requests must include an event name"))
  | some params =>
      match params.event with
      | none | some "" =>
          (server, .error req.id
            (.invalidParams "subscription requests must include an event name"))
      | some event =>
          match RpcSubscriptionType.ofEvent event with
          | some .txUpdate => handleTxUpdateSubscription client req.id params subscribe server
          | some .addressTxUpdate =>
              handleAddressTxUpdateSubscription addresses client req.id params subscribe server
          | some .addressBalanceUpdate =>
              handleAddressBalanceUpdateSubscription addresses client req.id params subscribe
                server
          | none =>
              (server, .error req.id
                (.invalidParams "subscription request must use a valid event name"))

/-- Route supported RPC methods. -/
def handleClientRpcReq (client : Client) (req : RpcRequest) (server : WsServer Client) :
    WsServer Client × JsonRpc :=
  if req.method = "subscribe" then handleClientSubscription addresses client req true server
  else if req.method = "unsubscribe" then
    handleClientSubscription addresses client req false server
  else (server, .error req.id .methodNotFound)

/-- The answer to an object that is not a notification. -/
def handleParsedObject (client : Client) (obj : ParsedObject) (server : WsServer Client) :
    WsServer Client × Option JsonRpc :=
  match obj with
  | .request req =>
      let (server, response) := handleClientRpcReq addresses client req server
      (server, some response)
  | .notification => (server, none)
  | .error id => (server, some (.error id (.invalidRequest "unexpected error msg from client")))
  | .success id =>
      (server, some (.error id (.invalidRequest "unexpected success msg from client")))
  | .invalid error => (server, some (.error .null error))

/-- The answers to the objects of a message, which are taken in order. -/
def handleParsedObjects (client : Client) (objs : List ParsedObject) (server : WsServer Client) :
    WsServer Client × List JsonRpc :=
  objs.foldl (fun handled obj =>
    let (server, response) := handleParsedObject addresses client obj handled.1
    (server, handled.2 ++ response.toList)) (server, [])

/-- A message of a client and what it is sent. -/
def handleClientMessage (client : Client) (data : WebSocketData) (server : WsServer Client) :
    WsServer Client × List ServerMessage :=
  match data with
  | .other constructorName =>
      (server, [.response (.error .null
        (.parseError s!"unexpected data type: {constructorName}"))])
  | .single obj =>
      let (server, responses) := handleParsedObjects addresses client [obj] server
      (server, responses.map .response)
  | .batch objs =>
      let (server, responses) := handleParsedObjects addresses client objs server
      (server, [.responses responses])

/-- One notification for each transaction and each subscriber of the address. -/
def processAddressUpdate (server : WsServer Client) (addressInfo : AddressTxUpdateInfo) :
    List (Client × RpcNotification) :=
  match server.addressTxUpdateSubscriptions.subscriptions.get addressInfo.address with
  | none => []
  | some subscribers =>
      addressInfo.txs.flatMap fun tx =>
        let updateNotification : RpcAddressTxNotificationParams :=
          { address := addressInfo.address
            txId := tx.txId
            txStatus := getTxStatusString tx.status
            txType := getTxTypeString tx.typeId }
        subscribers.map fun client => (client, .addressTxUpdate updateNotification)

/-- The balance of an address with subscribers is read by a job of the queue. -/
def processAddressBalanceUpdate (server : WsServer Client) (addressInfo : AddressTxUpdateInfo) :
    WsServer Client :=
  match server.addressBalanceUpdateSubscriptions.subscriptions.find addressInfo.address with
  | none => server
  | some subscribers =>
      { server with
        addrBalanceProcessorQueue := server.addrBalanceProcessorQueue ++
          [{ address := addressInfo.address, subscribers }] }

/-- An event of the data store and the notifications that it sends at once. -/
def handleDataStoreEvent (event : DataStoreEvent) (server : WsServer Client) :
    WsServer Client × List (Client × RpcNotification) :=
  match event with
  | .addressUpdate info =>
      (processAddressBalanceUpdate server info, processAddressUpdate server info)
  | event =>
      (server, (txNotifications server.txUpdateSubscriptions.subscriptions.entries event).map
        fun sent => (sent.1, .txUpdate sent.2))

/-- The first job of the queue has read a balance, or failed to.  The notification
goes to the clients that are in the set by then. -/
def runBalanceJob (balance : Option Int) (server : WsServer Client) :
    WsServer Client × List (Client × RpcNotification) :=
  match server.addrBalanceProcessorQueue with
  | [] => (server, [])
  | job :: queue =>
      let subscribers := server.addressBalanceUpdateSubscriptions.subscriptions.setOf
        job.subscribers
      let sent : List (Client × RpcNotification) :=
        match balance with
        | none => []
        | some balance =>
            let balanceNotification : RpcAddressBalanceNotificationParams :=
              { address := job.address, balance := toString balance }
            subscribers.map fun client => (client, .addressBalanceUpdate balanceNotification)
      ({ server with addrBalanceProcessorQueue := queue }, sent)

/-- The socket of a client emits `close`. -/
def handleClose (client : Client) (server : WsServer Client) : WsServer Client :=
  { server with
    txUpdateSubscriptions := server.txUpdateSubscriptions.closed client
    addressTxUpdateSubscriptions := server.addressTxUpdateSubscriptions.closed client
    addressBalanceUpdateSubscriptions := server.addressBalanceUpdateSubscriptions.closed client }

/-- What the server reacts to. -/
inductive WsEvent (Client : Type)
  | message (client : Client) (data : WebSocketData)
  | close (client : Client)
  | dataStore (event : DataStoreEvent)
  | balance (balance : Option Int)
  deriving DecidableEq

/-- The server after an event. -/
def serverStep (server : WsServer Client) : WsEvent Client → WsServer Client
  | .message client data => (handleClientMessage addresses client data server).1
  | .close client => handleClose client server
  | .dataStore event => (handleDataStoreEvent event server).1
  | .balance balance => (runBalanceJob balance server).1

/-- The server after a sequence of events. -/
def serverRun (events : List (WsEvent Client)) : WsServer Client :=
  events.foldl (serverStep addresses) WsServer.start

end Router

end StacksApi.Routes
