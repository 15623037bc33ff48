import StacksApi.Client.Delivery
import StacksApi.Datastore.BalanceRead

/-!
# Balances that subscribers are told

The store commits and emits, the server takes the events and queues a read of the balance for
each announced address with subscribers, and each read sends its two queries while blocks go
on arriving.  Whatever the order, a subscriber ends up knowing the balance, unless a read of it
fails or a reorganisation moves it, which is not announced.
-/

namespace StacksApi.Client

open StacksApi.Datastore
open StacksApi.Collections
open StacksApi.Routes
open StacksApi.Transition

/-! ## The model -/

/-- The store and the server with its queue. -/
structure BalancePush (Peer : Type) where
  db : Db
  /-- The events of committed calls that the server has not taken yet. -/
  emitted : List DataStoreEvent
  server : WsServer Peer
  /-- How far the first job of the queue has come. -/
  stage : BalanceStage
  sent : List (Peer × RpcNotification)

/-- The store before any client has connected. -/
def BalancePush.start {Peer : Type} (db : Db) : BalancePush Peer where
  db
  emitted := []
  server := WsServer.start
  stage := .called
  sent := []

/-- What may happen next to the store, the sockets and the queue of balance reads. -/
inductive PushAction (Peer : Type)
  | call (call : StoreCall)
  | announce
  | message (client : Peer) (data : WebSocketData)
  | close (client : Peer)
  | query
  | finish
  | fail

/-- What the server does by itself. -/
def PushAction.ByServer {Peer : Type} : PushAction Peer → Prop
  | .announce | .query | .finish | .fail => True
  | .call _ | .message _ _ | .close _ => False

section Model

variable {Peer : Type} [DecidableEq Peer] (addresses : AddressLibrary)

/-- A call commits, the server takes an event or a message, or the first job of its queue sends
its next query, sends the balance, or gives up. -/
def pushStep (state : BalancePush Peer) : PushAction Peer → Option (BalancePush Peer)
  | .call call =>
      match performCall state.db call with
      | .error _ => some state
      | .ok (db, events) => some { state with db, emitted := state.emitted ++ events }
  | .announce =>
      match state.emitted with
      | [] => none
      | event :: emitted =>
          let (server, sent) := handleDataStoreEvent event state.server
          some { state with emitted, server, sent := state.sent ++ sent }
  | .message client data =>
      some { state with server := (handleClientMessage addresses client data state.server).1 }
  | .close client => some { state with server := handleClose client state.server }
  | .query =>
      match state.server.addrBalanceProcessorQueue, state.stage with
      | job :: _, .called =>
          some { state with stage := .transfersRead (stxTransferTotals state.db job.address) }
      | job :: _, .transfersRead totals =>
          some { state with
            stage := .returned (stxBalance totals (stxTotalFees state.db job.address)) }
      | _, _ => none
  | .finish =>
      match state.stage with
      | .returned result =>
          let (server, sent) := runBalanceJob (some result.balance) state.server
          some { state with server, stage := .called, sent := state.sent ++ sent }
      | _ => none
  | .fail =>
      match state.server.addrBalanceProcessorQueue with
      | [] => none
      | _ :: _ =>
          some { state with server := (runBalanceJob none state.server).1, stage := .called }

/-- The balances of the address that the client is told. -/
def balancesTold (client : Peer) (address : String) (sent : List (Peer × RpcNotification)) :
    List String :=
  (sent.filter fun message => message.1 = client).filterMap fun message =>
    match message.2 with
    | .addressBalanceUpdate params => if params.address = address then some params.balance else none
    | _ => none

/-- The balance as it is sent. -/
def balanceText (db : Db) (address : String) : String :=
  toString (getStxBalance db address).balance

/-- What the client knows: the last balance that it is told, or the one before that. -/
def knownBalance (client : Peer) (address : String) (joined : String)
    (told : List (Peer × RpcNotification)) : String :=
  (balancesTold client address told).getLast?.getD joined

/-- The events and the queued reads are all dealt with. -/
def BalancePush.Settled (state : BalancePush Peer) : Prop :=
  state.emitted = [] ∧ state.server.addrBalanceProcessorQueue = []

/-- How many queries of the first job have been answered. -/
def queriesDone : BalanceStage → Nat
  | .called => 0
  | .transfersRead _ => 1
  | .returned _ => 2

/-- How many steps the server has still to take at most. -/
def BalancePush.work (state : BalancePush Peer) : Nat :=
  4 * state.emitted.length + 3 * state.server.addrBalanceProcessorQueue.length -
    queriesDone state.stage

variable {addresses} {state state' : BalancePush Peer}

/-- What a step is. -/
inductive PushEffect (addresses : AddressLibrary) (state : BalancePush Peer) :
    PushAction Peer → BalancePush Peer → Prop
  | refused {call : StoreCall} {error : ApiError}
      (refused : performCall state.db call = .error error) :
      PushEffect addresses state (.call call) state
  | committed {call : StoreCall} {db : Db} {events : List DataStoreEvent}
      (accepted : performCall state.db call = .ok (db, events)) :
      PushEffect addresses state (.call call)
        { state with db, emitted := state.emitted ++ events }
  | announce {event : DataStoreEvent} {emitted : List DataStoreEvent}
      (first : state.emitted = event :: emitted) :
      PushEffect addresses state .announce
        { state with
          emitted
          server := (handleDataStoreEvent event state.server).1
          sent := state.sent ++ (handleDataStoreEvent event state.server).2 }
  | message (client : Peer) (data : WebSocketData) :
      PushEffect addresses state (.message client data)
        { state with server := (handleClientMessage addresses client data state.server).1 }
  | close (client : Peer) :
      PushEffect addresses state (.close client)
        { state with server := handleClose client state.server }
  | transfers {job : BalanceJob} {queue : List BalanceJob}
      (first : state.server.addrBalanceProcessorQueue = job :: queue)
      (called : state.stage = .called) :
      PushEffect addresses state .query
        { state with stage := .transfersRead (stxTransferTotals state.db job.address) }
  | fees {job : BalanceJob} {queue : List BalanceJob} {totals : Int × Int}
      (first : state.server.addrBalanceProcessorQueue = job :: queue)
      (read : state.stage = .transfersRead totals) :
      PushEffect addresses state .query
        { state with stage := .returned (stxBalance totals (stxTotalFees state.db job.address)) }
  | finish {result : TokenBalance} (returned : state.stage = .returned result) :
      PushEffect addresses state .finish
        { state with
          server := (runBalanceJob (some result.balance) state.server).1
          stage := .called
          sent := state.sent ++ (runBalanceJob (some result.balance) state.server).2 }
  | fail {job : BalanceJob} {queue : List BalanceJob}
      (first : state.server.addrBalanceProcessorQueue = job :: queue) :
      PushEffect addresses state .fail
        { state with server := (runBalanceJob none state.server).1, stage := .called }

theorem pushStep_effect {action : PushAction Peer}
    (taken : pushStep addresses state action = some state') :
    PushEffect addresses state action state' := by
  cases action with
  | call call =>
      dsimp only [pushStep] at taken
      split at taken
      · next refused =>
          cases taken
          exact .refused refused
      · next accepted =>
          cases taken
          exact .committed accepted
  | announce =>
      dsimp only [pushStep] at taken
      split at taken
      · cases taken
      · next first =>
          cases taken
          exact .announce first
  | message client data =>
      cases taken
      exact .message client data
  | close client =>
      cases taken
      exact .close client
  | query =>
      dsimp only [pushStep] at taken
      split at taken
      · next first called =>
          cases taken
          exact .transfers first called
      · next first read =>
          cases taken
          exact .fees first read
      · cases taken
  | finish =>
      dsimp only [pushStep] at taken
      split at taken
      · next returned =>
          cases taken
          exact .finish returned
      · cases taken
  | fail =>
      dsimp only [pushStep] at taken
      split at taken
      · cases taken
      · next first =>
          cases taken
          exact .fail first

end Model

/-! ## Sets and jobs -/

section Server

variable {Peer : Type} [DecidableEq Peer] {addresses : AddressLibrary}
variable {server : WsServer Peer} {peer : Peer} {topic address : String} {set : Nat}

/-- The subscribers to the balances of all addresses. -/
def balanceTopics (server : WsServer Peer) : SetMap String Peer :=
  (server.manager .addressBalanceUpdate).subscriptions

theorem evolves_perform (operation : Peer × Operation) :
    (balanceTopics server).Evolves (balanceTopics (server.perform operation)) := by
  unfold balanceTopics WsServer.perform
  by_cases sameKind : operation.2.kind = .addressBalanceUpdate
  · rw [sameKind, WsServer.manager_setManager_self]
    cases operation.2.subscribe with
    | true => exact SetMap.evolves_insert
    | false => exact SetMap.evolves_erase
  · rw [WsServer.manager_setManager_of_ne (Ne.symm sameKind)]
    exact SetMap.Evolves.refl _

theorem evolves_performs (operations : List (Peer × Operation)) :
    (balanceTopics server).Evolves
      (balanceTopics (operations.foldl WsServer.perform server)) := by
  induction operations generalizing server with
  | nil => exact SetMap.Evolves.refl _
  | cons operation operations ih => exact (evolves_perform operation).trans ih

theorem evolves_message (client : Peer) (data : WebSocketData) :
    (balanceTopics server).Evolves
      (balanceTopics (handleClientMessage addresses client data server).1) := by
  rw [handleClientMessage_server]
  exact evolves_performs _

theorem queue_message (client : Peer) (data : WebSocketData) :
    (handleClientMessage addresses client data server).1.addrBalanceProcessorQueue =
      server.addrBalanceProcessorQueue := by
  rw [handleClientMessage_server]
  exact queue_performs _

theorem evolves_removeSubscriptions {manager : SubscriptionManager Peer}
    (listeners : List (Peer × String)) :
    manager.subscriptions.Evolves (listeners.foldl (fun manager listener =>
      manager.removeSubscription peer listener.2) manager).subscriptions := by
  induction listeners generalizing manager with
  | nil => exact SetMap.Evolves.refl _
  | cons listener listeners ih =>
      have left : manager.subscriptions.Evolves
          (manager.removeSubscription peer listener.2).subscriptions := SetMap.evolves_erase
      exact left.trans ih

theorem evolves_close : (balanceTopics server).Evolves (balanceTopics (handleClose peer server)) :=
  evolves_removeSubscriptions _

/-- A request about balances names an address. -/
theorem topic_ne_of_operationOf {req : RpcRequest} {operation : Operation}
    (asked : operationOf addresses req = some operation)
    (isBalance : operation.kind = .addressBalanceUpdate) : operation.topic ≠ "" := by
  obtain ⟨_, -, asked⟩ := Option.bind_eq_some_iff.mp asked
  obtain ⟨params, -, asked⟩ := Option.bind_eq_some_iff.mp asked
  obtain ⟨kind, -, asked⟩ := Option.bind_eq_some_iff.mp asked
  obtain ⟨topic, isTopic, rfl⟩ := Option.map_eq_some_iff.mp asked
  obtain rfl : kind = .addressBalanceUpdate := isBalance
  obtain ⟨-, valid⟩ := Option.filter_eq_some_iff.mp isTopic
  rintro (rfl : topic = "")
  cases valid

/-- The topics with subscribers to a balance are nonempty texts. -/
def NamesAddresses (server : WsServer Peer) : Prop :=
  ∀ topic, ∀ client ∈ server.subscribers .addressBalanceUpdate topic, topic ≠ ""

theorem namesAddresses_message (names : NamesAddresses server) (client : Peer)
    (data : WebSocketData) :
    NamesAddresses (handleClientMessage addresses client data server).1 := by
  rw [handleClientMessage_server]
  have asked : ∀ operation ∈ (WsEvent.message client data).operations addresses,
      operation.2.kind = .addressBalanceUpdate → operation.2.topic ≠ "" := by
    intro operation mem
    obtain ⟨operation, isAsked, rfl⟩ := List.mem_map.mp mem
    obtain ⟨obj, -, isOperation⟩ := List.mem_filterMap.mp isAsked
    cases obj with
    | request req => exact topic_ne_of_operationOf isOperation
    | _ => cases isOperation
  generalize (WsEvent.message client data).operations addresses = operations at asked ⊢
  induction operations generalizing server with
  | nil => exact names
  | cons operation operations ih =>
      refine ih ?_ fun later mem => asked later (List.mem_cons_of_mem _ mem)
      intro topic subscriber mem
      rw [mem_subscribers_perform] at mem
      split at mem
      · next own => exact own.2.2 ▸ asked operation List.mem_cons_self own.2.1
      · exact names topic subscriber mem

omit [DecidableEq Peer] in
theorem namesAddresses_congr {server' : WsServer Peer} (names : NamesAddresses server)
    (same : server'.manager .addressBalanceUpdate = server.manager .addressBalanceUpdate) :
    NamesAddresses server' := by
  intro topic client mem
  rw [WsServer.subscribers, same] at mem
  exact names topic client mem

end Server

/-! ## The invariants -/

section Invariants

variable {Peer : Type} [DecidableEq Peer] {addresses : AddressLibrary}
variable {address : String} {state state' : BalancePush Peer} {action : PushAction Peer}

/-- Jobs hold on to sets of their addresses, and nothing is read without a job. -/
structure Queued (state : BalancePush Peer) : Prop where
  names : NamesAddresses state.server
  idle : state.server.addrBalanceProcessorQueue = [] → state.stage = .called
  tidy : (balanceTopics state.server).Tidy
  owned : ∀ job ∈ state.server.addrBalanceProcessorQueue,
    (balanceTopics state.server).Owned job.address job.subscribers

omit [DecidableEq Peer] in
theorem Queued.start (db : Db) : Queued (BalancePush.start db : BalancePush Peer) where
  names := by rintro topic client ⟨⟩
  idle _ := rfl
  tidy := SetMap.tidy_empty
  owned := by rintro job ⟨⟩

omit [DecidableEq Peer] in
theorem balanceTopics_handleDataStoreEvent (event : DataStoreEvent) (server : WsServer Peer) :
    balanceTopics (handleDataStoreEvent event server).1 = balanceTopics server := by
  rw [balanceTopics, manager_handleDataStoreEvent]
  rfl

omit [DecidableEq Peer] in
theorem Queued.exists_job (queued : Queued state) (reading : state.stage ≠ .called) :
    ∃ job queue, state.server.addrBalanceProcessorQueue = job :: queue := by
  cases jobs : state.server.addrBalanceProcessorQueue with
  | nil => exact absurd (queued.idle jobs) reading
  | cons job queue => exact ⟨job, queue, rfl⟩

omit [DecidableEq Peer] in
/-- The first job leaves the queue. -/
theorem Queued.leave (queued : Queued state) {job : BalanceJob} {queue : List BalanceJob}
    (first : state.server.addrBalanceProcessorQueue = job :: queue) (balance : Option Int)
    (sent : List (Peer × RpcNotification)) :
    Queued { state with
      server := (runBalanceJob balance state.server).1
      stage := .called
      sent } := by
  rw [runBalanceJob_cons first]
  exact
    { names := queued.names
      idle := fun _ => rfl
      tidy := queued.tidy
      owned := fun other mem => queued.owned other (first ▸ List.mem_cons_of_mem job mem) }

theorem Queued.step (queued : Queued state)
    (effect : PushEffect addresses state action state') : Queued state' := by
  cases effect with
  | refused => exact queued
  | committed => exact ⟨queued.names, queued.idle, queued.tidy, queued.owned⟩
  | @announce event emitted first =>
      have topics := balanceTopics_handleDataStoreEvent event state.server
      constructor
      · exact namesAddresses_congr queued.names (manager_handleDataStoreEvent event)
      · intro none
        rw [queue_handleDataStoreEvent] at none
        exact queued.idle (List.append_eq_nil_iff.mp none).1
      · rw [topics]
        exact queued.tidy
      · intro job mem
        rw [queue_handleDataStoreEvent] at mem
        rw [topics]
        rcases List.mem_append.mp mem with old | new
        · exact queued.owned job old
        · rcases addedJobs_eq_nil_or state.server event with none | ⟨_, set, one, found, -⟩
          · rw [none] at new
            cases new
          · rw [one] at new
            rw [List.mem_singleton.mp new]
            exact SetMap.owned_of_find found
  | message client data =>
      have queue := @queue_message _ _ addresses state.server client data
      have evolves := @evolves_message _ _ addresses state.server client data
      exact
        { names := namesAddresses_message queued.names client data
          idle := fun none => queued.idle (queue ▸ none)
          tidy := evolves.tidy queued.tidy
          owned := fun job mem => (queued.owned job (queue ▸ mem)).evolves evolves }
  | close client =>
      exact
        { names := fun topic other mem => queued.names topic other (mem_subscribers_close.mp mem).1
          idle := queued.idle
          tidy := evolves_close.tidy queued.tidy
          owned := fun job mem => (queued.owned job mem).evolves evolves_close }
  | transfers first =>
      exact ⟨queued.names, fun none => absurd (none.symm.trans first) (by simp), queued.tidy,
        queued.owned⟩
  | fees first =>
      exact ⟨queued.names, fun none => absurd (none.symm.trans first) (by simp), queued.tidy,
        queued.owned⟩
  | finish returned =>
      obtain ⟨job, queue, first⟩ := queued.exists_job (by rw [returned]; rintro ⟨⟩)
      exact queued.leave first _ _
  | fail first => exact queued.leave first _ _

/-- A read of the balance is still to come: the address is announced, or one of the jobs
will tell its subscribers. -/
def BalancePush.Due (state : BalancePush Peer) (address : String) (queue : List BalanceJob) :
    Prop :=
  Announces state.emitted address ∨ ∃ job ∈ queue, job.address = address ∧
    balanceSet state.server address = some job.subscribers

/-- What has been read is what would be read now. -/
def ReadsNow (db : Db) (address : String) : BalanceStage → Prop
  | .called => True
  | .transfersRead totals => totals = stxTransferTotals db address
  | .returned result => result.balance = (getStxBalance db address).balance

/-- What the first job has read for the subscribers of the address is not outdated, or they
are told again. -/
def Fresh (address : String) (state : BalancePush Peer) : Prop :=
  ∀ job queue, state.server.addrBalanceProcessorQueue = job :: queue → job.address = address →
    balanceSet state.server address = some job.subscribers →
      state.Due address queue ∨ ReadsNow state.db address state.stage

/-- The reorganisation of a call is quiet for the address. -/
def QuietAction (address : String) (state : BalancePush Peer) : PushAction Peer → Prop
  | .call call => QuietReorg address state.db call
  | _ => True

theorem ReadsNow.congr {db db' : Db} {stage : BalanceStage} (reads : ReadsNow db address stage)
    (transfers : stxTransferTotals db' address = stxTransferTotals db address)
    (fees : stxTotalFees db' address = stxTotalFees db address) : ReadsNow db' address stage := by
  cases stage with
  | called => trivial
  | transfersRead totals =>
      exact Eq.trans reads transfers.symm
  | returned result =>
      refine Eq.trans reads ?_
      rw [getStxBalance_eq, getStxBalance_eq, transfers, fees]

theorem announces_append {events later : List DataStoreEvent} :
    Announces (events ++ later) address ↔ Announces events address ∨ Announces later address := by
  simp only [Announces, List.mem_append, or_and_right, exists_or]

omit [DecidableEq Peer] in
theorem BalancePush.Due.committed {queue : List BalanceJob} {db : Db}
    {events : List DataStoreEvent} (due : state.Due address queue) :
    ({ state with db, emitted := state.emitted ++ events } : BalancePush Peer).Due address queue :=
  due.imp (fun announced => announces_append.mpr (Or.inl announced)) id

omit [DecidableEq Peer] in
/-- An event that the server takes leaves a job behind for the subscribers of its address. -/
theorem BalancePush.Due.announce {event : DataStoreEvent} {emitted : List DataStoreEvent}
    {queue : List BalanceJob} {set : Nat} {sent : List (Peer × RpcNotification)}
    (due : state.Due address queue) (first : state.emitted = event :: emitted)
    (found : balanceSet state.server address = some set) :
    ({ state with emitted, server := (handleDataStoreEvent event state.server).1, sent }
      : BalancePush Peer).Due address (queue ++ addedJobs state.server event) := by
  have same : balanceSet (handleDataStoreEvent event state.server).1 address = some set := by
    rw [balanceSet, manager_handleDataStoreEvent]
    exact found
  rcases due with ⟨info, mem, rfl⟩ | ⟨job, mem, isJob, old⟩
  · rw [first] at mem
    rcases List.mem_cons.mp mem with rfl | later
    · refine Or.inr ⟨{ address := info.address, subscribers := set }, ?_, rfl, same⟩
      apply List.mem_append_right
      rw [addedJobs, found]
      exact List.mem_singleton_self _
    · exact Or.inl ⟨info, later, rfl⟩
  · rw [found] at old
    exact Or.inr ⟨job, List.mem_append_left _ mem, isJob, same.trans old⟩

theorem Fresh.step (fresh : Fresh address state) (queued : Queued state) (nonempty : address ≠ "")
    (quiet : QuietAction address state action)
    (effect : PushEffect addresses state action state') : Fresh address state' := by
  -- the clients of the set of a job have been in it since the job was queued
  have evolved : ∀ {server : WsServer Peer} {job : BalanceJob} {queue : List BalanceJob},
      (balanceTopics state.server).Evolves (balanceTopics server) →
        server.addrBalanceProcessorQueue = state.server.addrBalanceProcessorQueue →
          server.addrBalanceProcessorQueue = job :: queue → job.address = address →
            balanceSet server address = some job.subscribers →
              ({ state with server } : BalancePush Peer).Due address queue ∨
                ReadsNow state.db address state.stage := by
    intro server job queue evolves same first isJob found
    have first' := same.symm.trans first
    have owned := queued.owned job (first' ▸ List.mem_cons_self)
    have found' : balanceSet state.server address = some job.subscribers :=
      evolves.find address job.subscribers found owned.allocated
    refine (fresh job queue first' isJob found').imp (fun due => ?_) id
    refine due.imp id ?_
    rintro ⟨other, mem, isOther, foundOther⟩
    rw [found'] at foundOther
    exact ⟨other, mem, isOther, found.trans foundOther⟩
  cases effect with
  | refused => exact fresh
  | @committed call db events accepted =>
      intro job queue first isJob found
      rcases fresh job queue first isJob found with due | reads
      · exact Or.inl due.committed
      · rcases performCall_announces accepted quiet nonempty with announced | ⟨transfers, fees⟩
        · exact Or.inl (Or.inl (announces_append.mpr (Or.inr announced)))
        · exact Or.inr (reads.congr transfers fees)
  | @announce event emitted taken =>
      intro job queue first isJob found
      have same : balanceSet (handleDataStoreEvent event state.server).1 address =
          balanceSet state.server address := by
        rw [balanceSet, manager_handleDataStoreEvent, balanceSet]
      rw [same] at found
      rw [queue_handleDataStoreEvent] at first
      cases jobs : state.server.addrBalanceProcessorQueue with
      | nil =>
          have called := queued.idle jobs
          refine Or.inr ?_
          rw [called]
          trivial
      | cons head rest =>
          rw [jobs] at first
          obtain ⟨rfl, rfl⟩ := List.cons.inj first
          refine (fresh _ _ jobs isJob found).imp (fun due => ?_) id
          exact due.announce taken found
  | message client data =>
      intro job queue first isJob found
      exact evolved (evolves_message client data) (queue_message client data) first isJob found
  | close client =>
      intro job queue first isJob found
      exact evolved evolves_close rfl first isJob found
  | transfers first called =>
      intro job queue same isJob found
      obtain ⟨rfl, rfl⟩ := List.cons.inj (first.symm.trans same)
      refine Or.inr ?_
      rw [isJob]
      rfl
  | @fees _ _ totals first read =>
      intro job queue same isJob found
      obtain ⟨rfl, rfl⟩ := List.cons.inj (first.symm.trans same)
      refine (fresh _ _ first isJob found).imp id fun reads => ?_
      rw [read] at reads
      have totalsNow : totals = stxTransferTotals state.db address := reads
      rw [totalsNow, isJob]
      rfl
  | finish => exact fun job queue _ _ _ => Or.inr trivial
  | fail => exact fun job queue _ _ _ => Or.inr trivial

/-! ## What a subscriber knows -/

variable {client : Peer}

theorem balancesTold_append (earlier later : List (Peer × RpcNotification)) :
    balancesTold client address (earlier ++ later) =
      balancesTold client address earlier ++ balancesTold client address later := by
  rw [balancesTold, List.filter_append, List.filterMap_append]
  rfl

theorem knownBalance_of_silent {joined : String} {told later : List (Peer × RpcNotification)}
    (silent : balancesTold client address later = []) :
    knownBalance client address joined (told ++ later) =
      knownBalance client address joined told := by
  rw [knownBalance, balancesTold_append, silent, List.append_nil]
  rfl

theorem knownBalance_of_told {joined balance : String}
    {told later : List (Peer × RpcNotification)}
    (tells : balancesTold client address later = [balance]) :
    knownBalance client address joined (told ++ later) = balance := by
  rw [knownBalance, balancesTold_append, tells, List.getLast?_append]
  rfl

/-- Events tell no balance themselves. -/
theorem balancesTold_handleDataStoreEvent (event : DataStoreEvent) (server : WsServer Peer) :
    balancesTold client address (handleDataStoreEvent event server).2 = [] := by
  rw [balancesTold, List.filterMap_eq_nil_iff]
  intro message mem
  have mem := List.mem_of_mem_filter mem
  cases event with
  | addressUpdate info =>
      rw [handleDataStoreEvent, processAddressUpdate] at mem
      dsimp only at mem
      split at mem
      · cases mem
      · obtain ⟨tx, -, mem⟩ := List.mem_flatMap.mp mem
        obtain ⟨subscriber, -, rfl⟩ := List.mem_map.mp mem
        rfl
  | _ =>
      obtain ⟨sent, -, rfl⟩ := List.mem_map.mp mem
      rfl

/-- A job tells the balance of its address to the clients of its set. -/
theorem balancesTold_balanceMessages {balance : Int} {job : BalanceJob} {clients : List Peer}
    (nodup : clients.Nodup) :
    balancesTold client address (balanceMessages (some balance) job clients) =
      if job.address = address ∧ client ∈ clients then [toString balance] else [] := by
  rw [balancesTold, filter_balanceMessages nodup]
  by_cases member : client ∈ clients
  · by_cases isJob : job.address = address <;> simp [member, isJob]
  · simp [member]

/-- What the client does not do while its balance is pushed: leave the topic or close, and
what does not happen to it: a failed read or a reorganisation that moves its balance. -/
def Stays (addresses : AddressLibrary) (client : Peer) (address : String)
    (state : BalancePush Peer) : PushAction Peer → Prop
  | .call call => QuietReorg address state.db call
  | .message sender data =>
      (client, { kind := .addressBalanceUpdate, topic := address, subscribe := false }) ∉
        (WsEvent.message sender data).operations addresses
  | .close closed => closed ≠ client
  | .fail => ∀ job queue, state.server.addrBalanceProcessorQueue = job :: queue →
      job.address ≠ address
  | .announce | .query | .finish => True

omit [DecidableEq Peer] in
theorem exists_balanceSet {server : WsServer Peer}
    (member : client ∈ server.subscribers .addressBalanceUpdate address) :
    ∃ set, balanceSet server address = some set ∧ client ∈ (balanceTopics server).setOf set := by
  cases found : balanceSet server address with
  | none =>
      rw [WsServer.subscribers, SetMap.members_of_find_none found] at member
      cases member
  | some set =>
      rw [WsServer.subscribers, SetMap.members_of_find found] at member
      exact ⟨set, rfl, member⟩

theorem stays_performs {server : WsServer Peer} {operations : List (Peer × Operation)} {set : Nat}
    (member : client ∈ server.subscribers .addressBalanceUpdate address)
    (found : balanceSet server address = some set)
    (stays : (client, { kind := .addressBalanceUpdate, topic := address, subscribe := false }) ∉
      operations) :
    client ∈ (operations.foldl WsServer.perform server).subscribers .addressBalanceUpdate address ∧
      balanceSet (operations.foldl WsServer.perform server) address = some set := by
  induction operations generalizing server with
  | nil => exact ⟨member, found⟩
  | cons operation operations ih =>
      have kept : client ∈
          (server.perform operation).subscribers .addressBalanceUpdate address := by
        rw [mem_subscribers_perform]
        split
        · next own =>
            by_contra leaves
            apply stays
            obtain ⟨sender, kind, topic, subscribe⟩ := operation
            obtain ⟨rfl, rfl, rfl⟩ := own
            obtain rfl : subscribe = false := Bool.eq_false_iff.mpr leaves
            exact List.mem_cons_self
        · exact member
      exact ih kept (balanceSet_perform found kept) fun mem => stays (List.mem_cons_of_mem _ mem)

/-- The client is in the topic, and it knows the balance or is still to be told. -/
structure UpToDate (client : Peer) (address : String) (joined : BalancePush Peer)
    (state : BalancePush Peer) : Prop where
  member : client ∈ state.server.subscribers .addressBalanceUpdate address
  told : ∃ told, state.sent = joined.sent ++ told ∧
    (state.Due address state.server.addrBalanceProcessorQueue ∨
      knownBalance client address (balanceText joined.db address) told =
        balanceText state.db address)

theorem UpToDate.step {joined : BalancePush Peer} (upToDate : UpToDate client address joined state)
    (queued : Queued state) (fresh : Fresh address state)
    (stays : Stays addresses client address state action)
    (effect : PushEffect addresses state action state') :
    UpToDate client address joined state' := by
  obtain ⟨member, told, sent, known⟩ := upToDate
  obtain ⟨set, found, mem⟩ := exists_balanceSet member
  have nonempty := queued.names address client member
  cases effect with
  | refused => exact ⟨member, told, sent, known⟩
  | @committed call db events accepted =>
      refine ⟨member, told, sent, ?_⟩
      rcases known with due | known
      · exact Or.inl due.committed
      · rcases performCall_announces accepted stays nonempty with announced | ⟨transfers, fees⟩
        · exact Or.inl (Or.inl (announces_append.mpr (Or.inr announced)))
        · refine Or.inr (known.trans ?_)
          rw [balanceText, balanceText, getStxBalance_eq, getStxBalance_eq, transfers, fees]
  | @announce event emitted taken =>
      refine ⟨?_, told ++ (handleDataStoreEvent event state.server).2, ?_, ?_⟩
      · rw [WsServer.subscribers, manager_handleDataStoreEvent]
        exact member
      · rw [sent, List.append_assoc]
      · rw [queue_handleDataStoreEvent,
          knownBalance_of_silent (balancesTold_handleDataStoreEvent event state.server)]
        exact known.imp (fun due => due.announce taken found) id
  | message sender data =>
      have kept := stays_performs member found stays
      rw [← handleClientMessage_server] at kept
      refine ⟨kept.1, told, sent, known.imp (fun due => due.imp id ?_) id⟩
      rintro ⟨job, jobMem, isJob, old⟩
      rw [found] at old
      exact ⟨job, (queue_message sender data).symm ▸ jobMem, isJob, kept.2.trans old⟩
  | close closed =>
      have kept := mem_subscribers_close.mpr ⟨member, Ne.symm stays⟩
      refine ⟨kept, told, sent, known.imp (fun due => due.imp id ?_) id⟩
      rintro ⟨job, jobMem, isJob, old⟩
      rw [found] at old
      exact ⟨job, jobMem, isJob, (find_removeSubscriptions found member stays).trans old⟩
  | transfers => exact ⟨member, told, sent, known⟩
  | fees => exact ⟨member, told, sent, known⟩
  | @finish result returned =>
      obtain ⟨job, queue, first⟩ := queued.exists_job (by rw [returned]; rintro ⟨⟩)
      have nodup := SetMap.nodup_setOf (balanceTopics state.server) job.subscribers
      rw [runBalanceJob_cons first]
      refine ⟨member, told ++ _, by rw [sent, List.append_assoc], ?_⟩
      have tells := @balancesTold_balanceMessages _ _ address client result.balance job _ nodup
      by_cases own : job.address = address ∧ balanceSet state.server address = some job.subscribers
      · -- the client is told what the job has read
        obtain ⟨isJob, isSet⟩ := own
        obtain rfl : set = job.subscribers := Option.some.inj (found.symm.trans isSet)
        rw [if_pos ⟨isJob, mem⟩] at tells
        refine (fresh job queue first isJob isSet).imp id fun reads => ?_
        rw [returned] at reads
        exact (knownBalance_of_told tells).trans
          (congrArg (fun balance : Int => toString balance) reads)
      · -- another set is told, which the client is not in
        have silent : ¬(job.address = address ∧
            client ∈ (balanceTopics state.server).setOf job.subscribers) := by
          rintro ⟨isJob, isMember⟩
          have isSet := SetMap.find_of_mem_setOf queued.tidy
            (queued.owned job (first ▸ List.mem_cons_self)) isMember
          exact own ⟨isJob, isJob ▸ isSet⟩
        rw [if_neg silent] at tells
        refine known.imp (fun due => due.imp id ?_) (knownBalance_of_silent tells).trans
        rintro ⟨other, otherMem, isOther, isSet⟩
        rw [first] at otherMem
        rcases List.mem_cons.mp otherMem with rfl | later
        · exact absurd ⟨isOther, isSet⟩ own
        · exact ⟨other, later, isOther, isSet⟩
  | @fail job queue first =>
      rw [runBalanceJob_cons first]
      refine ⟨member, told, sent, known.imp (fun due => due.imp id ?_) id⟩
      rintro ⟨other, otherMem, isOther, isSet⟩
      rw [first] at otherMem
      rcases List.mem_cons.mp otherMem with rfl | later
      · exact absurd isOther (stays other queue first)
      · exact ⟨other, later, isOther, isSet⟩

/-! ## The server comes to an end -/

/-- A step of the server leaves it less to do. -/
theorem work_lt (queued : Queued state) (byServer : action.ByServer)
    (effect : PushEffect addresses state action state') : state'.work < state.work := by
  have bound : ∀ stage, queriesDone stage ≤ 2 := by
    intro stage
    cases stage <;> simp [queriesDone]
  cases effect with
  | refused => cases byServer
  | committed => cases byServer
  | message => cases byServer
  | close => cases byServer
  | @announce event emitted taken =>
      have added : (addedJobs state.server event).length ≤ 1 := by
        rcases addedJobs_eq_nil_or state.server event with none | ⟨_, _, one, -⟩
        · rw [none]
          exact Nat.zero_le 1
        · rw [one]
          exact Nat.le_refl 1
      have reads : state.server.addrBalanceProcessorQueue = [] → queriesDone state.stage = 0 := by
        intro none
        rw [queued.idle none]
        rfl
      have done := bound state.stage
      unfold BalancePush.work
      dsimp only
      rw [queue_handleDataStoreEvent, taken, List.length_append, List.length_cons]
      cases jobs : state.server.addrBalanceProcessorQueue with
      | nil =>
          rw [reads jobs]
          simp only [List.length_nil]
          omega
      | cons job queue =>
          simp only [List.length_cons]
          omega
  | transfers first called =>
      unfold BalancePush.work
      simp only [first, called, queriesDone, List.length_cons]
      omega
  | fees first read =>
      unfold BalancePush.work
      simp only [first, read, queriesDone, List.length_cons]
      omega
  | finish returned =>
      obtain ⟨job, queue, first⟩ := queued.exists_job (by rw [returned]; rintro ⟨⟩)
      unfold BalancePush.work
      simp only [runBalanceJob_cons first, first, returned, queriesDone, List.length_cons]
      omega
  | fail first =>
      have done := bound state.stage
      have called : queriesDone .called = 0 := rfl
      unfold BalancePush.work
      simp only [runBalanceJob_cons first, first, List.length_cons]
      omega

theorem length_add_work_le {settling : List (PushAction Peer)} (queued : Queued state)
    (byServer : ∀ action ∈ settling, action.ByServer)
    (ran : execute (pushStep addresses) state settling = some state') :
    settling.length + state'.work ≤ state.work := by
  induction settling generalizing state with
  | nil =>
      cases ran
      exact Nat.le_of_eq (Nat.zero_add _)
  | cons action settling ih =>
      obtain ⟨next, taken, ran⟩ := execute_cons_eq_some_iff.mp ran
      have effect := pushStep_effect taken
      have less := work_lt queued (byServer action List.mem_cons_self) effect
      have rest := ih (queued.step effect)
        (fun later mem => byServer later (List.mem_cons_of_mem action mem)) ran
      rw [List.length_cons]
      omega

/-- A server that has something left to do can take a step. -/
theorem settled_of_stuck
    (stuck : ∀ action, action.ByServer → pushStep addresses state action = none) :
    state.Settled := by
  constructor
  · cases events : state.emitted with
    | nil => rfl
    | cons event emitted =>
        have step := stuck .announce trivial
        rw [pushStep, events] at step
        cases step
  · cases jobs : state.server.addrBalanceProcessorQueue with
    | nil => rfl
    | cons job queue =>
        have step := stuck .fail trivial
        rw [pushStep, jobs] at step
        cases step

/-! ## Subscribers are told -/

/-- A client that is in the topic of an address knows its balance whenever no event of the
address waits to be taken and no job of it waits to be run: the last balance that it has been
told is the balance now, or it has been told none and the balance is what it was.  This asks
that reorganisations are quiet for the address and that no read of its balance fails.  And once
nothing else happens the server gets there, in a bounded number of steps. -/
theorem balances_pushed {db : Db} {earlier later : List (PushAction Peer)}
    {joined last : BalancePush Peer}
    (before : execute (pushStep addresses) (BalancePush.start db) earlier = some joined)
    (quiet : Meets (QuietAction address) (pushStep addresses) (BalancePush.start db) earlier)
    (member : client ∈ joined.server.subscribers .addressBalanceUpdate address)
    (ran : execute (pushStep addresses) joined later = some last)
    (stays : Meets (Stays addresses client address) (pushStep addresses) joined later) :
    (¬Announces last.emitted address →
      (∀ job ∈ last.server.addrBalanceProcessorQueue, job.address ≠ address) →
        ∃ told, last.sent = joined.sent ++ told ∧
          knownBalance client address (balanceText joined.db address) told =
            balanceText last.db address) ∧
      ∀ settling state, (∀ action ∈ settling, action.ByServer) →
        execute (pushStep addresses) last settling = some state →
          settling.length ≤ last.work ∧
            ((∀ action, action.ByServer → pushStep addresses state action = none) →
              state.Settled) := by
  have fromStart : Queued joined ∧ (address ≠ "" → Fresh address joined) := by
    have start : Fresh address (BalancePush.start db : BalancePush Peer) := by
      rintro job queue ⟨⟩
    apply execute_invariant _ ⟨Queued.start db, fun _ => start⟩ quiet before
    rintro state action state' ⟨queued, fresh⟩ quiet taken
    have effect := pushStep_effect taken
    exact ⟨queued.step effect, fun nonempty => (fresh nonempty).step queued nonempty quiet effect⟩
  obtain ⟨queued, fresh⟩ := fromStart
  have nonempty := queued.names address client member
  have sinceJoined : Queued last ∧ Fresh address last ∧ UpToDate client address joined last := by
    have start : UpToDate client address joined joined :=
      ⟨member, [], (List.append_nil _).symm, Or.inr rfl⟩
    apply execute_invariant _ ⟨queued, fresh nonempty, start⟩ stays ran
    rintro state action state' ⟨queued, fresh, upToDate⟩ stays taken
    have effect := pushStep_effect taken
    have quiet : QuietAction address state action := by
      cases action with
      | call call => exact stays
      | _ => trivial
    exact ⟨queued.step effect, fresh.step queued nonempty quiet effect,
      upToDate.step queued fresh stays effect⟩
  obtain ⟨queued, -, -, told, sent, known⟩ := sinceJoined
  refine ⟨fun unannounced none => ⟨told, sent, ?_⟩, fun settling state byServer ran => ?_⟩
  · refine known.resolve_left ?_
    rintro (announced | ⟨job, mem, isJob, -⟩)
    · exact unannounced announced
    · exact none job mem isJob
  · have bound := length_add_work_le queued byServer ran
    exact ⟨by omega, settled_of_stuck⟩

end Invariants

section Sample

/-- The address of the sample pushes. -/
def pushedAddress : String :=
  "ST000000000000000000002AMW42H"

/-- The address is minted 1000 micro-STX. -/
def mintForAddress : DataStoreUpdateData :=
  { emptyBlock "0x11" "0x00" 1 with
    txs := [{ coinbaseEntry "0x11" 1 with
      stxEvents :=
        [{ eventIndex := 0, txId := "0x0a", txIndex := 0, blockHeight := 1, canonical := true
           assetEventTypeId := .mint, sender := none, recipient := some pushedAddress
           amount := 1000 }] }] }

/-- The address pays 100 micro-STX and a fee of 7. -/
def payFromAddress : DataStoreUpdateData :=
  { emptyBlock "0x21" "0x11" 2 with
    txs := [{ transferEntry "0x21" 2 with
      tx := { (transferEntry "0x21" 2).tx with senderAddress := pushedAddress }
      stxEvents :=
        [{ eventIndex := 0, txId := "0x0b", txIndex := 0, blockHeight := 2, canonical := true
           assetEventTypeId := .transfer, sender := some pushedAddress, recipient := some "ST2"
           amount := 100 }] }] }

/-- The request by which a client subscribes to the balance of the address. -/
def joinBalance : WebSocketData :=
  .single (.request
    { id := .number 1, method := "subscribe"
      params := some
        { event := some "address_balance_update", txId := none, address := some pushedAddress } })

/-- The read for the mint sends its first query. -/
def mintPushes : List (PushAction String) :=
  .call (.update mintForAddress) :: List.replicate 5 .announce ++ [.query]

/-- The payment commits between its queries, and is read in its turn. -/
def paymentPushes : List (PushAction String) :=
  .call (.update payFromAddress) :: [.query, .finish] ++ List.replicate 4 .announce ++
    [.query, .query, .finish]

/-- The state after some actions. -/
def pushRun (state : BalancePush String) (actions : List (PushAction String)) :
    BalancePush String :=
  (execute (pushStep AddressLibrary.zeroHash) state actions).getD state

theorem execute_pushRun {state : BalancePush String} {actions : List (PushAction String)}
    (enabled : (execute (pushStep AddressLibrary.zeroHash) state actions).isSome) :
    execute (pushStep AddressLibrary.zeroHash) state actions = some (pushRun state actions) := by
  obtain ⟨last, ran⟩ := Option.isSome_iff_exists.mp enabled
  rw [pushRun, ran, Option.getD_some]

/-- The sample client has joined. -/
def joinedRun : BalancePush String :=
  pushRun (BalancePush.start Db.empty) [.message "first" joinBalance]

/-- The payment tears the first read, and the client is told the right balance after it. -/
theorem balances_pushed_payment :
    ∃ told, (pushRun joinedRun (mintPushes ++ paymentPushes)).sent = joinedRun.sent ++ told ∧
      knownBalance "first" pushedAddress (balanceText joinedRun.db pushedAddress) told =
        balanceText (pushRun joinedRun (mintPushes ++ paymentPushes)).db pushedAddress := by
  have stays : Meets (Stays AddressLibrary.zeroHash "first" pushedAddress)
      (pushStep AddressLibrary.zeroHash) joinedRun (mintPushes ++ paymentPushes) := by
    apply Meets.append
    · refine ⟨?_, fun _ _ => meets_of_forall fun action mem state => ?_⟩
      · exact quietReorg_of_noReorg fun _ high => absurd high (by decide)
      · rcases List.mem_append.mp mem with announces | queries
        · rw [List.eq_of_mem_replicate announces]
          trivial
        · rw [List.mem_singleton.mp queries]
          trivial
    · intro middle ran
      rw [execute_pushRun (by decide +kernel)] at ran
      cases ran
      refine ⟨?_, fun _ _ => meets_of_forall fun action mem state => ?_⟩
      · apply quietReorg_of_noReorg
        unfold NoReorg
        decide +kernel
      · have mem : action ∈ [.query, .finish, .announce, .announce, .announce, .announce, .query,
            .query, .finish] := mem
        simp only [List.mem_cons, List.not_mem_nil, or_false] at mem
        rcases mem with rfl | rfl | rfl | rfl | rfl | rfl | rfl | rfl | rfl <;> trivial
  have joins : execute (pushStep AddressLibrary.zeroHash) (BalancePush.start Db.empty)
      [.message "first" joinBalance] = some joinedRun := execute_pushRun (by decide +kernel)
  have pushed := balances_pushed joins
    (meets_of_forall fun action mem _ => by rw [List.mem_singleton.mp mem]; trivial)
    (by decide +kernel : "first" ∈ joinedRun.server.subscribers .addressBalanceUpdate pushedAddress)
    (execute_pushRun (by decide +kernel)) stays
  refine pushed.1 ?_ (by decide +kernel)
  have taken : (pushRun joinedRun (mintPushes ++ paymentPushes)).emitted = [] := by decide +kernel
  rw [taken]
  rintro ⟨info, mem, -⟩
  cases mem

example : balancesTold "first" pushedAddress
    (pushRun joinedRun (mintPushes ++ paymentPushes)).sent = ["993", "893"] := by
  decide +kernel

end Sample

end StacksApi.Client
