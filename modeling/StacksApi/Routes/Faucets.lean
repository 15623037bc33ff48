import Mathlib.Logic.Function.Basic
import StacksApi.Datastore.FaucetRequests
import StacksApi.Transition.Actions

/-!
# The faucets

`api/routes/faucets.ts`.  Each of the two routes handles its requests one at a
time; the steps of one route may fall between those of the other.  A step that
waits for the data store or a node is an action of its own, and its outcome is
part of the action.  The bitcoin route records a request after its payment, the
other one before.
-/

namespace StacksApi.Routes

open StacksApi.Relational
open StacksApi.Datastore
open StacksApi.Transition

/-! ## Requests -/

/-- What the body of a request and its connection say. -/
structure FaucetPost where
  address : String
  ip : String
  deriving DecidableEq

/-- What a request to a faucet is answered with. -/
inductive FaucetResponse
  | success
  | tooManyRequests
  | failed
  deriving DecidableEq

/-- How far a route has come with its present request. -/
inductive FaucetStage
  | idle
  /-- The last requests have been read. -/
  | fetched (post : FaucetPost) (lastRequests : List DbFaucetRequest)
  /-- The limit was not hit at `now`. -/
  | admitted (post : FaucetPost) (now : Int)
  /-- The payment is made, not broadcast. -/
  | built (post : FaucetPost) (now : Int)
  /-- The payment is broadcast, the request not recorded. -/
  | paid (post : FaucetPost) (now : Int)
  /-- The request is recorded, the payment not broadcast. -/
  | recorded (post : FaucetPost) (now : Int)
  deriving DecidableEq

/-- The recorded requests, and the one that each queue is busy with. -/
structure FaucetState where
  faucetRequests : List DbFaucetRequest
  /-- The last value of `Date.now()`. -/
  clock : Int
  stage : DbFaucetRequestCurrency → FaucetStage
  /-- The payments that were broadcast, each as the request that it is for. -/
  broadcasts : List DbFaucetRequest
  answers : List (DbFaucetRequestCurrency × FaucetPost × FaucetResponse)

namespace FaucetState

/-- The server before the first request. -/
def start : FaucetState where
  faucetRequests := []
  clock := 0
  stage _ := .idle
  broadcasts := []
  answers := []

/-- A route comes to a stage. -/
def enter (state : FaucetState) (currency : DbFaucetRequestCurrency) (stage : FaucetStage) :
    FaucetState :=
  { state with stage := Function.update state.stage currency stage }

/-- The handler of a request ends. -/
def answer (state : FaucetState) (currency : DbFaucetRequestCurrency) (post : FaucetPost)
    (response : FaucetResponse) : FaucetState :=
  { state.enter currency .idle with answers := state.answers ++ [(currency, post, response)] }

/-- A request is recorded. -/
def insert (state : FaucetState) (request : DbFaucetRequest) : FaucetState :=
  { state with faucetRequests := insertFaucetRequest request state.faucetRequests }

/-- A payment is broadcast. -/
def broadcast (state : FaucetState) (request : DbFaucetRequest) : FaucetState :=
  { state with broadcasts := state.broadcasts ++ [request] }

end FaucetState

/-- The row of a request. -/
def FaucetPost.request (post : FaucetPost) (currency : DbFaucetRequestCurrency) (now : Int) :
    DbFaucetRequest where
  currency := currency
  address := post.address
  ip := post.ip
  occurredAt := now

/-! ## Steps -/

/-- What becomes of a transaction that is sent to a node. -/
inductive SendOutcome
  /-- The call throws, and the node has not taken the transaction. -/
  | refused
  /-- The node has taken the transaction, but the call throws. -/
  | lost
  | accepted (txId : String)
  deriving DecidableEq

/-- How the call that records a request ends. -/
inductive InsertOutcome
  | inserted
  /-- The call throws, and no row is written. -/
  | failed
  /-- The row is written, but the call throws. -/
  | lost
  deriving DecidableEq

/-- The steps of the two routes. -/
inductive FaucetAction
  /-- The next request of a route reads the last requests, or fails to. -/
  | read (currency : DbFaucetRequestCurrency) (post : FaucetPost)
      (scanned : Option (List DbFaucetRequest))
  | check (currency : DbFaucetRequestCurrency) (now : Int)
  /-- `makeBtcFaucetPayment`: any step up to the broadcast throws, or the transaction
  with an id is sent. -/
  | payBtc (prepared : Option String) (sent : SendOutcome)
  | buildStx (built : Bool)
  | record (currency : DbFaucetRequestCurrency) (outcome : InsertOutcome)
  | sendStx (sent : SendOutcome)
  deriving DecidableEq

/-- Five minutes. -/
def faucetWindow : Int :=
  5 * 60 * 1000

/-- Requests are limited to 5 times per 5 minutes. -/
def requestsInWindow (now : Int) (lastRequests : List DbFaucetRequest) : List Int :=
  (lastRequests.map fun r => now - r.occurredAt).filter fun r => r ≤ faucetWindow

variable (kind : DataStoreKind)

/-- The next request of a route reads the last requests of its address. -/
def readRequests (state : FaucetState) (currency : DbFaucetRequestCurrency) (post : FaucetPost)
    (scanned : Option (List DbFaucetRequest)) : Option FaucetState :=
  match state.stage currency, scanned with
  | .idle, none => some (state.answer currency post .failed)
  | .idle, some scanned =>
      if kind.Scans state.faucetRequests scanned then
        some (state.enter currency
          (.fetched post (kind.getFaucetRequests currency post.address scanned)))
      else none
  | _, _ => none

/-- The request is admitted or refused by what it has read. -/
def checkRequest (state : FaucetState) (currency : DbFaucetRequestCurrency) (now : Int) :
    Option FaucetState :=
  match state.stage currency with
  | .fetched post lastRequests =>
      if now < state.clock then none
      else
        let state := { state with clock := now }
        if 5 ≤ (requestsInWindow now lastRequests).length then
          some (state.answer currency post .tooManyRequests)
        else some (state.enter currency (.admitted post now))
  | _ => none

/-- The id that the node returns is compared with that of the transaction. -/
def makeBtcFaucetPayment (state : FaucetState) (prepared : Option String) (sent : SendOutcome) :
    Option FaucetState :=
  match state.stage .btc, prepared, sent with
  | .admitted post _, none, _ => some (state.answer .btc post .failed)
  | .admitted post _, some _, .refused => some (state.answer .btc post .failed)
  | .admitted post now, some _, .lost =>
      some ((state.broadcast (post.request .btc now)).answer .btc post .failed)
  | .admitted post now, some txId, .accepted sendTxResult =>
      let state := state.broadcast (post.request .btc now)
      if sendTxResult ≠ txId then some (state.answer .btc post .failed)
      else some (state.enter .btc (.paid post now))
  | _, _, _ => none

/-- The payment in STX is built. -/
def makeSTXTokenTransfer (state : FaucetState) (built : Bool) : Option FaucetState :=
  match state.stage .stx with
  | .admitted post now =>
      if built then some (state.enter .stx (.built post now))
      else some (state.answer .stx post .failed)
  | _ => none

/-- The bitcoin route is done when the request is recorded. -/
def recordRequest (state : FaucetState) (currency : DbFaucetRequestCurrency)
    (outcome : InsertOutcome) : Option FaucetState :=
  match currency, state.stage currency, outcome with
  | .btc, .paid post now, .inserted =>
      some ((state.insert (post.request .btc now)).answer .btc post .success)
  | .btc, .paid post _, .failed => some (state.answer .btc post .failed)
  | .btc, .paid post now, .lost =>
      some ((state.insert (post.request .btc now)).answer .btc post .failed)
  | .stx, .built post now, .inserted =>
      some ((state.insert (post.request .stx now)).enter .stx (.recorded post now))
  | .stx, .built post _, .failed => some (state.answer .stx post .failed)
  | .stx, .built post now, .lost =>
      some ((state.insert (post.request .stx now)).answer .stx post .failed)
  | _, _, _ => none

/-- The payment in STX is broadcast. -/
def sendTransaction (state : FaucetState) (sent : SendOutcome) : Option FaucetState :=
  match state.stage .stx, sent with
  | .recorded post _, .refused => some (state.answer .stx post .failed)
  | .recorded post now, .lost =>
      some ((state.broadcast (post.request .stx now)).answer .stx post .failed)
  | .recorded post now, .accepted _ =>
      some ((state.broadcast (post.request .stx now)).answer .stx post .success)
  | _, _ => none

/-- A step of the faucets on one of the data stores. -/
def faucetStep (state : FaucetState) : FaucetAction → Option FaucetState
  | .read currency post scanned => readRequests kind state currency post scanned
  | .check currency now => checkRequest state currency now
  | .payBtc prepared sent => makeBtcFaucetPayment state prepared sent
  | .buildStx built => makeSTXTokenTransfer state built
  | .record currency outcome => recordRequest state currency outcome
  | .sendStx sent => sendTransaction state sent

/-! ## What a step does -/

/-- A payment that the node has taken is reported with its id, and the row of a
bitcoin payment is written. -/
def FaucetAction.KeepsRecord : FaucetAction → Prop
  | .payBtc (some txId) sent => sent = .refused ∨ sent = .accepted txId
  | .record .btc outcome => outcome ≠ .failed
  | _ => True

instance : DecidablePred FaucetAction.KeepsRecord := fun action =>
  match action with
  | .payBtc (some txId) sent =>
      inferInstanceAs (Decidable (sent = .refused ∨ sent = .accepted txId))
  | .payBtc none _ => instDecidableTrue
  | .record .btc outcome => inferInstanceAs (Decidable (outcome ≠ .failed))
  | .record .stx _ => instDecidableTrue
  | .read _ _ _ => instDecidableTrue
  | .check _ _ => instDecidableTrue
  | .buildStx _ => instDecidableTrue
  | .sendStx _ => instDecidableTrue

/-- The stage before the row of a request is written. -/
def FaucetStage.ToRecord (post : FaucetPost) (now : Int) :
    DbFaucetRequestCurrency → FaucetStage → Prop
  | .btc, stage => stage = .paid post now
  | .stx, stage => stage = .built post now

/-- The effects of the actions. -/
inductive FaucetEffect (state : FaucetState) : FaucetAction → FaucetState → Prop
  | ended {action : FaucetAction} {currency : DbFaucetRequestCurrency} {post : FaucetPost}
      {response : FaucetResponse} (notPaid : ∀ post now, state.stage currency ≠ .paid post now)
      (kept : action.KeepsRecord) (notCheck : ∀ currency now, action ≠ .check currency now)
      (other : response ≠ .tooManyRequests) :
      FaucetEffect state action (state.answer currency post response)
  | fetched {currency : DbFaucetRequestCurrency} {post : FaucetPost}
      {scanned : List DbFaucetRequest} (idle : state.stage currency = .idle)
      (scans : kind.Scans state.faucetRequests scanned) :
      FaucetEffect state (.read currency post (some scanned)) (state.enter currency
        (.fetched post (kind.getFaucetRequests currency post.address scanned)))
  | refused {currency : DbFaucetRequestCurrency} {now : Int} {post : FaucetPost}
      {lastRequests : List DbFaucetRequest}
      (stage : state.stage currency = .fetched post lastRequests) (later : state.clock ≤ now)
      (full : 5 ≤ (requestsInWindow now lastRequests).length) :
      FaucetEffect state (.check currency now)
        ({ state with clock := now }.answer currency post .tooManyRequests)
  | admitted {currency : DbFaucetRequestCurrency} {now : Int} {post : FaucetPost}
      {lastRequests : List DbFaucetRequest}
      (stage : state.stage currency = .fetched post lastRequests) (later : state.clock ≤ now)
      (free : (requestsInWindow now lastRequests).length < 5) :
      FaucetEffect state (.check currency now)
        ({ state with clock := now }.enter currency (.admitted post now))
  | built {post : FaucetPost} {now : Int} (stage : state.stage .stx = .admitted post now) :
      FaucetEffect state (.buildStx true) (state.enter .stx (.built post now))
  | paid {post : FaucetPost} {now : Int} {txId : String}
      (stage : state.stage .btc = .admitted post now) :
      FaucetEffect state (.payBtc (some txId) (.accepted txId))
        ((state.broadcast (post.request .btc now)).enter .btc (.paid post now))
  | unreported {post : FaucetPost} {now : Int} {txId : String} {sent : SendOutcome}
      (stage : state.stage .btc = .admitted post now)
      (loses : ¬(FaucetAction.payBtc (some txId) sent).KeepsRecord) :
      FaucetEffect state (.payBtc (some txId) sent)
        ((state.broadcast (post.request .btc now)).answer .btc post .failed)
  | dropped {post : FaucetPost} {now : Int} (stage : state.stage .btc = .paid post now) :
      FaucetEffect state (.record .btc .failed) (state.answer .btc post .failed)
  | inserted {currency : DbFaucetRequestCurrency} {outcome : InsertOutcome} {post : FaucetPost}
      {now : Int} {response : FaucetResponse}
      (stage : FaucetStage.ToRecord post now currency (state.stage currency))
      (written : outcome ≠ .failed) (other : response ≠ .tooManyRequests) :
      FaucetEffect state (.record currency outcome)
        ((state.insert (post.request currency now)).answer currency post response)
  | recorded {post : FaucetPost} {now : Int} (stage : state.stage .stx = .built post now) :
      FaucetEffect state (.record .stx .inserted)
        ((state.insert (post.request .stx now)).enter .stx (.recorded post now))
  | sent {post : FaucetPost} {now : Int} {sent : SendOutcome} {response : FaucetResponse}
      (stage : state.stage .stx = .recorded post now) (other : response ≠ .tooManyRequests) :
      FaucetEffect state (.sendStx sent)
        ((state.broadcast (post.request .stx now)).answer .stx post response)

variable {kind} {state state' : FaucetState}

theorem readRequests_effect {currency : DbFaucetRequestCurrency} {post : FaucetPost}
    {scanned : Option (List DbFaucetRequest)}
    (taken : readRequests kind state currency post scanned = some state') :
    FaucetEffect kind state (.read currency post scanned) state' := by
  unfold readRequests at taken
  split at taken
  · next idle =>
      cases taken
      exact .ended (by simp [idle]) trivial nofun nofun
  · next idle =>
      split at taken
      · next scans =>
          cases taken
          exact .fetched idle scans
      · cases taken
  · cases taken

theorem checkRequest_effect {currency : DbFaucetRequestCurrency} {now : Int}
    (taken : checkRequest state currency now = some state') :
    FaucetEffect kind state (.check currency now) state' := by
  unfold checkRequest at taken
  split at taken
  · next stage =>
      split at taken
      · cases taken
      · next later =>
          dsimp only at taken
          split at taken
          · next full =>
              cases taken
              exact .refused stage (not_lt.mp later) full
          · next free =>
              cases taken
              exact .admitted stage (not_lt.mp later) (not_le.mp free)
  · cases taken

theorem makeBtcFaucetPayment_effect {prepared : Option String} {sent : SendOutcome}
    (taken : makeBtcFaucetPayment state prepared sent = some state') :
    FaucetEffect kind state (.payBtc prepared sent) state' := by
  unfold makeBtcFaucetPayment at taken
  split at taken
  · next stage =>
      cases taken
      exact .ended (by simp [stage]) trivial nofun nofun
  · next stage =>
      cases taken
      exact .ended (by simp [stage]) (Or.inl rfl) nofun nofun
  · next stage =>
      cases taken
      exact .unreported stage (by simp [FaucetAction.KeepsRecord])
  · next stage =>
      dsimp only at taken
      split at taken
      · next differs =>
          cases taken
          exact .unreported stage (by simpa [FaucetAction.KeepsRecord] using differs)
      · next same =>
          cases taken
          rw [not_not.mp same]
          exact .paid stage
  · cases taken

theorem makeSTXTokenTransfer_effect {built : Bool}
    (taken : makeSTXTokenTransfer state built = some state') :
    FaucetEffect kind state (.buildStx built) state' := by
  unfold makeSTXTokenTransfer at taken
  split at taken
  · next stage =>
      split at taken
      · next isBuilt =>
          cases taken
          rw [isBuilt]
          exact .built stage
      · cases taken
        exact .ended (by simp [stage]) trivial nofun nofun
  · cases taken

theorem recordRequest_effect {currency : DbFaucetRequestCurrency} {outcome : InsertOutcome}
    (taken : recordRequest state currency outcome = some state') :
    FaucetEffect kind state (.record currency outcome) state' := by
  unfold recordRequest at taken
  split at taken
  · next stage =>
      cases taken
      exact .inserted stage nofun nofun
  · next stage =>
      cases taken
      exact .dropped stage
  · next stage =>
      cases taken
      exact .inserted stage nofun nofun
  · next stage =>
      cases taken
      exact .recorded stage
  · next stage =>
      cases taken
      exact .ended (by simp [stage]) trivial nofun nofun
  · next stage =>
      cases taken
      exact .inserted stage nofun nofun
  · cases taken

theorem sendTransaction_effect {sent : SendOutcome}
    (taken : sendTransaction state sent = some state') :
    FaucetEffect kind state (.sendStx sent) state' := by
  unfold sendTransaction at taken
  split at taken
  · next stage =>
      cases taken
      exact .ended (by simp [stage]) trivial nofun nofun
  · next stage =>
      cases taken
      exact .sent stage nofun
  · next stage =>
      cases taken
      exact .sent stage nofun
  · cases taken

/-- Every step has one of the effects. -/
theorem faucetStep_effect {action : FaucetAction}
    (taken : faucetStep kind state action = some state') :
    FaucetEffect kind state action state' := by
  cases action with
  | read currency post scanned => exact readRequests_effect taken
  | check currency now => exact checkRequest_effect taken
  | payBtc prepared sent => exact makeBtcFaucetPayment_effect taken
  | buildStx built => exact makeSTXTokenTransfer_effect taken
  | record currency outcome => exact recordRequest_effect taken
  | sendStx sent => exact sendTransaction_effect taken

end StacksApi.Routes
