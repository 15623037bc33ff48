import StacksApi.Relational.Query

/-!
# Faucet requests

The table `faucet_requests` and its queries in the two data stores.  Postgres
reads the rows in an order of its own, the memory store in that of insertion.
-/

namespace StacksApi.Datastore

open StacksApi.Relational

/-- What the faucets pay. -/
inductive DbFaucetRequestCurrency
  | btc
  | stx
  deriving DecidableEq

/-- A request that has been recorded. -/
structure DbFaucetRequest where
  currency : DbFaucetRequestCurrency
  address : String
  ip : String
  /-- Milliseconds of `Date.now()`. -/
  occurredAt : Int
  deriving DecidableEq

/-- A request is added to those recorded. -/
def insertFaucetRequest (faucetRequest : DbFaucetRequest) (faucetRequests : List DbFaucetRequest) :
    List DbFaucetRequest :=
  faucetRequests ++ [faucetRequest]

/-- Whether a row is of a currency and an address. -/
def DbFaucetRequest.isOf (currency : DbFaucetRequestCurrency) (address : String)
    (row : DbFaucetRequest) : Bool :=
  row.address = address ∧ row.currency = currency

namespace PgDataStore

/-- The latest five rows of a currency and an address, from rows as they are read. -/
def getFaucetRequests (currency : DbFaucetRequestCurrency) (address : String)
    (scanned : List DbFaucetRequest) : List DbFaucetRequest :=
  page 5 0 (orderByDesc DbFaucetRequest.occurredAt
    (scanned.filter (DbFaucetRequest.isOf currency address)))

/-- The recorded requests of an address for bitcoin. -/
def getBTCFaucetRequests : String → List DbFaucetRequest → List DbFaucetRequest :=
  getFaucetRequests .btc

/-- The recorded requests of an address for STX. -/
def getSTXFaucetRequests : String → List DbFaucetRequest → List DbFaucetRequest :=
  getFaucetRequests .stx

end PgDataStore

namespace MemoryDataStore

/-- The requests are filtered twice, sorted and cut. -/
def getFaucetRequests (currency : DbFaucetRequestCurrency) (address : String)
    (faucetRequests : List DbFaucetRequest) : List DbFaucetRequest :=
  (((faucetRequests.filter fun f => f.address = address).filter fun f =>
    f.currency = currency).insertionSort fun a b => b.occurredAt ≤ a.occurredAt).take 5

/-- The recorded requests of an address for bitcoin. -/
def getBTCFaucetRequests : String → List DbFaucetRequest → List DbFaucetRequest :=
  getFaucetRequests .btc

/-- The recorded requests of an address for STX. -/
def getSTXFaucetRequests : String → List DbFaucetRequest → List DbFaucetRequest :=
  getFaucetRequests .stx

end MemoryDataStore

/-- The data stores that a server can run on. -/
inductive DataStoreKind
  | postgres
  | memory
  deriving DecidableEq

/-- How the rows of the table may be read. -/
def DataStoreKind.Scans (kind : DataStoreKind) (faucetRequests scanned : List DbFaucetRequest) :
    Prop :=
  match kind with
  | .postgres => scanned.Perm faucetRequests
  | .memory => scanned = faucetRequests

instance (kind : DataStoreKind) (faucetRequests scanned : List DbFaucetRequest) :
    Decidable (kind.Scans faucetRequests scanned) :=
  match kind with
  | .postgres => inferInstanceAs (Decidable (scanned.Perm faucetRequests))
  | .memory => inferInstanceAs (Decidable (scanned = faucetRequests))

/-- The query that a route makes. -/
def DataStoreKind.getFaucetRequests (kind : DataStoreKind) :
    DbFaucetRequestCurrency → String → List DbFaucetRequest → List DbFaucetRequest :=
  match kind with
  | .postgres => fun
      | .btc => PgDataStore.getBTCFaucetRequests
      | .stx => PgDataStore.getSTXFaucetRequests
  | .memory => fun
      | .btc => MemoryDataStore.getBTCFaucetRequests
      | .stx => MemoryDataStore.getSTXFaucetRequests

variable {kind : DataStoreKind} {currency : DbFaucetRequestCurrency} {address : String}

theorem DataStoreKind.Scans.perm {faucetRequests scanned : List DbFaucetRequest}
    (scans : kind.Scans faucetRequests scanned) : scanned.Perm faucetRequests := by
  cases kind with
  | postgres => exact scans
  | memory => exact List.Perm.of_eq scans

/-- Both stores yield the latest five rows. -/
theorem getFaucetRequests_eq (scanned : List DbFaucetRequest) :
    kind.getFaucetRequests currency address scanned =
      (orderByDesc DbFaucetRequest.occurredAt
        (scanned.filter (DbFaucetRequest.isOf currency address))).take 5 := by
  have filters : (scanned.filter fun f => f.address = address).filter
      (fun f => f.currency = currency) =
        scanned.filter (DbFaucetRequest.isOf currency address) := by
    rw [List.filter_filter]
    apply List.filter_congr
    intro row _
    rw [DbFaucetRequest.isOf, Bool.decide_and, Bool.and_comm]
  cases kind with
  | postgres => cases currency <;> rfl
  | memory =>
      cases currency <;>
        exact congrArg (fun rows => (orderByDesc DbFaucetRequest.occurredAt rows).take 5) filters

end StacksApi.Datastore
