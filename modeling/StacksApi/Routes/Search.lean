import StacksApi.Datastore.Searches
import StacksApi.Routes.Links

/-!
# The search route

`GET /search/:term`: a term of 32 hexadecimal bytes is searched as a hash, any other one
as a principal, and what is not found is answered with a 404.
-/

namespace StacksApi.Routes

open StacksApi.Binary
open StacksApi.Text
open StacksApi.Relational
open StacksApi.Datastore
open StacksApi.Controllers
open StacksApi.Transition
open Reading

/-- The entity types of what is not found. -/
inductive SearchResultType
  | standardAddress
  | contractAddress
  | unknownHash
  | invalidTerm
  deriving DecidableEq

/-- The block of a transaction in a result. -/
structure SearchInclusion where
  canonical : Bool
  blockHash : String
  burnBlockTime : Int
  blockHeight : Nat
  deriving DecidableEq

/-- `tx_data`; a transaction of the mempool is in no block. -/
structure SearchTxData where
  inclusion : Option SearchInclusion
  txType : String
  deriving DecidableEq

/-- A block in a result. -/
structure SearchBlockData where
  canonical : Bool
  hash : String
  parentBlockHash : String
  burnBlockTime : Int
  height : Nat
  deriving DecidableEq

/-- What a search is answered with. -/
inductive SearchResult
  | blockHash (entityId : String) (blockData : SearchBlockData)
  | txId (entityId : String) (txData : SearchTxData)
  | mempoolTxId (entityId : String) (txData : SearchTxData)
  | contractAddress (entityId : String) (txData : Option SearchTxData)
  | standardAddress (entityId : String)
  | notFound (entityType : SearchResultType) (error : String)
  deriving DecidableEq

/-- The search has found something. -/
def SearchResult.found : SearchResult → Bool
  | .notFound _ _ => false
  | _ => true

/-- A block of the store in a result. -/
def searchBlockData (blockData : DbBlock String) : SearchBlockData where
  canonical := blockData.canonical
  hash := blockData.blockHash
  parentBlockHash := blockData.parentBlockHash
  burnBlockTime := blockData.burnBlockTime
  height := blockData.blockHeight

/-- A mined transaction in a result. -/
def minedTxData (txData : DbTx String) : SearchTxData where
  inclusion := some {
    canonical := txData.canonical
    blockHash := txData.blockHash
    burnBlockTime := txData.burnBlockTime
    blockHeight := txData.blockHeight }
  txType := getTxTypeString txData.typeId

/-- A pending transaction in a result. -/
def pendingTxData (txData : DbMempoolTx String) : SearchTxData where
  inclusion := none
  txType := getTxTypeString txData.typeId

/-- What is answered for a hash that is found. -/
def hashResult : DbSearchResult → SearchResult
  | .blockHash entityId blockData => .blockHash entityId (searchBlockData blockData)
  | .txId entityId txData => .txId entityId (minedTxData txData)
  | .mempoolTxId entityId txData => .mempoolTxId entityId (pendingTxData txData)

/-- What is answered for a principal that is found.  A transaction with an empty `block_hash`
counts as pending. -/
def principalResult : PrincipalType → PrincipalSearchResult → SearchResult
  | .contractAddress, .txId entityId txData =>
      .contractAddress entityId (some (if txData.blockHash = "" then
        { inclusion := none, txType := getTxTypeString txData.typeId } else minedTxData txData))
  | .contractAddress, .contractAddress entityId txData =>
      .contractAddress entityId (some (pendingTxData txData))
  | .contractAddress, .standardAddress entityId => .contractAddress entityId none
  | .standardAddress, .txId entityId _ => .standardAddress entityId
  | .standardAddress, .contractAddress entityId _ => .standardAddress entityId
  | .standardAddress, .standardAddress entityId => .standardAddress entityId

/-- The type of results for a kind of principals. -/
def principalResultType : PrincipalType → SearchResultType
  | .contractAddress => .contractAddress
  | .standardAddress => .standardAddress

/-- The answer for a hash that is not found. -/
def unknownHash (hash : String) : SearchResult :=
  .notFound .unknownHash s!"No block or transaction found with hash \"{hash}\""

/-- The answer for a principal that is not found. -/
def unknownPrincipal (principalCheck : PrincipalType) (term : String) : SearchResult :=
  .notFound (principalResultType principalCheck) s!"No principal found with address \"{term}\""

/-- The answer for what is neither a hash nor a principal. -/
def invalidTerm (term : String) : SearchResult :=
  .notFound .invalidTerm (s!"The term \"{term}\" is not a valid block hash, transaction ID, " ++
    "contract principal, or account address principal")

section Search

variable (addresses : AddressLibrary)

/-- The check for 32 bytes is that of `normalizeHashString`. -/
def performSearch (term : String) : QueryM SearchResult :=
  match normalizeHashString term with
  | some hash => do
      match ← Stepwise.searchHash hash with
      | some result => return hashResult result
      | none => return unknownHash hash
  | none =>
      match isValidPrincipal addresses term with
      | some principalCheck => do
          match ← Stepwise.searchPrincipal term with
          | some result => return principalResult principalCheck result
          | none => return unknownPrincipal principalCheck term
      | none => return invalidTerm term

/-- The status and the body of the answer. -/
def getSearch (rawTerm : String) : QueryM (Nat × SearchResult) := do
  let term := String.ofList (trim rawTerm.toList)
  let searchResult ← performSearch addresses term
  return (if searchResult.found then 200 else 404, searchResult)

end Search

/-! ## What is not found -/

theorem found_hashResult (result : DbSearchResult) : (hashResult result).found = true := by
  cases result <;> rfl

theorem found_principalResult (principalCheck : PrincipalType) (result : PrincipalSearchResult) :
    (principalResult principalCheck result).found = true := by
  cases principalCheck <;> cases result <;> rfl

section NotFound

variable {addresses : AddressLibrary} {calls : List StoreCall} {start last : Moment calls}
variable {rawTerm term : String}

theorem ends_getSearch_notFound_iff :
    (∃ shown, Ends Moment.Sees start (getSearch addresses rawTerm) last (.ok (404, shown))) ↔
      ∃ shown, Ends Moment.Sees start
        (performSearch addresses (String.ofList (trim rawTerm.toList))) last (.ok shown) ∧
          shown.found = false := by
  constructor
  · rintro ⟨shown, ends⟩
    obtain ⟨shown', middle, searched, ends⟩ := ends_bind_ok_iff.mp ends
    obtain ⟨rfl, same⟩ := ends_pure_iff.mp ends
    refine ⟨shown', searched, ?_⟩
    cases found : shown'.found with
    | false => rfl
    | true =>
        rw [found] at same
        cases same
  · rintro ⟨shown, searched, missed⟩
    refine ⟨shown, ends_bind_ok_iff.mpr ⟨shown, last, searched, ends_pure_iff.mpr ⟨rfl, ?_⟩⟩⟩
    rw [missed]
    rfl

theorem ends_performSearch_hash_iff {hash : String}
    (normalized : normalizeHashString term = some hash) :
    (∃ shown, Ends Moment.Sees start (performSearch addresses term) last (.ok shown) ∧
        shown.found = false) ↔
      Ends Moment.Sees start (Stepwise.searchHash hash) last (.ok none) := by
  rw [performSearch, normalized]
  constructor
  · rintro ⟨shown, ends, missed⟩
    obtain ⟨result, middle, searched, ends⟩ := ends_bind_ok_iff.mp ends
    cases result with
    | none =>
        obtain ⟨rfl, -⟩ := ends_pure_iff.mp ends
        exact searched
    | some result =>
        obtain ⟨-, same⟩ := ends_pure_iff.mp ends
        rw [Except.ok.inj same, found_hashResult] at missed
        cases missed
  · intro searched
    exact ⟨unknownHash hash, ends_bind_ok_iff.mpr
      ⟨none, last, searched, ends_pure_iff.mpr ⟨rfl, rfl⟩⟩, rfl⟩

theorem ends_performSearch_principal_iff {principalCheck : PrincipalType}
    (notHash : normalizeHashString term = none)
    (valid : isValidPrincipal addresses term = some principalCheck) :
    (∃ shown, Ends Moment.Sees start (performSearch addresses term) last (.ok shown) ∧
        shown.found = false) ↔
      Ends Moment.Sees start (Stepwise.searchPrincipal term) last (.ok none) := by
  rw [performSearch, notHash, valid]
  constructor
  · rintro ⟨shown, ends, missed⟩
    obtain ⟨result, middle, searched, ends⟩ := ends_bind_ok_iff.mp ends
    cases result with
    | none =>
        obtain ⟨rfl, -⟩ := ends_pure_iff.mp ends
        exact searched
    | some result =>
        obtain ⟨-, same⟩ := ends_pure_iff.mp ends
        rw [Except.ok.inj same, found_principalResult] at missed
        cases missed
  · intro searched
    exact ⟨unknownPrincipal principalCheck term, ends_bind_ok_iff.mpr
      ⟨none, last, searched, ends_pure_iff.mpr ⟨rfl, rfl⟩⟩, rfl⟩

/-- A search for a hash may be answered with a 404 exactly when no transaction in a block has
it as the search begins and, in some later moment, neither a pending one nor a block has it.
The mempool is asked second: a transaction that is known throughout, first as pending and
then as mined, is missed when it is mined between the two queries. -/
theorem getSearch_hash_notFound_iff (consistent : Consistent (updatesOf calls))
    {digits : List Char} (hash : HashText (String.ofList (trim rawTerm.toList)) digits) :
    (∃ last shown, Ends Moment.Sees start (getSearch addresses rawTerm) last
        (.ok (404, shown))) ↔
      (∀ tx ∈ start.db.txs, tx.txId ≠ fromHex digits) ∧ ∃ later, start ≤ later ∧
        (∀ pending ∈ later.db.mempoolTxs, pending.txId ≠ fromHex digits) ∧
        ∀ block ∈ later.db.blocks, block.blockHash ≠ fromHex digits := by
  rw [← searchHash_missed_iff consistent (hexToBuffer_bufferToHexPrefixString (fromHex digits))]
  refine exists_congr fun last => ?_
  rw [ends_getSearch_notFound_iff, ends_performSearch_hash_iff hash.normalize]

end NotFound

/-! ## A contract that is deployed -/

/-- The id of the deployment. -/
def deploymentId : Buffer :=
  List.replicate 32 0xab

/-- The id of a contract. -/
def deployedContract : String :=
  "ST000000000000000000002AMW42H.hello-world"

/-- The columns of the transaction that deploys it. -/
def deploymentColumns (status : DbTxStatus) : DbTxBase String :=
  { transferColumns status with
    txId := bufferToHexPrefixString deploymentId
    typeId := .smartContract
    tokenTransferRecipientAddress := none
    tokenTransferAmount := none
    tokenTransferMemo := none
    smartContractContractId := some deployedContract
    smartContractSourceCode := some "()" }

/-- The contract is pending and then deployed. -/
def deploymentCalls : List StoreCall :=
  [.updateMempoolTx { toDbTxBase := deploymentColumns .pending, receiptTime := 1594647995 },
    .update { emptyBlock "0x11" "0x00" 1 with
      txs := [{
        tx := { transferTx "0x11" 1 with toDbTxBase := deploymentColumns .success }
        stxEvents := []
        ftEvents := []
        nftEvents := []
        contractLogEvents := []
        smartContracts := [] }] }]

theorem deploymentCalls_consistent : Consistent (updatesOf deploymentCalls) :=
  consistent_of_checked (by decide) (by decide)

/-- The moment after so many of the calls. -/
def deploymentMoment (count : Nat) : Moment deploymentCalls where
  past := deploymentCalls.take count
  isPrefix := List.take_prefix count _

/-- The deployment is known from the first moment on, and yet its id may be missed. -/
theorem getSearch_deploymentId_missed :
    TxKnown (deploymentMoment 1).db deploymentId ∧ TxKnown (deploymentMoment 2).db deploymentId ∧
      ∃ last shown, Ends Moment.Sees (deploymentMoment 1)
        (getSearch AddressLibrary.zeroHash (bufferToHexPrefixString deploymentId)) last
        (.ok (404, shown)) := by
  have pending : (deploymentMoment 1).db.mempoolTxs.map (fun tx => tx.txId) = [deploymentId] ∧
      (deploymentMoment 1).db.txs = [] := by
    decide +kernel
  have mined : (deploymentMoment 2).db.mempoolTxs = [] ∧
      (deploymentMoment 2).db.txs.map (fun tx => tx.txId) = [deploymentId] ∧
        ∀ block ∈ (deploymentMoment 2).db.blocks, block.blockHash ≠ deploymentId := by
    decide +kernel
  have trimmed : String.ofList (trim (bufferToHexPrefixString deploymentId).toList) =
      bufferToHexPrefixString deploymentId := by
    decide +kernel
  have hash : HashText (String.ofList (trim (bufferToHexPrefixString deploymentId).toList))
      (toHex deploymentId) := by
    rw [trimmed]
    exact HashText.ofBuffer rfl
  refine ⟨Or.inl ?_, Or.inr ?_, ?_⟩
  · exact List.mem_map.mp (pending.1 ▸ List.mem_singleton_self deploymentId)
  · exact List.mem_map.mp (mined.2.1 ▸ List.mem_singleton_self deploymentId)
  · refine (getSearch_hash_notFound_iff deploymentCalls_consistent hash).mpr ?_
    rw [fromHex_toHex, pending.2]
    refine ⟨List.forall_mem_nil _, deploymentMoment 2, List.take_prefix_take_left (by decide), ?_,
      mined.2.2⟩
    rw [mined.1]
    exact List.forall_mem_nil _

section NotFound

variable {addresses : AddressLibrary} {calls : List StoreCall} {start last : Moment calls}
variable {rawTerm : String}

/-- A search for a principal may be answered with a 404 exactly when the principal does not
occur in the tables as the search begins. -/
theorem getSearch_principal_notFound_iff (consistent : Consistent (updatesOf calls))
    (alike : DeploysAlike calls) {principalCheck : PrincipalType}
    (notHash : normalizeHashString (String.ofList (trim rawTerm.toList)) = none)
    (valid : isValidPrincipal addresses (String.ofList (trim rawTerm.toList)) =
      some principalCheck) :
    (∃ last shown, Ends Moment.Sees start (getSearch addresses rawTerm) last
        (.ok (404, shown))) ↔
      ¬PrincipalKnown start.db (String.ofList (trim rawTerm.toList)) := by
  rw [← searchPrincipal_missed_iff consistent alike]
  refine exists_congr fun last => ?_
  rw [ends_getSearch_notFound_iff, ends_performSearch_principal_iff notHash valid]

end NotFound

/-- The contract itself is never missed. -/
theorem getSearch_deployedContract_found :
    ¬∃ last shown, Ends Moment.Sees (deploymentMoment 1)
      (getSearch AddressLibrary.zeroHash deployedContract) last (.ok (404, shown)) := by
  have alike : DeploysAlike deploymentCalls := by
    intro pending pendingMem tx txMem _
    rw [List.mem_singleton.mp pendingMem, List.mem_singleton.mp txMem]
    rfl
  have trimmed : String.ofList (trim deployedContract.toList) = deployedContract := by decide
  have known : PrincipalKnown (deploymentMoment 1).db
      (String.ofList (trim deployedContract.toList)) := by
    decide +kernel
  rw [getSearch_principal_notFound_iff deploymentCalls_consistent alike
    (by rw [trimmed]; decide) (by rw [trimmed]; decide : isValidPrincipal _ _ =
      some PrincipalType.contractAddress), not_not]
  exact known

/-! ## What is found -/

/-- The tables hold what the answer names. -/
def NamesStored (db : Db) : SearchResult → Prop
  | .txId entityId _ | .mempoolTxId entityId _ =>
      ∃ buffer, entityId = bufferToHexPrefixString buffer ∧ TxKnown db buffer
  | .blockHash entityId _ =>
      ∃ block ∈ db.blocks, entityId = bufferToHexPrefixString block.blockHash
  | _ => True

section Found

variable {addresses : AddressLibrary} {calls : List StoreCall}
variable {start middle later last : Moment calls} {rawTerm : String}

theorem getSearch_found {shown : SearchResult}
    (ends : Ends Moment.Sees start (getSearch addresses rawTerm) last (.ok (200, shown))) :
    (∃ hash result, shown = hashResult result ∧
        Ends Moment.Sees start (Stepwise.searchHash hash) last (.ok (some result))) ∨
      ∃ principalCheck result, shown = principalResult principalCheck result := by
  obtain ⟨shown', middle, searched, ends⟩ := ends_bind_ok_iff.mp ends
  obtain ⟨rfl, same⟩ := ends_pure_iff.mp ends
  obtain ⟨status, rfl⟩ := Prod.mk.inj (Except.ok.inj same)
  have found : shown.found = true := by
    by_contra missed
    rw [if_neg missed] at status
    cases status
  rw [performSearch] at searched
  split at searched
  · next hash _ =>
      obtain ⟨result, middle, searched, ends⟩ := ends_bind_ok_iff.mp searched
      cases result with
      | none =>
          obtain ⟨-, same⟩ := ends_pure_iff.mp ends
          rw [Except.ok.inj same] at found
          cases found
      | some result =>
          obtain ⟨rfl, same⟩ := ends_pure_iff.mp ends
          exact Or.inl ⟨hash, result, Except.ok.inj same, searched⟩
  · split at searched
    · next principalCheck _ =>
        obtain ⟨result, middle, searched, ends⟩ := ends_bind_ok_iff.mp searched
        cases result with
        | none =>
            obtain ⟨-, same⟩ := ends_pure_iff.mp ends
            rw [Except.ok.inj same] at found
            cases found
        | some result =>
            obtain ⟨-, same⟩ := ends_pure_iff.mp ends
            exact Or.inr ⟨principalCheck, result, Except.ok.inj same⟩
    · obtain ⟨-, same⟩ := ends_pure_iff.mp searched
      rw [Except.ok.inj same] at found
      cases found

theorem getSearch_namesStored {shown : SearchResult}
    (ends : Ends Moment.Sees start (getSearch addresses rawTerm) last (.ok (200, shown))) :
    NamesStored last.db shown := by
  rcases getSearch_found ends with ⟨hash, result, rfl, searched⟩ | ⟨principalCheck, result, rfl⟩
  · rcases searchHash_found searched with ⟨tx, mem, data, rfl⟩ | ⟨tx, mem, data, rfl⟩ |
      ⟨block, mem, data, rfl⟩
    · exact ⟨tx.txId, rfl, Or.inr ⟨tx, mem, rfl⟩⟩
    · exact ⟨tx.txId, rfl, Or.inl ⟨tx, mem, rfl⟩⟩
    · exact ⟨block, mem, rfl⟩
  · cases principalCheck <;> cases result <;> exact trivial

variable {CV Ty : Type} {clarity : ClarityLibrary CV} {abis : AbiLibrary Ty}

/-- What a search names is found by the route for it whenever that is asked later. -/
theorem getSearch_linked (consistent : Consistent (updatesOf calls)) {shown : SearchResult}
    (answered : Ends Moment.Sees start (getSearch addresses rawTerm) middle (.ok (200, shown)))
    (order : middle ≤ later) {id : String} :
    ((∃ data, shown = .txId id data ∨ shown = .mempoolTxId id data) →
      ∀ outcome, Ends Moment.Sees later (getTransaction clarity addresses abis id) last outcome →
        (∃ tx, outcome = .ok (.ok tx) ∧ tx.txId = id) ∨ ∃ error, outcome = .error error ∧
          Ends Moment.Sees later (Stepwise.getTxFromDataStore clarity addresses abis id) last
            (.error error)) ∧
    ((∃ data, shown = .blockHash id data) →
      ∀ outcome, Ends Moment.Sees later (getBlockByHash id) last outcome →
        ∃ block, outcome = .ok (.ok block) ∧ block.hash = id) := by
  have named := getSearch_namesStored answered
  have outlasts := Moment.outlasts consistent order
  constructor
  · rintro ⟨data, rfl | rfl⟩ outcome ends
    all_goals
      obtain ⟨buffer, rfl, known⟩ := named
      exact getTransaction_of_known consistent (hexToBuffer_bufferToHexPrefixString _)
        (outlasts.txKnown known) ends
  · rintro ⟨data, rfl⟩ outcome ends
    obtain ⟨block, mem, rfl⟩ := named
    obtain ⟨block', mem', same⟩ := outlasts.exists_block mem
    have sameHash : block'.blockHash = block.blockHash :=
      congrArg (fun block => block.blockHash) same
    exact getBlockByHash_of_stored consistent (hexToBuffer_bufferToHexPrefixString _)
      ⟨block', mem', sameHash⟩ ends

end Found

/-- The deployment is found while it is pending, and again when it is mined. -/
theorem getSearch_linked_deployed :
    ∃ tx, (getTransaction ClarityLibrary.booleans AddressLibrary.zeroHash AbiLibrary.null
        (bufferToHexPrefixString deploymentId)).alone (deploymentMoment 2).db = .ok (.ok tx) ∧
      tx.txId = bufferToHexPrefixString deploymentId := by
  have answered : (getSearch AddressLibrary.zeroHash (bufferToHexPrefixString deploymentId)).alone
      (deploymentMoment 1).db = .ok (200, .mempoolTxId (bufferToHexPrefixString deploymentId)
        { inclusion := none, txType := "smart_contract" }) := by
    decide +kernel
  have shows : ((getTransaction ClarityLibrary.booleans AddressLibrary.zeroHash AbiLibrary.null
      (bufferToHexPrefixString deploymentId)).alone (deploymentMoment 2).db).isOk = true := by
    decide +kernel
  have later : deploymentMoment 1 ≤ deploymentMoment 2 := List.take_prefix_take_left (by decide)
  rcases (getSearch_linked deploymentCalls_consistent
      (answered ▸ ends_alone (Moment.sees_self _) _) later).1 ⟨_, Or.inr rfl⟩ _
      (ends_alone (Moment.sees_self _) (getTransaction ClarityLibrary.booleans
        AddressLibrary.zeroHash AbiLibrary.null (bufferToHexPrefixString deploymentId))) with
    found | ⟨error, failed, -⟩
  · exact found
  · rw [failed] at shows
    cases shows

end StacksApi.Routes
