import StacksApi.Controllers.Snapshot
import StacksApi.Routes.Listings
import StacksApi.Routes.Topics

/-!
# Links between the answers

The transactions that the answer for a block names, and the block that the answer for a
transaction names, are found by the routes for them, whatever commits in between.
-/

namespace StacksApi.Routes

open StacksApi.Binary
open StacksApi.Relational
open StacksApi.Datastore
open StacksApi.Controllers
open StacksApi.Transition
open CanonicalEntity Reading

theorem has0xPrefix_of_hexToBuffer {id : String} {buffer : Buffer}
    (decoded : hexToBuffer id = .ok buffer) : has0xPrefix id = true :=
  has0xPrefix_iff.mpr (Or.inl (hexToBuffer_eq_ok_iff.mp decoded).1)

section Followed

variable {calls : List StoreCall} {start middle later last : Moment calls}
variable {CV Ty : Type} {clarity : ClarityLibrary CV} {addresses : AddressLibrary}
variable {abis : AbiLibrary Ty}

theorem ends_respond_iff {Body : Type} {find : QueryM (Option Body)} {missing : String}
    {outcome : Except ApiError (Response Body)} :
    Ends Moment.Sees start (respond find missing) last outcome ↔
      (∃ error, outcome = .error error ∧ Ends Moment.Sees start find last (.error error)) ∨
      (∃ result, outcome = .ok (.ok result) ∧
        Ends Moment.Sees start find last (.ok (some result))) ∨
      outcome = .ok (.notFound missing) ∧ Ends Moment.Sees start find last (.ok none) := by
  rw [respond, ends_bind_iff]
  refine or_congr_right ⟨?_, ?_⟩
  · rintro ⟨found, middle, ended, ends⟩
    cases found with
    | none =>
        obtain ⟨rfl, rfl⟩ := ends_pure_iff.mp ends
        exact Or.inr ⟨rfl, ended⟩
    | some result =>
        obtain ⟨rfl, rfl⟩ := ends_pure_iff.mp ends
        exact Or.inl ⟨result, rfl, ended⟩
  · rintro (⟨result, rfl, ended⟩ | ⟨rfl, ended⟩)
    · exact ⟨some result, last, ended, ends_pure_iff.mpr ⟨rfl, rfl⟩⟩
    · exact ⟨none, last, ended, ends_pure_iff.mpr ⟨rfl, rfl⟩⟩

/-- A transaction that is answered was found. -/
theorem getTransaction_ok {txId : String} {tx : Transaction}
    (ends : Ends Moment.Sees start (getTransaction clarity addresses abis txId) last
      (.ok (.ok tx))) :
    Ends Moment.Sees start (Stepwise.getTxFromDataStore clarity addresses abis txId) last
      (.ok (some tx)) := by
  rw [getTransaction] at ends
  split at ends
  · rcases ends_respond_iff.mp ends with ⟨_, ⟨⟩, -⟩ | ⟨_, ⟨⟩, found⟩ | ⟨⟨⟩, -⟩
    exact found
  · obtain ⟨-, ⟨⟩⟩ := ends_pure_iff.mp ends

theorem getBlockByHash_ok {blockHash : String} {block : Block}
    (ends : Ends Moment.Sees start (getBlockByHash blockHash) last (.ok (.ok block))) :
    Ends Moment.Sees start (Stepwise.getBlockFromDataStore blockHash) last (.ok (some block)) := by
  rw [getBlockByHash] at ends
  split at ends
  · rcases ends_respond_iff.mp ends with ⟨_, ⟨⟩, -⟩ | ⟨_, ⟨⟩, found⟩ | ⟨⟨⟩, -⟩
    exact found
  · obtain ⟨-, ⟨⟩⟩ := ends_pure_iff.mp ends

/-- A transaction that is known is found, or else cannot be shown. -/
theorem getTransaction_of_known (consistent : Consistent (updatesOf calls)) {txId : String}
    {buffer : Buffer} (decoded : hexToBuffer txId = .ok buffer) (known : TxKnown start.db buffer)
    {outcome : Except ApiError (Response Transaction)}
    (ends : Ends Moment.Sees start (getTransaction clarity addresses abis txId) last outcome) :
    (∃ shown, outcome = .ok (.ok shown) ∧ shown.txId = bufferToHexPrefixString buffer) ∨
      ∃ error, outcome = .error error ∧ Ends Moment.Sees start
        (Stepwise.getTxFromDataStore clarity addresses abis txId) last (.error error) := by
  rw [getTransaction, if_pos (has0xPrefix_of_hexToBuffer decoded)] at ends
  rcases ends_respond_iff.mp ends with failed | ⟨shown, rfl, found⟩ | ⟨-, missed⟩
  · exact Or.inr failed
  · obtain ⟨_, decoded', same⟩ := txId_of_getTxFromDataStore found
    cases decoded.symm.trans decoded'
    exact Or.inl ⟨shown, rfl, same⟩
  · obtain ⟨_, decoded', unknown⟩ := getTxFromDataStore_missed consistent missed
    cases decoded.symm.trans decoded'
    exact absurd known unknown

/-- A block that is stored is found. -/
theorem getBlockByHash_of_stored (consistent : Consistent (updatesOf calls)) {blockHash : String}
    {buffer : Buffer} (decoded : hexToBuffer blockHash = .ok buffer)
    (stored : ∃ block ∈ start.db.blocks, block.blockHash = buffer)
    {outcome : Except ApiError (Response Block)}
    (ends : Ends Moment.Sees start (getBlockByHash blockHash) last outcome) :
    ∃ shown, outcome = .ok (.ok shown) ∧ shown.hash = bufferToHexPrefixString buffer := by
  rw [getBlockByHash, if_pos (has0xPrefix_of_hexToBuffer decoded)] at ends
  rcases ends_respond_iff.mp ends with ⟨error, rfl, failed⟩ | ⟨shown, rfl, found⟩ | ⟨rfl, missed⟩
  · obtain ⟨shown, ⟨⟩, -⟩ := getBlockFromDataStore_shows consistent decoded stored failed
  · obtain ⟨_, ⟨⟩, shows⟩ := getBlockFromDataStore_shows consistent decoded stored found
    exact ⟨shown, rfl, shows.hash⟩
  · obtain ⟨shown, ⟨⟩, -⟩ := getBlockFromDataStore_shows consistent decoded stored missed

/-- The route answers from one committed state: whatever commits meanwhile, a transaction and
its events are those of one moment of the request (the interface of a called contract is read
last), and a transaction that was known when the request came is not answered with a 404. -/
theorem getTransaction_outcome (regular : RegularCalls calls) {txId : String}
    (prefixed : has0xPrefix txId = true) {outcome : Except ApiError (Response Transaction)}
    (ends : Ends Moment.Sees start (getTransaction clarity addresses abis txId) last outcome) :
    (∃ error, outcome = .error error) ∨
    (∃ shown, outcome = .ok (.ok shown) ∧
      ∃ (answered : Moment calls) (seen seen' : Db) (stored : StoredTx), start ≤ answered ∧
        answered ≤ last ∧ answered.Sees seen ∧ last.Sees seen' ∧
        parseStoredTx clarity addresses abis seen' stored = .ok shown ∧
        ((∃ pending, stored = .mempool pending ∧ getMempoolTx seen txId = .ok (some pending)) ∨
          ∃ mined events, stored = .mined mined events ∧ getTx seen txId = .ok (some mined) ∧
            getTxEvents seen txId mined.indexBlockHash = .ok events)) ∨
    outcome = .ok (.notFound s!"could not find transaction by ID {txId}") ∧
      ∃ buffer, hexToBuffer txId = .ok buffer ∧ ¬TxKnown start.db buffer := by
  rw [getTransaction, if_pos prefixed] at ends
  rcases ends_respond_iff.mp ends with ⟨error, rfl, -⟩ | ⟨shown, rfl, found⟩ | ⟨rfl, missed⟩
  · exact Or.inl ⟨error, rfl⟩
  · exact Or.inr (Or.inl ⟨shown, rfl, getTxFromDataStore_snapshot regular found⟩)
  · exact Or.inr (Or.inr ⟨rfl, getTxFromDataStore_missed regular.consistent missed⟩)

theorem ends_getTransaction_orphaned :
    ∃ shown, Ends Moment.Sees (orphaningMoment 1) (getTransaction ClarityLibrary.booleans
      AddressLibrary.zeroHash AbiLibrary.null "0x0a") (orphaningMoment 3) (.ok (.ok shown)) ∧
    standing shown = ("0x0a", some ("0x11", false)) := by
  obtain ⟨shown, looked, same⟩ := ends_getTxFromDataStore_orphaned
  exact ⟨shown, ends_respond_iff.mpr (Or.inr (Or.inl ⟨shown, rfl, looked⟩)), same⟩

theorem getTransaction_orphaned :
    ∃ (shown : Transaction) (answered : Moment orphaningCalls) (seen seen' : Db)
      (stored : StoredTx), orphaningMoment 1 ≤ answered ∧ answered ≤ orphaningMoment 3 ∧
      answered.Sees seen ∧ (orphaningMoment 3).Sees seen' ∧
      standing shown = ("0x0a", some ("0x11", false)) ∧
      parseStoredTx ClarityLibrary.booleans AddressLibrary.zeroHash AbiLibrary.null seen' stored =
        .ok shown ∧
      ((∃ pending, stored = .mempool pending ∧ getMempoolTx seen "0x0a" = .ok (some pending)) ∨
        ∃ mined events, stored = .mined mined events ∧ getTx seen "0x0a" = .ok (some mined) ∧
          getTxEvents seen "0x0a" mined.indexBlockHash = .ok events) := by
  obtain ⟨shown, ends, same⟩ := ends_getTransaction_orphaned
  rcases getTransaction_outcome orphaningCalls_regular (by decide) ends with
    ⟨_, ⟨⟩⟩ | ⟨_, ⟨⟩, answered, seen, seen', stored, after, before, sight, sight', parsed, read⟩ |
    ⟨⟨⟩, -⟩
  exact ⟨shown, answered, seen, seen', stored, after, before, sight, sight',
    same, parsed, read⟩

/-- A block that names a transaction was answered; whenever the transaction is asked for
after that, it is found or cannot be shown. -/
theorem getTransaction_linked (consistent : Consistent (updatesOf calls)) {blockHash : String}
    {block : Block}
    (answered : Ends Moment.Sees start (getBlockByHash blockHash) middle (.ok (.ok block)))
    {txId : String} (named : txId ∈ block.txs) (order : middle ≤ later)
    {outcome : Except ApiError (Response Transaction)}
    (ends : Ends Moment.Sees later (getTransaction clarity addresses abis txId) last outcome) :
    (∃ shown, outcome = .ok (.ok shown) ∧ shown.txId = txId) ∨
      ∃ error, outcome = .error error ∧ Ends Moment.Sees later
        (Stepwise.getTxFromDataStore clarity addresses abis txId) last (.error error) := by
  obtain ⟨hash, -, shows⟩ := shows_of_getBlockFromDataStore (getBlockByHash_ok answered)
  obtain ⟨row, mem, rfl⟩ := shows.tx_stored consistent named
  have known := (Moment.outlasts consistent order).txKnown (Or.inr ⟨row, mem, rfl⟩)
  exact getTransaction_of_known consistent (hexToBuffer_bufferToHexPrefixString _) known ends

/-- The block is answered while it is canonical, its transaction when it is not. -/
theorem getTransaction_linked_orphaned :
    ∃ shown, (getTransaction ClarityLibrary.booleans AddressLibrary.zeroHash AbiLibrary.null
        "0x0a").alone (orphaningMoment 3).db = .ok (.ok shown) ∧ shown.txId = "0x0a" := by
  have answered : (getBlockByHash "0x11").alone (orphaningMoment 1).db =
      .ok (.ok {
        canonical := true
        height := 1
        hash := "0x11"
        parentBlockHash := "0x00"
        burnBlockTime := 1594647996
        burnBlockTimeIso := "2020-07-13T13:46:36.000Z"
        txs := ["0x0a"] }) := by
    decide +kernel
  have shows : ((getTransaction ClarityLibrary.booleans AddressLibrary.zeroHash
      AbiLibrary.null "0x0a").alone (orphaningMoment 3).db).isOk = true := by
    decide +kernel
  have later : orphaningMoment 1 ≤ orphaningMoment 3 := List.take_prefix_take_left (by decide)
  rcases getTransaction_linked orphaningCalls_regular.consistent
      (answered ▸ ends_alone (Moment.sees_self _) _) (List.mem_singleton_self "0x0a") later
      (ends_alone (Moment.sees_self _) (getTransaction ClarityLibrary.booleans
        AddressLibrary.zeroHash AbiLibrary.null "0x0a")) with found | ⟨error, failed, -⟩
  · exact found
  · rw [failed] at shows
    cases shows

/-- Only what is mined is shown in a block, and in its own. -/
theorem blockHash_of_parseStoredTx {db : Db} {stored : StoredTx} {shown : Transaction}
    {inclusion : Inclusion} (parsed : parseStoredTx clarity addresses abis db stored = .ok shown)
    (named : shown.inclusion = some inclusion) :
    ∃ mined events, stored = .mined mined events ∧ inclusion.blockHash = mined.blockHash := by
  obtain ⟨mode, -, parsed⟩ := Except.bind_eq_ok.mp parsed
  obtain ⟨postConditionMode, -, parsed⟩ := Except.bind_eq_ok.mp parsed
  obtain ⟨included, includedOk, parsed⟩ := Except.bind_eq_ok.mp parsed
  obtain ⟨receipt, -, parsed⟩ := Except.bind_eq_ok.mp parsed
  obtain ⟨details, -, parsed⟩ := Except.bind_eq_ok.mp parsed
  obtain ⟨events, -, parsed⟩ := Except.bind_eq_ok.mp parsed
  cases parsed
  cases named
  cases stored with
  | mempool tx =>
      rw [parseInclusion] at includedOk
      split at includedOk <;> cases includedOk
  | mined tx events =>
      refine ⟨tx, events, rfl, ?_⟩
      rw [parseInclusion] at includedOk
      split at includedOk
      · cases includedOk
      · obtain ⟨iso, -, includedOk⟩ := Except.bind_eq_ok.mp includedOk
        dsimp only at includedOk
        split at includedOk
        · cases includedOk
          rfl
        · cases includedOk
          rfl
        · obtain ⟨buffer, -, includedOk⟩ := Except.bind_eq_ok.mp includedOk
          obtain ⟨result, -, includedOk⟩ := Except.bind_eq_ok.mp includedOk
          cases includedOk
          rfl

/-- A transaction that names its block was answered; whenever the block is asked for after
that, it is found. -/
theorem getBlockByHash_linked (regular : RegularCalls calls)
    (names : ∀ data ∈ updatesOf calls, NamesBlock data) {txId : String} {tx : Transaction}
    (answered : Ends Moment.Sees start (getTransaction clarity addresses abis txId) middle
      (.ok (.ok tx)))
    {inclusion : Inclusion} (named : tx.inclusion = some inclusion) (order : middle ≤ later)
    {outcome : Except ApiError (Response Block)}
    (ends : Ends Moment.Sees later (getBlockByHash inclusion.blockHash) last outcome) :
    ∃ shown, outcome = .ok (.ok shown) ∧ shown.hash = inclusion.blockHash := by
  have consistent := regular.consistent
  obtain ⟨atTx, seen, seen', stored, -, earlier, sight, -, parsed, lookedUp⟩ :=
    getTxFromDataStore_snapshot regular (getTransaction_ok answered)
  obtain ⟨mined, events, rfl, sameHash⟩ := blockHash_of_parseStoredTx parsed named
  rcases lookedUp with ⟨_, ⟨⟩, -⟩ | ⟨_, _, ⟨⟩, found, -⟩
  obtain ⟨row, mem, -, -, shownHash⟩ := getTx_row found
  obtain ⟨block, blockMem, hash⟩ :=
    runStore_txsNameBlocks (atTx.consistent consistent)
      (fun data dataMem => names data (atTx.updatesOf_subset dataMem)) row
      ((sight.rows .txs).symm.subset mem)
  obtain ⟨block', blockMem', sameBlock⟩ :=
    (Moment.outlasts consistent (le_trans earlier order)).exists_block blockMem
  have hash' : block'.blockHash = row.blockHash :=
    (congrArg (fun block : DbBlock Buffer => block.blockHash) sameBlock).trans hash
  rw [sameHash, shownHash] at ends ⊢
  exact getBlockByHash_of_stored consistent (hexToBuffer_bufferToHexPrefixString _)
    ⟨block', blockMem', hash'⟩ ends

theorem orphaningCalls_namesBlock : ∀ data ∈ updatesOf orphaningCalls, NamesBlock data := by
  have each : ∀ data ∈ [transferBlock "0x11" "0x00" 1, emptyBlock "0x12" "0x00" 1,
      emptyBlock "0x22" "0x12" 2], ∀ entry ∈ data.txs,
        entry.tx.blockHash = data.block.blockHash := by
    decide
  exact each

/-- The transaction is answered when it is not canonical any more, and its block still found. -/
theorem getBlockByHash_linked_orphaned :
    ∃ block, (getBlockByHash "0x11").alone (orphaningMoment 3).db = .ok (.ok block) ∧
      block.hash = "0x11" := by
  obtain ⟨shown, ends, same⟩ := ends_getTransaction_orphaned
  obtain ⟨inclusion, named, same⟩ := Option.map_eq_some_iff.mp (congrArg Prod.snd same)
  obtain ⟨hash, -⟩ := Prod.mk.inj same
  have found := getBlockByHash_linked orphaningCalls_regular orphaningCalls_namesBlock ends named
    (le_refl _) (ends_alone (Moment.sees_self (orphaningMoment 3)) _)
  rw [hash] at found
  exact found

end Followed

end StacksApi.Routes
