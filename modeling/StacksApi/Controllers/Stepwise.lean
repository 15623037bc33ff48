import StacksApi.Controllers.Presentable
import StacksApi.Datastore.Stepwise

/-!
# Blocks and transactions looked up among commits

`getTxFromDataStore` and `getBlockFromDataStore` send several queries, and updates may
commit between them.  A transaction that is stored when the look-up begins is found
whatever commits: the mempool is asked first, and what leaves it has been mined.
-/

namespace StacksApi.Controllers

open StacksApi.Binary
open StacksApi.Relational
open StacksApi.Datastore
open StacksApi.Transition
open Reading

/-- A block as it is shown. -/
structure Block where
  canonical : Bool
  height : Nat
  hash : String
  parentBlockHash : String
  burnBlockTime : Int
  burnBlockTimeIso : String
  txs : List String
  deriving DecidableEq

namespace Stepwise

/-- The block of a hash with the ids of its transactions, if it is stored. -/
def getBlockFromDataStore (blockHash : String) : QueryM (Option Block) := do
  match ← Stepwise.getBlock blockHash with
  | none => return none
  | some dbBlock =>
      let txIds ← Stepwise.getBlockTxs dbBlock.indexBlockHash
      let burnBlockTimeIso ← unixEpochToIso dbBlock.burnBlockTime
      return some {
        canonical := dbBlock.canonical
        height := dbBlock.blockHeight
        hash := dbBlock.blockHash
        parentBlockHash := dbBlock.parentBlockHash
        burnBlockTime := dbBlock.burnBlockTime
        burnBlockTimeIso
        txs := txIds }

/-- First check the mempool. -/
def lookupTx (txId : String) : QueryM (Option StoredTx) := do
  match ← Stepwise.getMempoolTx txId with
  | some mempoolTx => return some (.mempool mempoolTx)
  | none =>
      match ← Stepwise.getTx txId with
      | none => return none
      | some tx => return some (.mined tx (← Stepwise.getTxEvents txId tx.indexBlockHash))

section Api

variable {CV Ty : Type} (clarity : ClarityLibrary CV) (addresses : AddressLibrary)
variable (abis : AbiLibrary Ty)

/-- The last query is that for the contract of a call. -/
def getTxFromDataStore (txId : String) : QueryM (Option Transaction) := do
  match ← lookupTx txId with
  | none => return none
  | some stored => return some (← ask fun db => parseStoredTx clarity addresses abis db stored)

end Api

end Stepwise

/-! ## Nothing is missed -/

section Missed

variable {calls : List StoreCall} {start last : Moment calls} {txId : String}

/-- The id was in neither table: it was not pending in one moment and not mined in a later
one, and what leaves the mempool in between is mined. -/
theorem lookupTx_missed (consistent : Consistent (updatesOf calls))
    (ends : Ends Moment.Sees start (Stepwise.lookupTx txId) last (.ok none)) :
    ∃ buffer, hexToBuffer txId = .ok buffer ∧ ¬TxKnown start.db buffer := by
  obtain ⟨pending, atPool, seen, later, sight, pendingOk, ends⟩ := ends_ask_bind_iff.mp ends
  cases pending with
  | some tx =>
      obtain ⟨-, same⟩ := ends_pure_iff.mp ends
      cases same
  | none =>
      obtain ⟨mined, atTxs, seen', later', sight', minedOk, ends⟩ := ends_ask_bind_iff.mp ends
      cases mined with
      | some tx =>
          obtain ⟨events, middle, -, ends⟩ := ends_bind_ok_iff.mp ends
          obtain ⟨-, same⟩ := ends_pure_iff.mp ends
          cases same
      | none =>
          obtain ⟨buffer, decoded, notPending⟩ := getMempoolTx_none pendingOk
          obtain ⟨buffer', decoded', notMined⟩ := getTx_none minedOk
          cases decoded.symm.trans decoded'
          refine ⟨buffer, decoded, fun known => ?_⟩
          rcases (Moment.outlasts consistent later).txKnown known with
            ⟨row, mem, same⟩ | ⟨row, mem, same⟩
          · exact notPending row (sight.mempoolTxs.subset mem) same
          · obtain ⟨row', mem', same'⟩ := (Moment.outlasts consistent later').exists_txId mem
            exact notMined row' ((sight'.rows .txs).subset mem') (same'.trans same)

/-- A transaction that is stored when it is asked for is never answered with a 404. -/
theorem getTxFromDataStore_missed {CV Ty : Type} {clarity : ClarityLibrary CV}
    {addresses : AddressLibrary} {abis : AbiLibrary Ty} (consistent : Consistent (updatesOf calls))
    (ends : Ends Moment.Sees start (Stepwise.getTxFromDataStore clarity addresses abis txId) last
      (.ok none)) :
    ∃ buffer, hexToBuffer txId = .ok buffer ∧ ¬TxKnown start.db buffer := by
  obtain ⟨stored, middle, looked, ends⟩ := ends_bind_ok_iff.mp ends
  cases stored with
  | none => exact lookupTx_missed consistent looked
  | some stored =>
      obtain ⟨shown, middle', -, ends⟩ := ends_bind_ok_iff.mp ends
      obtain ⟨-, same⟩ := ends_pure_iff.mp ends
      cases same

end Missed

/-! ## What is found -/

section Found

variable {calls : List StoreCall} {start last : Moment calls}

theorem getBlock_none {db : Db} {blockHash : String} {buffer : Buffer}
    (decoded : hexToBuffer blockHash = .ok buffer) (ok : getBlock db blockHash = .ok none) :
    ∀ row ∈ db.blocks, row.blockHash ≠ buffer := by
  intro row mem same
  rw [getBlock_eq decoded] at ok
  have nonempty : (db.blocks.filter fun row => row.blockHash = buffer) ≠ [] :=
    List.ne_nil_of_mem (List.mem_filter.mpr ⟨mem, decide_eq_true same⟩)
  obtain ⟨top, head⟩ : ∃ top, (orderByDesc
      (fun row : DbBlock Buffer => toLex (row.canonical, row.blockHeight))
      (db.blocks.filter fun row => row.blockHash = buffer)).head? = some top :=
    exists_head?_orderByDesc nonempty
  rw [head] at ok
  cases ok

theorem getBlockTxs_eq (db : Db) (buffer : Buffer) :
    getBlockTxs db (bufferToHexPrefixString buffer) =
      .ok ((Collections.arraySort (fun tx _ => tx.txIndex)
        (db.txs.filter fun row => row.indexBlockHash = buffer)).map fun tx =>
          bufferToHexPrefixString tx.txId) := by
  rw [getBlockTxs, hexToBuffer_bufferToHexPrefixString]
  rfl

/-- What stands for a hash in `blocks`: rows are preferred on the canonical chain, then by
height. -/
structure PreferredBlock (db : Db) (buffer : Buffer) (row : DbBlock Buffer) : Prop where
  mem : row ∈ db.blocks
  blockHash : row.blockHash = buffer
  greatest : ∀ other ∈ db.blocks, other.blockHash = buffer →
    toLex (other.canonical, other.blockHeight) ≤ toLex (row.canonical, row.blockHeight)

/-- The block is shown with the columns of a row and with the transactions that the tables
have in it. -/
structure ShowsRow (db : Db) (row : DbBlock Buffer) (shown : Block) : Prop where
  canonical : shown.canonical = row.canonical
  height : shown.height = row.blockHeight
  hash : shown.hash = bufferToHexPrefixString row.blockHash
  parentBlockHash : shown.parentBlockHash = bufferToHexPrefixString row.parentBlockHash
  burnBlockTime : shown.burnBlockTime = row.burnBlockTime
  burnBlockTimeIso : unixEpochToIso row.burnBlockTime = .ok shown.burnBlockTimeIso
  txs : ((db.txs.filter fun tx => tx.indexBlockHash = row.indexBlockHash).map fun tx =>
    bufferToHexPrefixString tx.txId).Perm shown.txs

/-- The row that stands for the hash in one moment is shown, with the transactions that it has
in a later one. -/
def ShowsBlock (start last : Moment calls) (buffer : Buffer) (shown : Block) : Prop :=
  ∃ (answered listed : Moment calls) (row : DbBlock Buffer), start ≤ answered ∧
    answered ≤ listed ∧ listed ≤ last ∧ PreferredBlock answered.db buffer row ∧
      ShowsRow listed.db row shown

theorem ShowsBlock.within {buffer : Buffer} {shown : Block}
    (shows : ShowsBlock start last buffer shown) {first final : Moment calls}
    (later : first ≤ start) (earlier : last ≤ final) : ShowsBlock first final buffer shown := by
  obtain ⟨answered, listed, row, after, order, before, preferred, showsRow⟩ := shows
  exact ⟨answered, listed, row, le_trans later after, order, le_trans before earlier, preferred,
    showsRow⟩

theorem ShowsBlock.hash {buffer : Buffer} {shown : Block}
    (shows : ShowsBlock start last buffer shown) : shown.hash = bufferToHexPrefixString buffer := by
  obtain ⟨answered, listed, row, -, -, -, preferred, showsRow⟩ := shows
  rw [showsRow.hash, preferred.blockHash]

/-- The transactions that the block names are stored, and stay so. -/
theorem ShowsBlock.tx_stored (consistent : Consistent (updatesOf calls)) {buffer : Buffer}
    {shown : Block} (shows : ShowsBlock start last buffer shown) {txId : String}
    (named : txId ∈ shown.txs) : ∃ tx ∈ last.db.txs, txId = bufferToHexPrefixString tx.txId := by
  obtain ⟨answered, listed, row, -, -, before, -, showsRow⟩ := shows
  obtain ⟨tx, filtered, rfl⟩ := List.mem_map.mp (showsRow.txs.mem_iff.mpr named)
  obtain ⟨tx', mem', same⟩ :=
    (Moment.outlasts consistent before).exists_txId (List.mem_filter.mp filtered).1
  exact ⟨tx', mem', by rw [same]⟩

/-- The block that is shown is stored, and shown as it is. -/
theorem shows_of_getBlockFromDataStore {blockHash : String} {shown : Block}
    (ends : Ends Moment.Sees start (Stepwise.getBlockFromDataStore blockHash) last
      (.ok (some shown))) :
    ∃ buffer, hexToBuffer blockHash = .ok buffer ∧ ShowsBlock start last buffer shown := by
  obtain ⟨found, atBlock, seen, later, sight, answer, ends⟩ := ends_ask_bind_iff.mp ends
  obtain ⟨buffer, decoded, -⟩ := Except.bind_eq_ok.mp answer
  rw [getBlock_eq decoded] at answer
  cases head : (orderByDesc (fun row : DbBlock Buffer => toLex (row.canonical, row.blockHeight))
      (seen.blocks.filter fun row => row.blockHash = buffer)).head? with
  | none =>
      rw [head] at answer
      cases answer
      obtain ⟨-, same⟩ := ends_pure_iff.mp ends
      cases same
  | some row =>
      rw [head] at answer
      cases answer
      obtain ⟨mem, greatest⟩ := le_of_head?_orderByDesc head
      obtain ⟨mem, hash⟩ := List.mem_filter.mp mem
      obtain ⟨atTxs, seen', later', sight', ends⟩ :=
        Ends.of_total (fun db => getBlockTxs_eq db row.indexBlockHash) ends
      obtain ⟨iso, isoOk, ends⟩ := ends_lift_bind_iff.mp ends
      obtain ⟨rfl, ⟨⟩⟩ := ends_pure_iff.mp ends
      have listed : (last.db.txs.filter fun tx => tx.indexBlockHash = row.indexBlockHash).Perm
          (seen'.txs.filter fun tx => tx.indexBlockHash = row.indexBlockHash) :=
        (sight'.rows .txs).filter _
      refine ⟨buffer, decoded, atBlock, last, row, later, later', le_rfl,
        { mem := sight.blocks.symm.subset mem
          blockHash := of_decide_eq_true hash
          greatest := ?_ },
        { canonical := rfl
          height := rfl
          hash := rfl
          parentBlockHash := rfl
          burnBlockTime := rfl
          burnBlockTimeIso := isoOk
          txs := (listed.trans (Collections.arraySort_perm _ _).symm).map _ }⟩
      intro other otherMem same
      exact greatest other
        (List.mem_filter.mpr ⟨sight.blocks.subset otherMem, decide_eq_true same⟩)

/-- A block that is stored when it is asked for is shown, whatever commits. -/
theorem getBlockFromDataStore_shows {blockHash : String} {buffer : Buffer}
    {outcome : Except ApiError (Option Block)} (consistent : Consistent (updatesOf calls))
    (decoded : hexToBuffer blockHash = .ok buffer)
    (stored : ∃ row ∈ start.db.blocks, row.blockHash = buffer)
    (ends : Ends Moment.Sees start (Stepwise.getBlockFromDataStore blockHash) last outcome) :
    ∃ shown, outcome = .ok (some shown) ∧ ShowsBlock start last buffer shown := by
  suffices found : ∃ shown, outcome = .ok (some shown) by
    obtain ⟨shown, rfl⟩ := found
    obtain ⟨buffer', decoded', shows⟩ := shows_of_getBlockFromDataStore ends
    cases decoded.symm.trans decoded'
    exact ⟨shown, rfl, shows⟩
  obtain ⟨atBlock, seen, later, sight, ends⟩ := Ends.of_total (fun db => getBlock_eq decoded) ends
  have answer : getBlock seen blockHash = _ := getBlock_eq decoded
  cases head : (orderByDesc (fun row : DbBlock Buffer => toLex (row.canonical, row.blockHeight))
      (seen.blocks.filter fun row => row.blockHash = buffer)).head? with
  | none =>
      rw [head] at answer
      obtain ⟨row, mem, rfl⟩ := stored
      obtain ⟨row', mem', sameRow⟩ := (Moment.outlasts consistent later).exists_block mem
      have sameHash : row'.blockHash = row.blockHash := congrArg (fun row => row.blockHash) sameRow
      exact absurd sameHash (getBlock_none decoded answer row' (sight.blocks.subset mem'))
  | some row =>
      rw [head] at ends
      have stored := sight.blocks.symm.subset
        (List.mem_filter.mp (le_of_head?_orderByDesc head).1).1
      obtain ⟨atTxs, seen', later', sight', ends⟩ :=
        Ends.of_total (fun db => getBlockTxs_eq db row.indexBlockHash) ends
      -- the time of a stored block fits its column, so that it can be shown
      have admitted := atBlock.admitted_blocks row stored
      rw [DbBlock.admitted, Bool.and_eq_true] at admitted
      obtain ⟨iso, isoOk⟩ := succeeds_unixEpochToIso admitted.2
      have isoOk : unixEpochToIso (parseBlockQueryResult row).burnBlockTime = .ok iso := isoOk
      rw [isoOk, lift_ok_bind] at ends
      obtain ⟨-, rfl⟩ := ends_pure_iff.mp ends
      exact ⟨_, rfl⟩

/-- The record that is found has the id that was asked for. -/
theorem txId_of_lookupTx {txId : String} {stored : StoredTx}
    (ends : Ends Moment.Sees start (Stepwise.lookupTx txId) last (.ok (some stored))) :
    ∃ buffer, hexToBuffer txId = .ok buffer ∧
      stored.toDbTxBase.txId = bufferToHexPrefixString buffer := by
  obtain ⟨pending, atPool, seen, -, -, pendingOk, ends⟩ := ends_ask_bind_iff.mp ends
  cases pending with
  | some tx =>
      obtain ⟨rfl, ⟨⟩⟩ := ends_pure_iff.mp ends
      obtain ⟨buffer, decoded, ok⟩ := Except.bind_eq_ok.mp pendingOk
      refine ⟨buffer, decoded, ?_⟩
      split at ok
      · cases ok
      · next row single =>
          obtain ⟨tx', parsed, same⟩ := Except.bind_eq_ok.mp ok
          cases same
          have mem : row ∈ seen.mempoolTxs.filter fun row => row.txId = buffer := by
            rw [single]
            exact List.mem_singleton_self row
          rw [← of_decide_eq_true (List.mem_filter.mp mem).2]
          exact txId_of_parsedMempool parsed
      · cases ok
  | none =>
      obtain ⟨mined, atTxs, seen, -, -, minedOk, ends⟩ := ends_ask_bind_iff.mp ends
      cases mined with
      | none =>
          obtain ⟨-, same⟩ := ends_pure_iff.mp ends
          cases same
      | some tx =>
          obtain ⟨events, middle, -, ends⟩ := ends_bind_ok_iff.mp ends
          obtain ⟨rfl, ⟨⟩⟩ := ends_pure_iff.mp ends
          obtain ⟨buffer, decoded, ok⟩ := Except.bind_eq_ok.mp minedOk
          refine ⟨buffer, decoded, ?_⟩
          dsimp only at ok
          split at ok
          · cases ok
          · next row head =>
              obtain ⟨parsed, parsedOk, same⟩ := Except.bind_eq_ok.mp ok
              cases same
              obtain ⟨columns, columnsOk, same⟩ := Except.bind_eq_ok.mp parsedOk
              cases same
              obtain ⟨mem, -⟩ := le_of_head?_orderByDesc head
              rw [← of_decide_eq_true (List.mem_filter.mp mem).2]
              exact (parsedColumns_of_ok columnsOk).txId

theorem txId_of_parseStoredTx {CV Ty : Type} {clarity : ClarityLibrary CV}
    {addresses : AddressLibrary} {abis : AbiLibrary Ty} {db : Db} {stored : StoredTx}
    {shown : Transaction} (parsed : parseStoredTx clarity addresses abis db stored = .ok shown) :
    shown.txId = stored.toDbTxBase.txId := by
  obtain ⟨mode, -, parsed⟩ := Except.bind_eq_ok.mp parsed
  obtain ⟨postConditionMode, -, parsed⟩ := Except.bind_eq_ok.mp parsed
  obtain ⟨inclusion, -, parsed⟩ := Except.bind_eq_ok.mp parsed
  obtain ⟨receipt, -, parsed⟩ := Except.bind_eq_ok.mp parsed
  obtain ⟨details, -, parsed⟩ := Except.bind_eq_ok.mp parsed
  obtain ⟨events, -, parsed⟩ := Except.bind_eq_ok.mp parsed
  cases parsed
  rfl

/-- What is shown for an id has that id. -/
theorem txId_of_getTxFromDataStore {CV Ty : Type} {clarity : ClarityLibrary CV}
    {addresses : AddressLibrary} {abis : AbiLibrary Ty} {txId : String} {shown : Transaction}
    (ends : Ends Moment.Sees start (Stepwise.getTxFromDataStore clarity addresses abis txId) last
      (.ok (some shown))) :
    ∃ buffer, hexToBuffer txId = .ok buffer ∧ shown.txId = bufferToHexPrefixString buffer := by
  obtain ⟨stored, middle, looked, ends⟩ := ends_bind_ok_iff.mp ends
  cases stored with
  | none =>
      obtain ⟨-, same⟩ := ends_pure_iff.mp ends
      cases same
  | some stored =>
      obtain ⟨tx, middle', seen', -, -, parsed, ends⟩ := ends_ask_bind_iff.mp ends
      obtain ⟨rfl, ⟨⟩⟩ := ends_pure_iff.mp ends
      obtain ⟨buffer, decoded, same⟩ := txId_of_lookupTx looked
      exact ⟨buffer, decoded, (txId_of_parseStoredTx parsed).trans same⟩

end Found

end StacksApi.Controllers
