import StacksApi.Datastore.Balance
import StacksApi.Datastore.StoreRun
import StacksApi.Transition.Actions

/-!
# Reading a balance while blocks arrive

`getStxBalance` sends two queries.  Each reads a committed state of the tables, and
updates may commit before, between and after them.
-/

namespace StacksApi.Datastore

open StacksApi.Binary
open StacksApi.Relational
open StacksApi.Transition

/-! ## The two queries -/

/-- The first query: what the address has sent and what it has received. -/
def stxTransferTotals (db : Db) (stxAddress : String) : Int × Int :=
  let transfers := db.stxEvents.filter fun row => row.entity.canonical &&
    (row.entity.sender = some stxAddress || row.entity.recipient = some stxAddress)
  let creditTotal := sumColumn (fun row => row.entity.amount)
    (transfers.filter fun row => row.entity.recipient = some stxAddress)
  let debitTotal := sumColumn (fun row => row.entity.amount)
    (transfers.filter fun row => row.entity.sender = some stxAddress)
  (debitTotal.getD 0, creditTotal.getD 0)

/-- The second query: the fees that the address has paid. -/
def stxTotalFees (db : Db) (stxAddress : String) : Int :=
  let feeSum := sumColumn (fun row => row.feeRate)
    (db.txs.filter fun row => row.canonical && row.senderAddress = stxAddress)
  feeSum.getD 0

/-- What is returned for the rows of the two queries. -/
def stxBalance (totals : Int × Int) (totalFees : Int) : TokenBalance where
  balance := totals.2 - totals.1 - totalFees
  totalSent := totals.1
  totalReceived := totals.2

/-- Run alone, both queries read the same tables. -/
theorem getStxBalance_eq (db : Db) (stxAddress : String) :
    getStxBalance db stxAddress =
      stxBalance (stxTransferTotals db stxAddress) (stxTotalFees db stxAddress) :=
  rfl

/-! ## What is not announced -/

section Unannounced

variable {stxAddress : String} {db db' : Db}

/-- Entries that spare an address change nothing that is read for its balance. -/
theorem reads_foldl_addEntry {entries : List EntryRows}
    (spares : ∀ rows ∈ entries, rows.Spares stxAddress) :
    stxTransferTotals (entries.foldl Db.addEntry db) stxAddress = stxTransferTotals db stxAddress ∧
      stxTotalFees (entries.foldl Db.addEntry db) stxAddress = stxTotalFees db stxAddress := by
  induction entries generalizing db with
  | nil => exact ⟨rfl, rfl⟩
  | cons rows entries ih =>
      obtain ⟨transfers, fees⟩ := @ih (db.addEntry rows) fun later mem =>
        spares later (List.mem_cons_of_mem _ mem)
      obtain ⟨tx, sender, recipient⟩ := spares rows List.mem_cons_self
      rw [List.foldl_cons, transfers, fees]
      constructor
      · rw [stxTransferTotals, stxTransferTotals, Db.addEntry]
        rw [filter_append_of_none fun row mem => by simp [sender row mem, recipient row mem]]
      · rw [stxTotalFees, stxTotalFees, Db.addEntry, insertRow]
        split
        · rfl
        · rw [filter_append_of_none]
          intro row mem
          rw [List.mem_singleton.mp mem]
          simp [tx]

/-- An accepted update that does not announce an address leaves what is read for its balance
as its reorganisation has left it. -/
theorem reads_of_unannounced {data : DataStoreUpdateData} {events : List DataStoreEvent}
    (accepted : update db data = .ok (db', events)) (nonempty : stxAddress ≠ "")
    (silent : ¬Announces events stxAddress) :
    ∃ reorged counts,
      handleReorg db data.block (getChainTipHeight db).blockHeight = .ok (reorged, counts) ∧
      stxTransferTotals db' stxAddress = stxTransferTotals reorged stxAddress ∧
      stxTotalFees db' stxAddress = stxTotalFees reorged stxAddress := by
  obtain ⟨rfl, reorged, pruned, row, accepted⟩ := update_ok accepted
  obtain ⟨counts, handled⟩ := accepted.reorg
  refine ⟨reorged, counts, handled, ?_⟩
  have unnamed : ∀ entry ∈ (data.settled db).txs, some stxAddress ∉ entry.addresses := by
    intro entry mem named
    exact silent (announces_updateEvents.mpr ⟨⟨entry, mem, named⟩, nonempty⟩)
  have samePruned : stxTransferTotals pruned stxAddress = stxTransferTotals reorged stxAddress ∧
      stxTotalFees pruned stxAddress = stxTotalFees reorged stxAddress := by
    rw [stxTransferTotals, stxTotalFees,
      show pruned.stxEvents = reorged.stxEvents from accepted.rows_pruned .stxEvents,
      show pruned.txs = reorged.txs from accepted.rows_pruned .txs]
    exact ⟨rfl, rfl⟩
  rcases accepted.store with ⟨-, rfl⟩ | ⟨-, rows, computed, rfl⟩
  · exact samePruned
  · have added := @reads_foldl_addEntry stxAddress
      { pruned with blocks := pruned.blocks ++ [row] } rows fun entry mem => by
        obtain ⟨source, sourceMem, ok⟩ := mem_of_mapM_ok computed mem
        exact (entryRows_ok ok).spares (unnamed source sourceMem)
    exact ⟨added.1.trans samePruned.1, added.2.trans samePruned.2⟩

/-- The reorganisation of a call, if it has one, changes nothing that is read for the balance
of the address. -/
def QuietReorg (stxAddress : String) (db : Db) : StoreCall → Prop
  | .update data => ∀ reorged counts,
      handleReorg db data.block (getChainTipHeight db).blockHeight = .ok (reorged, counts) →
        stxTransferTotals reorged stxAddress = stxTransferTotals db stxAddress ∧
          stxTotalFees reorged stxAddress = stxTotalFees db stxAddress
  | .updateMempoolTx _ => True

theorem quietReorg_of_noReorg {data : DataStoreUpdateData} (noReorg : NoReorg db data) :
    QuietReorg stxAddress db (.update data) := by
  intro reorged counts handled
  rw [handleReorg_of_noReorg noReorg handled]
  exact ⟨rfl, rfl⟩

/-- A call changes what is read for the balance of an address only if it announces it. -/
theorem performCall_announces {call : StoreCall} {events : List DataStoreEvent}
    (accepted : performCall db call = .ok (db', events)) (quiet : QuietReorg stxAddress db call)
    (nonempty : stxAddress ≠ "") :
    Announces events stxAddress ∨
      stxTransferTotals db' stxAddress = stxTransferTotals db stxAddress ∧
        stxTotalFees db' stxAddress = stxTotalFees db stxAddress := by
  by_cases announced : Announces events stxAddress
  · exact Or.inl announced
  refine Or.inr ?_
  cases call with
  | update data =>
      obtain ⟨reorged, counts, handled, transfers, fees⟩ :=
        reads_of_unannounced accepted nonempty announced
      obtain ⟨sameTransfers, sameFees⟩ := quiet reorged counts handled
      exact ⟨transfers.trans sameTransfers, fees.trans sameFees⟩
  | updateMempoolTx mempoolTx =>
      obtain ⟨row, -, ⟨-, rfl, -⟩ | ⟨-, rfl, -⟩⟩ := updateMempoolTx_ok accepted
      · exact ⟨rfl, rfl⟩
      · exact ⟨rfl, rfl⟩

end Unannounced

/-! ## A call among commits -/

/-- How far a call of `getStxBalance` has come. -/
inductive BalanceStage
  | called
  | transfersRead (totals : Int × Int)
  | returned (result : TokenBalance)
  deriving DecidableEq

/-- The tables during a call. -/
structure BalanceRead where
  db : Db
  /-- The committed states since the call, the one it starts in first. -/
  committed : List Db
  stage : BalanceStage
  deriving DecidableEq

/-- The read is called in a state of the tables. -/
def BalanceRead.start (db : Db) : BalanceRead where
  db
  committed := [db]
  stage := .called

/-- An update commits, or the read sends its next query. -/
inductive ReadAction
  | commit (call : StoreCall)
  | query

/-- A call to the store commits, or the next query of the read is answered. -/
def readStep (stxAddress : String) (state : BalanceRead) : ReadAction → Option BalanceRead
  | .commit call =>
      match state.stage with
      | .returned _ => none
      | _ =>
          let db := commit performCall state.db call
          some { state with db, committed := state.committed ++ [db] }
  | .query =>
      match state.stage with
      | .called =>
          some { state with stage := .transfersRead (stxTransferTotals state.db stxAddress) }
      | .transfersRead totals =>
          some { state with
            stage := .returned (stxBalance totals (stxTotalFees state.db stxAddress)) }
      | .returned _ => none

section Read

variable {stxAddress : String} {state state' : BalanceRead}

/-- What a step of a read is. -/
inductive ReadEffect (stxAddress : String) (state : BalanceRead) :
    ReadAction → BalanceRead → Prop
  | commit (call : StoreCall) (running : ∀ result, state.stage ≠ .returned result) :
      ReadEffect stxAddress state (.commit call)
        { state with
          db := commit performCall state.db call
          committed := state.committed ++ [commit performCall state.db call] }
  | transfers (called : state.stage = .called) :
      ReadEffect stxAddress state .query
        { state with stage := .transfersRead (stxTransferTotals state.db stxAddress) }
  | fees {totals : Int × Int} (read : state.stage = .transfersRead totals) :
      ReadEffect stxAddress state .query
        { state with stage := .returned (stxBalance totals (stxTotalFees state.db stxAddress)) }

theorem readStep_effect {action : ReadAction}
    (taken : readStep stxAddress state action = some state') :
    ReadEffect stxAddress state action state' := by
  cases action with
  | commit call =>
      dsimp only [readStep] at taken
      split at taken
      · cases taken
      · next running =>
          cases taken
          exact .commit call running
  | query =>
      dsimp only [readStep] at taken
      split at taken
      · next called =>
          cases taken
          exact .transfers called
      · next read =>
          cases taken
          exact .fees read
      · cases taken

/-- The queries have read committed states, the second one no earlier than the first. -/
structure ReadInvariant (stxAddress : String) (state : BalanceRead) : Prop where
  last : state.committed.getLast? = some state.db
  transfers : ∀ totals, state.stage = .transfersRead totals →
    ∃ (index : Nat) (first : Db), state.committed[index]? = some first ∧
      totals = stxTransferTotals first stxAddress
  returned : ∀ result, state.stage = .returned result →
    ∃ (index later : Nat) (first second : Db), index ≤ later ∧
      state.committed[index]? = some first ∧ state.committed[later]? = some second ∧
        result = stxBalance (stxTransferTotals first stxAddress) (stxTotalFees second stxAddress)

theorem ReadInvariant.start (db : Db) : ReadInvariant stxAddress (BalanceRead.start db) where
  last := rfl
  transfers := by rintro totals ⟨⟩
  returned := by rintro result ⟨⟩

theorem ReadInvariant.step {action : ReadAction} (invariant : ReadInvariant stxAddress state)
    (effect : ReadEffect stxAddress state action state') : ReadInvariant stxAddress state' := by
  have lastIndex : state.committed[state.committed.length - 1]? = some state.db := by
    rw [← List.getLast?_eq_getElem?]
    exact invariant.last
  cases effect with
  | commit call running =>
      constructor
      · simp
      · intro totals read
        obtain ⟨index, first, found, same⟩ := invariant.transfers totals read
        have bound := (List.getElem?_eq_some_iff.mp found).1
        exact ⟨index, first, (List.getElem?_append_left bound).trans found, same⟩
      · intro result returned
        exact absurd returned (running result)
  | transfers called =>
      constructor
      · exact invariant.last
      · intro totals read
        cases read
        exact ⟨_, state.db, lastIndex, rfl⟩
      · rintro result ⟨⟩
  | fees read =>
      obtain ⟨index, first, found, rfl⟩ := invariant.transfers _ read
      have bound := (List.getElem?_eq_some_iff.mp found).1
      constructor
      · exact invariant.last
      · rintro totals ⟨⟩
      · intro result returned
        cases returned
        exact ⟨index, _, first, state.db, by omega, found, lastIndex, rfl⟩

/-- Between the queries, a commit leaves the fees of the address as they were, or its
transfers as they were read. -/
def KeepsSnapshot (stxAddress : String) (state : BalanceRead) : ReadAction → Prop
  | .commit call => ∀ totals, state.stage = .transfersRead totals →
      stxTotalFees (commit performCall state.db call) stxAddress =
          stxTotalFees state.db stxAddress ∨
        stxTransferTotals (commit performCall state.db call) stxAddress = totals
  | .query => True

/-- A committed state has what was read and what is still to be read. -/
structure SnapshotInvariant (stxAddress : String) (state : BalanceRead) : Prop where
  present : state.db ∈ state.committed
  transfers : ∀ totals, state.stage = .transfersRead totals → ∃ db ∈ state.committed,
    stxTransferTotals db stxAddress = totals ∧
      stxTotalFees db stxAddress = stxTotalFees state.db stxAddress
  returned : ∀ result, state.stage = .returned result →
    ∃ db ∈ state.committed, result = getStxBalance db stxAddress

theorem SnapshotInvariant.start (db : Db) :
    SnapshotInvariant stxAddress (BalanceRead.start db) where
  present := List.mem_singleton_self db
  transfers := by rintro totals ⟨⟩
  returned := by rintro result ⟨⟩

theorem SnapshotInvariant.step {action : ReadAction}
    (invariant : SnapshotInvariant stxAddress state) (keeps : KeepsSnapshot stxAddress state action)
    (effect : ReadEffect stxAddress state action state') :
    SnapshotInvariant stxAddress state' := by
  cases effect with
  | commit call running =>
      constructor
      · exact List.mem_append_right _ (List.mem_singleton_self _)
      · intro totals read
        rcases keeps totals read with sameFees | sameTransfers
        · obtain ⟨db, mem, totalsRead, fees⟩ := invariant.transfers totals read
          exact ⟨db, List.mem_append_left _ mem, totalsRead, fees.trans sameFees.symm⟩
        · exact ⟨_, List.mem_append_right _ (List.mem_singleton_self _), sameTransfers, rfl⟩
      · intro result returned
        exact absurd returned (running result)
  | transfers called =>
      constructor
      · exact invariant.present
      · intro totals read
        cases read
        exact ⟨state.db, invariant.present, rfl, rfl⟩
      · rintro result ⟨⟩
  | fees read =>
      obtain ⟨db, mem, rfl, fees⟩ := invariant.transfers _ read
      constructor
      · exact invariant.present
      · rintro totals ⟨⟩
      · intro result returned
        cases returned
        refine ⟨db, mem, ?_⟩
        rw [getStxBalance_eq, fees]

end Read

/-- A balance is made of the transfers of one committed state and of the fees of a later
one.  It is that of one state when no commit between the queries moves both. -/
theorem getStxBalance_read {stxAddress : String} {db : Db} {actions : List ReadAction}
    {state : BalanceRead} {result : TokenBalance}
    (ran : execute (readStep stxAddress) (BalanceRead.start db) actions = some state)
    (returned : state.stage = .returned result) :
    (∃ (index later : Nat) (first second : Db), index ≤ later ∧
      state.committed[index]? = some first ∧ state.committed[later]? = some second ∧
        result.totalSent = (getStxBalance first stxAddress).totalSent ∧
        result.totalReceived = (getStxBalance first stxAddress).totalReceived ∧
        result.balance = result.totalReceived - result.totalSent - feeSum second stxAddress) ∧
      (Meets (KeepsSnapshot stxAddress) (readStep stxAddress) (BalanceRead.start db) actions →
        ∃ db ∈ state.committed, result = getStxBalance db stxAddress) := by
  constructor
  · have all : Meets (fun _ _ => True) (readStep stxAddress) (BalanceRead.start db) actions :=
      meets_of_forall fun _ _ _ => trivial
    have invariant : ReadInvariant stxAddress state := by
      apply execute_invariant _ (ReadInvariant.start db) all ran
      intro before action after invariant _ taken
      exact invariant.step (readStep_effect taken)
    obtain ⟨index, later, first, second, ordered, atIndex, atLater, rfl⟩ :=
      invariant.returned result returned
    refine ⟨index, later, first, second, ordered, atIndex, atLater, rfl, rfl, ?_⟩
    rw [feeSum, ← getD_sumColumn]
    rfl
  · intro keeps
    have invariant : SnapshotInvariant stxAddress state := by
      apply execute_invariant _ (SnapshotInvariant.start db) keeps ran
      intro before action after invariant keeps taken
      exact invariant.step keeps (readStep_effect taken)
    exact invariant.returned result returned

/-- A store with one block that mints for the sample address. -/
def mintedStore : Db :=
  runStore [.update (coinbaseBlock "0x11" "0x00" 1)]

/-- A read of the balance of the sample address with one update between its queries. -/
def readAround (data : DataStoreUpdateData) : Option BalanceRead :=
  execute (readStep "ST1") (BalanceRead.start mintedStore) [.query, .commit (.update data), .query]

/-- The sample address receives a transfer that another one pays for. -/
def receiptEntry (indexBlockHash : String) (blockHeight : Nat) : TxEntry :=
  { transferEntry indexBlockHash blockHeight with
    tx :=
      { (transferEntry indexBlockHash blockHeight).tx with
        senderAddress := "ST2", tokenTransferRecipientAddress := some "ST1" }
    stxEvents :=
      [{ eventIndex := 0, txId := "0x0b", txIndex := 0, blockHeight, canonical := true
         assetEventTypeId := .transfer, sender := some "ST2", recipient := some "ST1"
         amount := 100 }] }

/-- A transfer to the address commits between the queries: the fees that the second one reads
are those of the first state, of which the balance is. -/
theorem getStxBalance_read_receipt :
    ∃ state, readAround { emptyBlock "0x21" "0x11" 2 with txs := [receiptEntry "0x21" 2] } =
        some state ∧
      getStxBalance state.db "ST1" = { balance := 1100, totalSent := 0, totalReceived := 1100 } ∧
      ∃ db ∈ state.committed,
        ({ balance := 1000, totalSent := 0, totalReceived := 1000 } : TokenBalance) =
          getStxBalance db "ST1" := by
  refine ⟨_, rfl, by decide +kernel, ?_⟩
  apply (@getStxBalance_read "ST1" mintedStore
    [.query, .commit (.update { emptyBlock "0x21" "0x11" 2 with txs := [receiptEntry "0x21" 2] }),
      .query] _ _ rfl rfl).2
  refine ⟨trivial, ?_⟩
  rintro read ⟨⟩
  refine ⟨fun totals _ => Or.inl ?_, fun _ _ => ⟨trivial, fun _ _ => trivial⟩⟩
  decide +kernel

/-- The transfer commits between the queries: its fee is in the balance, and its amount
is not. -/
theorem readAround_transfer :
    ∃ state, readAround { emptyBlock "0x21" "0x11" 2 with txs := [transferEntry "0x21" 2] } =
        some state ∧
      state.stage = .returned { balance := 993, totalSent := 0, totalReceived := 1000 } ∧
      ∀ db ∈ state.committed,
        getStxBalance db "ST1" ≠ { balance := 993, totalSent := 0, totalReceived := 1000 } := by
  refine ⟨_, rfl, ?_⟩
  decide +kernel

end StacksApi.Datastore
