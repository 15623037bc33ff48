import StacksApi.Datastore.Flags
import StacksApi.Datastore.Query

/-!
# Balances and announcements

A balance is what canonical events brought, less what they took and less the fees
of canonical transactions.  The addresses that an update announces are those of
its entries, so that the rows it inserts change no other balance; what its
reorganisation does to the balances is not announced.
-/

namespace StacksApi.Datastore

open StacksApi.Binary
open StacksApi.Relational
open StacksApi.Transition
open CanonicalEntity

/-! ## Balances as sums -/

/-- The amounts of canonical events that the address received. -/
def receivedSum (db : Db) (address : String) : Int :=
  ((db.stxEvents.filter fun row =>
    row.entity.canonical && decide (row.entity.recipient = some address)).map
      fun row => row.entity.amount).sum

/-- The amounts of canonical events that the address sent. -/
def sentSum (db : Db) (address : String) : Int :=
  ((db.stxEvents.filter fun row =>
    row.entity.canonical && decide (row.entity.sender = some address)).map
      fun row => row.entity.amount).sum

/-- The fees of canonical transactions that the query takes from the address. -/
def feeSum (db : Db) (address : String) : Int :=
  ((db.txs.filter fun row => row.canonical && decide (row.senderAddress = address)).map
    fun row => row.feeRate).sum

theorem balance_getStxBalance (db : Db) (address : String) :
    (getStxBalance db address).balance =
      receivedSum db address - sentSum db address - feeSum db address := by
  simp only [getStxBalance, getD_sumColumn, List.filter_filter, receivedSum, sentSum, feeSum]
  have received : (db.stxEvents.filter fun row => decide (row.entity.recipient = some address) &&
        (row.entity.canonical && (decide (row.entity.sender = some address) ||
          decide (row.entity.recipient = some address)))) =
      db.stxEvents.filter fun row =>
        row.entity.canonical && decide (row.entity.recipient = some address) := by
    apply List.filter_congr
    intro row _
    by_cases isRecipient : row.entity.recipient = some address <;> simp [isRecipient]
  have sent : (db.stxEvents.filter fun row => decide (row.entity.sender = some address) &&
        (row.entity.canonical && (decide (row.entity.sender = some address) ||
          decide (row.entity.recipient = some address)))) =
      db.stxEvents.filter fun row =>
        row.entity.canonical && decide (row.entity.sender = some address) := by
    apply List.filter_congr
    intro row _
    by_cases isSender : row.entity.sender = some address <;> simp [isSender]
  rw [received, sent]

/-! ## Insertions that leave a balance alone -/

/-- No row of the entry counts for the balance of the address. -/
structure EntryRows.Spares (rows : EntryRows) (address : String) : Prop where
  tx : rows.tx.senderAddress ≠ address
  sender : ∀ row ∈ rows.stxEvents, row.entity.sender ≠ some address
  recipient : ∀ row ∈ rows.stxEvents, row.entity.recipient ≠ some address

theorem filter_append_of_none {α : Type} {keep : α → Bool} {rows added : List α}
    (none : ∀ row ∈ added, keep row = false) : (rows ++ added).filter keep = rows.filter keep := by
  have nothing : added.filter keep = [] :=
    List.filter_eq_nil_iff.mpr fun row mem => by simp [none row mem]
  rw [List.filter_append, nothing, List.append_nil]

/-- Entries that spare an address keep its balance. -/
theorem balance_foldl_addEntry {address : String} {entries : List EntryRows} {db : Db}
    (spares : ∀ rows ∈ entries, rows.Spares address) :
    (getStxBalance (entries.foldl Db.addEntry db) address).balance =
      (getStxBalance db address).balance := by
  induction entries generalizing db with
  | nil => rfl
  | cons rows entries ih =>
      rw [List.foldl_cons, ih fun later mem => spares later (List.mem_cons_of_mem _ mem)]
      obtain ⟨tx, sender, recipient⟩ := spares rows List.mem_cons_self
      have received : receivedSum (db.addEntry rows) address = receivedSum db address := by
        rw [receivedSum, receivedSum, Db.addEntry]
        rw [filter_append_of_none fun row mem => by simp [recipient row mem]]
      have sent : sentSum (db.addEntry rows) address = sentSum db address := by
        rw [sentSum, sentSum, Db.addEntry]
        rw [filter_append_of_none fun row mem => by simp [sender row mem]]
      have fees : feeSum (db.addEntry rows) address = feeSum db address := by
        rw [feeSum, feeSum, Db.addEntry, insertRow]
        split
        · rfl
        · rw [filter_append_of_none]
          intro row mem
          rw [List.mem_singleton.mp mem]
          simp [tx]
      rw [balance_getStxBalance, balance_getStxBalance, received, sent, fees]

/-- The rows of an entry that does not name an address spare it. -/
theorem DecodedEntry.spares {entry : TxEntry} {rows : EntryRows} {address : String}
    (decoded : DecodedEntry entry rows) (unnamed : some address ∉ entry.addresses) :
    rows.Spares address := by
  have notSender : entry.tx.senderAddress ≠ address := by
    rintro rfl
    exact unnamed (by simp [TxEntry.addresses])
  have notInEvent : ∀ event ∈ entry.stxEvents,
      event.sender ≠ some address ∧ event.recipient ≠ some address := by
    intro event mem
    constructor
    · intro same
      apply unnamed
      simp only [TxEntry.addresses, List.mem_append, List.mem_flatMap]
      exact Or.inl (Or.inl (Or.inl (Or.inl (Or.inr ⟨event, mem, by simp [same]⟩))))
    · intro same
      apply unnamed
      simp only [TxEntry.addresses, List.mem_append, List.mem_flatMap]
      exact Or.inl (Or.inl (Or.inl (Or.inl (Or.inr ⟨event, mem, by simp [same]⟩))))
  have fromEvent : ∀ row ∈ rows.stxEvents, ∃ event ∈ entry.stxEvents,
      row.entity.sender = event.sender ∧ row.entity.recipient = event.recipient := by
    intro row mem
    obtain ⟨event, eventMem, ok⟩ := mem_of_mapM_ok decoded.stxEvents mem
    obtain ⟨-, buffer, -, entity, -⟩ := inBlockRow_ok ok
    exact ⟨event, eventMem, by rw [entity]; exact ⟨rfl, rfl⟩⟩
  constructor
  · have columns := (txRow_ok decoded.tx).columns
    have same : rows.tx.senderAddress = entry.tx.senderAddress :=
      congrArg (fun row => row.senderAddress) columns
    rw [same]
    exact notSender
  · intro row mem
    obtain ⟨event, eventMem, sender, -⟩ := fromEvent row mem
    rw [sender]
    exact (notInEvent event eventMem).1
  · intro row mem
    obtain ⟨event, eventMem, -, recipient⟩ := fromEvent row mem
    rw [recipient]
    exact (notInEvent event eventMem).2

/-! ## Announced addresses -/

/-- The addresses for which there are updates. -/
def AddressTxUpdates.keys (updates : AddressTxUpdates) : List String :=
  updates.map Prod.fst

theorem keys_addAddressTx {member : Nat × DbTx String} {updates : AddressTxUpdates}
    {addr : Option String} {address : String} :
    address ∈ (addAddressTx member updates addr).keys ↔
      address ∈ updates.keys ∨ addr = some address ∧ address ≠ "" := by
  rw [addAddressTx.eq_def]
  split
  · simp
  · constructor
    · exact Or.inl
    · rintro (old | ⟨same, nonempty⟩)
      · exact old
      · cases same
        exact absurd rfl nonempty
  · next addr nonempty =>
      split
      · next known =>
          have sameKeys : (updates.map fun update =>
              if update.1 = addr ∧ update.2.all fun other => other.1 ≠ member.1 then
                (update.1, update.2 ++ [member])
              else update).map Prod.fst = updates.map Prod.fst := by
            rw [List.map_map]
            apply List.map_congr_left
            intro update _
            simp only [Function.comp_apply]
            split <;> rfl
          rw [AddressTxUpdates.keys, sameKeys]
          constructor
          · exact Or.inl
          · rintro (old | ⟨same, -⟩)
            · exact old
            · cases same
              obtain ⟨update, mem, same⟩ := List.any_eq_true.mp known
              exact List.mem_map.mpr ⟨update, mem, of_decide_eq_true same⟩
      · rw [AddressTxUpdates.keys, List.map_append, List.mem_append]
        constructor
        · rintro (old | new)
          · exact Or.inl old
          · obtain rfl : address = addr := List.mem_singleton.mp new
            exact Or.inr ⟨rfl, nonempty⟩
        · rintro (old | ⟨same, -⟩)
          · exact Or.inl old
          · cases same
            exact Or.inr (List.mem_singleton_self _)

theorem keys_foldl_addAddressTx {member : Nat × DbTx String} {addresses : List (Option String)}
    {updates : AddressTxUpdates} {address : String} :
    address ∈ AddressTxUpdates.keys (addresses.foldl (addAddressTx member) updates) ↔
      address ∈ updates.keys ∨ some address ∈ addresses ∧ address ≠ "" := by
  induction addresses generalizing updates with
  | nil => simp
  | cons addr addresses ih =>
      rw [List.foldl_cons, ih, keys_addAddressTx, List.mem_cons]
      constructor
      · rintro ((old | ⟨same, nonempty⟩) | ⟨mem, nonempty⟩)
        · exact Or.inl old
        · exact Or.inr ⟨Or.inl same.symm, nonempty⟩
        · exact Or.inr ⟨Or.inr mem, nonempty⟩
      · rintro (old | ⟨same | mem, nonempty⟩)
        · exact Or.inl (Or.inl old)
        · exact Or.inl (Or.inr ⟨same.symm, nonempty⟩)
        · exact Or.inr ⟨mem, nonempty⟩

/-- The announced addresses are the nonempty ones that some entry names. -/
theorem keys_addressTxUpdates {data : DataStoreUpdateData} {address : String} :
    address ∈ (addressTxUpdates data).keys ↔
      (∃ entry ∈ data.txs, some address ∈ entry.addresses) ∧ address ≠ "" := by
  have general : ∀ (entries : List (TxEntry × Nat)) (updates : AddressTxUpdates),
      address ∈ AddressTxUpdates.keys (entries.foldl (fun updates entry =>
        entry.1.addresses.foldl (addAddressTx (entry.2, entry.1.tx)) updates) updates) ↔
      address ∈ updates.keys ∨
        (∃ entry ∈ entries.map Prod.fst, some address ∈ entry.addresses) ∧ address ≠ "" := by
    intro entries
    induction entries with
    | nil => simp
    | cons entry entries ih =>
        intro updates
        rw [List.foldl_cons, ih, keys_foldl_addAddressTx, List.map_cons]
        simp only [List.mem_cons, exists_eq_or_imp]
        tauto
  have start := general data.txs.zipIdx []
  rw [List.zipIdx_map_fst] at start
  refine Iff.trans ?_ (start.trans (by simp [AddressTxUpdates.keys]))
  rfl

/-- An address event is emitted for the address. -/
def Announces (events : List DataStoreEvent) (address : String) : Prop :=
  ∃ info, .addressUpdate info ∈ events ∧ info.address = address

theorem announces_updateEvents {data : DataStoreUpdateData} {address : String} :
    Announces (updateEvents data) address ↔
      (∃ entry ∈ data.txs, some address ∈ entry.addresses) ∧ address ≠ "" := by
  rw [← keys_addressTxUpdates]
  simp only [Announces, updateEvents, emitAddressTxUpdates, AddressTxUpdates.keys, List.mem_append,
    List.mem_map, List.mem_singleton]
  constructor
  · rintro ⟨info, (isBlock | ⟨entry, -, isTx⟩) | ⟨update, mem, same⟩, rfl⟩
    · cases isBlock
    · cases isTx
    · cases same
      exact ⟨update, mem, rfl⟩
  · rintro ⟨update, mem, rfl⟩
    exact ⟨_, Or.inr ⟨update, mem, rfl⟩, rfl⟩

/-! ## Updates -/

/-- The update restores no orphaned chain. -/
def NoReorg (db : Db) (data : DataStoreUpdateData) : Prop :=
  Heightens db data → 1 < data.block.blockHeight → ∀ parent ∈ db.blocks,
    hexToBuffer data.block.parentIndexBlockHash = .ok parent.indexBlockHash →
      parent.blockHeight + 1 = data.block.blockHeight → parent.canonical = true

theorem handleReorg_of_noReorg {db reorged : Db} {data : DataStoreUpdateData}
    {counts : UpdatedEntities} (noReorg : NoReorg db data)
    (handled :
      handleReorg db data.block (getChainTipHeight db).blockHeight = .ok (reorged, counts)) :
    reorged = db := by
  rw [handleReorg] at handled
  split at handled
  · next high =>
      obtain ⟨parentHash, decoded, handled⟩ := Except.bind_eq_ok.mp handled
      split at handled
      · cases handled
      · cases handled
      · next parent found =>
          have isParent : parent ∈ parentRows db data.block.blockHeight parentHash := by
            rw [found]
            exact List.mem_singleton_self parent
          obtain ⟨mem, conditions⟩ := List.mem_filter.mp isParent
          obtain ⟨below, hash⟩ := of_decide_eq_true conditions
          split at handled
          · next reorganises =>
              have canonical := noReorg reorganises.2 high parent mem (hash ▸ decoded) below
              rw [canonical] at reorganises
              exact absurd reorganises.1 (by decide)
          · cases handled
            rfl
  · cases handled
    rfl

/-- A balance that an accepted update changes is announced, unless it is the
reorganisation that changes it; and there is none unless the parent is orphaned. -/
theorem update_announces {db db' : Db} {data : DataStoreUpdateData} {events : List DataStoreEvent}
    (accepted : update db data = .ok (db', events)) :
    ∃ reorged counts,
      handleReorg db data.block (getChainTipHeight db).blockHeight = .ok (reorged, counts) ∧
      (NoReorg db data → reorged = db) ∧
      ∀ address, address ≠ "" →
        (getStxBalance db' address).balance ≠ (getStxBalance reorged address).balance →
          Announces events address := by
  obtain ⟨rfl, reorged, pruned, row, accepted⟩ := update_ok accepted
  obtain ⟨counts, handled⟩ := accepted.reorg
  refine ⟨reorged, counts, handled, fun noReorg => handleReorg_of_noReorg noReorg handled, ?_⟩
  intro address nonempty changed
  by_contra silent
  have unnamed : ∀ entry ∈ (data.settled db).txs, some address ∉ entry.addresses := by
    intro entry mem named
    exact silent (announces_updateEvents.mpr ⟨⟨entry, mem, named⟩, nonempty⟩)
  apply changed
  have samePruned : (getStxBalance pruned address).balance =
      (getStxBalance reorged address).balance := by
    rw [balance_getStxBalance, balance_getStxBalance, receivedSum, sentSum, feeSum]
    rw [show pruned.stxEvents = reorged.stxEvents from accepted.rows_pruned .stxEvents,
      show pruned.txs = reorged.txs from accepted.rows_pruned .txs]
    rfl
  rw [← samePruned]
  rcases accepted.store with ⟨-, rfl⟩ | ⟨-, rows, computed, rfl⟩
  · rfl
  · rw [balance_foldl_addEntry]
    · rfl
    · intro entry mem
      obtain ⟨source, sourceMem, ok⟩ := mem_of_mapM_ok computed mem
      exact (entryRows_ok ok).spares (unnamed source sourceMem)

/-- A first block that mints 1000 micro-STX. -/
theorem update_announces_coinbaseBlock :
    ∃ db' events, update Db.empty (coinbaseBlock "0x11" "0x00" 1) = .ok (db', events) ∧
      (getStxBalance db' "ST1").balance = 1000 ∧ Announces events "ST1" := by
  have minted : (update Db.empty (coinbaseBlock "0x11" "0x00" 1)).map
      (fun outcome => (getStxBalance outcome.1 "ST1").balance) = .ok 1000 := by
    decide +kernel
  obtain ⟨⟨db', events⟩, accepted, balance⟩ := Except.map_eq_ok.mp minted
  obtain ⟨reorged, counts, -, unchanged, announced⟩ := update_announces accepted
  have noReorg : NoReorg Db.empty (coinbaseBlock "0x11" "0x00" 1) :=
    fun _ _ parent mem => nomatch mem
  refine ⟨db', events, accepted, balance, announced "ST1" (by decide) ?_⟩
  rw [unchanged noReorg]
  exact ne_of_eq_of_ne balance (by decide)

/-- Two blocks at height two, of which the first mints 1000 micro-STX. -/
def mintOnFork : List DataStoreUpdateData :=
  [emptyBlock "0x11" "0x00" 1, coinbaseBlock "0x21" "0x11" 2, emptyBlock "0x22" "0x11" 2]

/-- A block without transactions that orphans the mint is not announced. -/
theorem update_orphanedMint :
    ∃ db' events, update (runUpdates mintOnFork) (emptyBlock "0x32" "0x22" 3) = .ok (db', events) ∧
      (getStxBalance (runUpdates mintOnFork) "ST1").balance = 1000 ∧
      (getStxBalance db' "ST1").balance = 0 ∧ ¬Announces events "ST1" := by
  have orphaned : (update (runUpdates mintOnFork) (emptyBlock "0x32" "0x22" 3)).map
      (fun outcome => ((getStxBalance outcome.1 "ST1").balance, outcome.2)) =
        .ok (0, [.blockUpdate (emptyBlock "0x32" "0x22" 3).block]) := by
    decide +kernel
  obtain ⟨⟨db', events⟩, accepted, outcome⟩ := Except.map_eq_ok.mp orphaned
  obtain ⟨balance, sameEvents⟩ := Prod.mk.inj outcome
  refine ⟨db', events, accepted, by decide +kernel, balance, ?_⟩
  rintro ⟨info, mem, -⟩
  have onlyBlock : events = [.blockUpdate (emptyBlock "0x32" "0x22" 3).block] := sameEvents
  rw [onlyBlock] at mem
  cases List.mem_singleton.mp mem

end StacksApi.Datastore
