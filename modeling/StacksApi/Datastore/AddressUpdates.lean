import StacksApi.Collections.InsertionMap
import StacksApi.Datastore.AddressHistory
import StacksApi.Datastore.Admissible
import StacksApi.Datastore.ChainListings
import StacksApi.Datastore.PageByPage
import StacksApi.Datastore.Standing

/-!
# Address updates and the history of an address

An update announces, for each address that one of its entries records, the transactions
of the entries that record it.  The history of an address selects the stored transactions
by their own columns, so that the two agree where the entries record the addresses that
stand in the columns of their transactions, and no others.
-/

namespace StacksApi.Datastore

open StacksApi.Binary
open StacksApi.Collections
open StacksApi.Relational
open StacksApi.Transition

/-! ## What is announced for an address -/

/-- The entry is recorded under the address. -/
def TxEntry.records (entry : TxEntry) (address : String) : Bool :=
  address ≠ "" && some address ∈ entry.addresses

/-- The transactions of every announcement for the address. -/
def announcedTxs (address : String) (events : List DataStoreEvent) : List (List (DbTx String)) :=
  events.filterMap fun
    | .addressUpdate info => if info.address = address then some info.txs else none
    | _ => none

/-- One announcement of all the transactions, or none without any. -/
def announcement (txs : List (DbTx String)) : List (List (DbTx String)) :=
  if txs.isEmpty then [] else [txs]

/-- A set of objects does not take one that it has. -/
def addMember (member : Nat × DbTx String) (members : List (Nat × DbTx String)) :
    List (Nat × DbTx String) :=
  if members.all fun other => other.1 ≠ member.1 then members ++ [member] else members

theorem addMember_self (member : Nat × DbTx String) (members : List (Nat × DbTx String)) :
    addMember member (addMember member members) = addMember member members := by
  have known : ¬(addMember member members).all (fun other => other.1 ≠ member.1) = true := by
    intro apart
    rw [List.all_eq_true] at apart
    rw [addMember] at apart
    split at apart
    · have last : member ∈ members ++ [member] :=
        List.mem_append_right _ (List.mem_singleton_self member)
      exact of_decide_eq_true (apart member last) rfl
    · next known => exact known (List.all_eq_true.mpr apart)
  rw [addMember.eq_def member (addMember member members), if_neg known]

section Lookup

variable {member : Nat × DbTx String} {updates : AddressTxUpdates} {addr : String}

/-- A recorded address gets the transaction, the sets of the others stay. -/
theorem lookup_addAddressTx (named : addr ≠ "") (address : String) :
    (addAddressTx member updates (some addr)).lookup address =
      if address = addr then some (addMember member ((updates.lookup addr).getD []))
      else updates.lookup address := by
  rw [addAddressTx.eq_3 _ _ _ named]
  cases known : updates.any fun update => decide (update.1 = addr) with
  | true =>
      have added : (updates.map fun update =>
          if update.1 = addr ∧ update.2.all fun other => other.1 ≠ member.1 then
            (update.1, update.2 ++ [member])
          else update) = updates.map fun update =>
            (update.1, if update.1 = addr then addMember member update.2 else update.2) := by
        refine List.map_congr_left fun update _ => ?_
        by_cases own : update.1 = addr
        · by_cases apart : (update.2.all fun other => other.1 ≠ member.1) = true
          · rw [if_pos ⟨own, apart⟩, if_pos own, addMember, if_pos apart]
          · rw [if_neg fun both => apart both.2, if_pos own, addMember, if_neg apart]
        · rw [if_neg fun both => own both.1, if_neg own]
      rw [if_pos rfl, added, lookup_map_value fun key members =>
        if key = addr then addMember member members else members]
      by_cases same : address = addr
      · subst same
        obtain ⟨update, mem, own⟩ := List.any_eq_true.mp known
        cases found : updates.lookup address with
        | none =>
            rw [lookup_eq_none_iff_notMem] at found
            exact absurd (List.mem_map.mpr ⟨update, mem, of_decide_eq_true own⟩) found
        | some members => rw [Option.map_some, if_pos rfl, if_pos rfl, Option.getD_some]
      · simp only [if_neg same, Option.map_id']
  | false =>
      have absent : updates.lookup addr = none := by
        rw [lookup_eq_none_iff_notMem]
        intro mem
        obtain ⟨update, updateMem, own⟩ := List.mem_map.mp mem
        exact List.any_eq_false.mp known update updateMem (decide_eq_true own)
      rw [if_neg Bool.false_ne_true, List.lookup_append, absent]
      by_cases same : address = addr
      · subst same
        rw [absent, if_pos rfl, Option.none_or, List.lookup_cons_self]
        rfl
      · rw [if_neg same, List.lookup_cons, beq_eq_false_iff_ne.mpr same, List.lookup_nil,
          Option.or_none]

/-- Addresses that are absent or empty are not recorded. -/
theorem addAddressTx_of_unnamed {addr : Option String}
    (unnamed : ∀ address, addr = some address → address = "") :
    addAddressTx member updates addr = updates := by
  cases addr with
  | none => rfl
  | some address =>
      rw [unnamed address rfl]
      rfl

theorem nodup_keys_addAddressTx (distinct : (updates.map Prod.fst).Nodup) (addr : Option String) :
    ((addAddressTx member updates addr).map Prod.fst).Nodup := by
  rw [addAddressTx.eq_def]
  split
  · exact distinct
  · exact distinct
  · next addr named =>
      split
      · have kept : ∀ update : String × List (Nat × DbTx String),
            (if update.1 = addr ∧ update.2.all fun other => other.1 ≠ member.1 then
              (update.1, update.2 ++ [member])
            else update).1 = update.1 := by
          intro update
          split <;> rfl
        simp only [List.map_map, Function.comp_def, kept]
        exact distinct
      · next unknown =>
          rw [List.map_append, List.map_singleton, ← List.concat_eq_append]
          refine List.Nodup.concat ?_ distinct
          intro mem
          obtain ⟨update, updateMem, own⟩ := List.mem_map.mp mem
          exact unknown (List.any_eq_true.mpr ⟨update, updateMem, decide_eq_true own⟩)

/-- The addresses of an entry get its transaction once. -/
theorem lookup_foldl_addAddressTx (addresses : List (Option String)) (updates : AddressTxUpdates)
    (address : String) :
    (addresses.foldl (addAddressTx member) updates).lookup address =
      if address ≠ "" ∧ some address ∈ addresses then
        some (addMember member ((updates.lookup address).getD []))
      else updates.lookup address := by
  induction addresses generalizing updates with
  | nil => rw [if_neg fun both => List.not_mem_nil both.2, List.foldl_nil]
  | cons addr addresses ih =>
      rw [List.foldl_cons, ih]
      by_cases named : ∃ text, addr = some text ∧ text ≠ ""
      · obtain ⟨text, rfl, named⟩ := named
        rw [lookup_addAddressTx named]
        by_cases same : address = text
        · subst same
          have here : address ≠ "" ∧ some address ∈ some address :: addresses :=
            ⟨named, List.mem_cons_self⟩
          rw [if_pos here, if_pos rfl, Option.getD_some, addMember_self, ite_self]
        · have elsewhere : some address ∈ some text :: addresses ↔ some address ∈ addresses := by
            rw [List.mem_cons, Option.some.injEq, or_iff_right same]
          simp only [if_neg same, elsewhere]
      · have unnamed : ∀ text, addr = some text → text = "" := by
          intro text isText
          by_contra nonempty
          exact named ⟨text, isText, nonempty⟩
        rw [addAddressTx_of_unnamed unnamed]
        by_cases nonempty : address = ""
        · rw [if_neg fun both => both.1 nonempty, if_neg fun both => both.1 nonempty]
        · have elsewhere : some address ∈ addr :: addresses ↔ some address ∈ addresses := by
            rw [List.mem_cons, or_iff_right fun same => nonempty (unnamed address same.symm)]
          simp only [elsewhere]

theorem nodup_keys_foldl_addAddressTx (addresses : List (Option String))
    (distinct : (updates.map Prod.fst).Nodup) :
    ((addresses.foldl (addAddressTx member) updates).map Prod.fst).Nodup :=
  List.foldlRecOn addresses (addAddressTx member)
    (motive := fun updates => (updates.map Prod.fst).Nodup) distinct
    fun _ distinct addr _ => nodup_keys_addAddressTx distinct addr

end Lookup

/-! ## The announcements of an update -/

/-- The transactions of the entries that are recorded under the address, with their
positions from a number on. -/
def recordedMembers (address : String) (entries : List TxEntry) (start : Nat) :
    List (Nat × DbTx String) :=
  ((entries.zipIdx start).filter fun member => member.1.records address).map
    fun member => (member.2, member.1.tx)

theorem map_snd_recordedMembers (address : String) (entries : List TxEntry) (start : Nat) :
    (recordedMembers address entries start).map Prod.snd =
      (entries.filter fun entry => entry.records address).map TxEntry.tx := by
  have unnumbered : (entries.zipIdx start).map Prod.fst = entries :=
    List.zipIdx_map_fst start entries
  conv_rhs => rw [← unnumbered]
  rw [recordedMembers, List.filter_map, List.map_map, List.map_map]
  rfl

theorem recordedMembers_cons (address : String) (entry : TxEntry) (entries : List TxEntry)
    (start : Nat) : recordedMembers address (entry :: entries) start =
      if entry.records address then
        (start, entry.tx) :: recordedMembers address entries (start + 1)
      else recordedMembers address entries (start + 1) := by
  rw [recordedMembers, List.zipIdx_cons, List.filter_cons]
  split
  · rfl
  · rfl

/-- The body of the loop over the entries. -/
def recordEntry (updates : AddressTxUpdates) (entry : TxEntry × Nat) : AddressTxUpdates :=
  entry.1.addresses.foldl (addAddressTx (entry.2, entry.1.tx)) updates

theorem lookup_recordEntry (address : String) {updates : AddressTxUpdates} {entry : TxEntry}
    {position : Nat} (earlier : ∀ member ∈ (updates.lookup address).getD [], member.1 < position) :
    (recordEntry updates (entry, position)).lookup address =
      if entry.records address then
        some ((updates.lookup address).getD [] ++ [(position, entry.tx)])
      else updates.lookup address := by
  have apart : ((updates.lookup address).getD []).all (fun other => other.1 ≠ position) = true :=
    List.all_eq_true.mpr fun other mem => decide_eq_true (earlier other mem).ne
  have added : addMember (position, entry.tx) ((updates.lookup address).getD []) =
      (updates.lookup address).getD [] ++ [(position, entry.tx)] := if_pos apart
  rw [recordEntry, lookup_foldl_addAddressTx, added]
  by_cases recorded : entry.records address = true
  · have named := recorded
    rw [TxEntry.records, Bool.and_eq_true, decide_eq_true_eq, decide_eq_true_eq] at named
    rw [if_pos recorded, if_pos named]
  · rw [if_neg recorded, if_neg]
    intro named
    apply recorded
    rw [TxEntry.records, Bool.and_eq_true, decide_eq_true_eq, decide_eq_true_eq]
    exact named

/-- The entries are recorded one after another, each at the end of the sets. -/
theorem lookup_foldl_recordEntry (address : String) (entries : List TxEntry) (start : Nat)
    (updates : AddressTxUpdates)
    (earlier : ∀ member ∈ (updates.lookup address).getD [], member.1 < start) :
    ((entries.zipIdx start).foldl recordEntry updates).lookup address =
      if (recordedMembers address entries start).isEmpty then updates.lookup address
      else some ((updates.lookup address).getD [] ++ recordedMembers address entries start) := by
  induction entries generalizing start updates with
  | nil => rfl
  | cons entry entries ih =>
      have step := @lookup_recordEntry address updates entry start earlier
      rw [List.zipIdx_cons, List.foldl_cons, recordedMembers_cons]
      by_cases recorded : entry.records address = true
      · rw [if_pos recorded] at step ⊢
        rw [ih (start + 1), step]
        · by_cases last : (recordedMembers address entries (start + 1)).isEmpty = true
          · rw [if_pos last, List.isEmpty_iff.mp last]
            rfl
          · rw [if_neg last, Option.getD_some, List.append_assoc]
            rfl
        · rw [step, Option.getD_some, List.forall_mem_append, List.forall_mem_singleton]
          exact ⟨fun member mem => (earlier member mem).trans (Nat.lt_succ_self start),
            Nat.lt_succ_self start⟩
      · rw [if_neg recorded] at step ⊢
        rw [ih (start + 1), step]
        rw [step]
        exact fun member mem => (earlier member mem).trans (Nat.lt_succ_self start)

theorem nodup_keys_addressTxUpdates (data : DataStoreUpdateData) :
    ((addressTxUpdates data).map Prod.fst).Nodup :=
  List.foldlRecOn (data.txs.zipIdx) recordEntry
    (motive := fun updates => (updates.map Prod.fst).Nodup) List.nodup_nil
    fun _ distinct _ _ => nodup_keys_foldl_addAddressTx _ distinct

theorem lookup_addressTxUpdates (data : DataStoreUpdateData) (address : String) :
    (addressTxUpdates data).lookup address =
      if (recordedMembers address data.txs 0).isEmpty then none
      else some (recordedMembers address data.txs 0) :=
  lookup_foldl_recordEntry address data.txs 0 [] (List.forall_mem_nil _)

/-- There is one announcement for each recorded address, with the transaction of each
entry that is recorded under it once and in the order of the block. -/
theorem announcedTxs_updateEvents (data : DataStoreUpdateData) (address : String) :
    announcedTxs address (updateEvents data) =
      announcement ((data.txs.filter fun entry => entry.records address).map TxEntry.tx) := by
  have noTxUpdates : announcedTxs address
      (data.txs.map fun entry => DataStoreEvent.txUpdate entry.tx) = [] := by
    rw [announcedTxs, List.filterMap_map]
    exact List.filterMap_eq_nil_iff.mpr fun _ _ => rfl
  have emitted : announcedTxs address (emitAddressTxUpdates data) =
      (((addressTxUpdates data).lookup address).map (List.map Prod.snd)).toList := by
    rw [← filterMap_key_eq_lookup (nodup_keys_addressTxUpdates data), announcedTxs,
      emitAddressTxUpdates, List.filterMap_map]
    rfl
  have split : announcedTxs address (updateEvents data) =
      announcedTxs address (data.txs.map fun entry => DataStoreEvent.txUpdate entry.tx) ++
        announcedTxs address (emitAddressTxUpdates data) := by
    rw [updateEvents, announcedTxs, List.filterMap_append, List.filterMap_append]
    rfl
  rw [split, noTxUpdates, emitted, lookup_addressTxUpdates, List.nil_append,
    ← map_snd_recordedMembers address data.txs 0, announcement, List.isEmpty_map]
  split
  · rfl
  · rfl

/-! ## What is in the history of an address -/

/-- The query for all of the history lists the transaction in the block that it names. -/
def listsAddressTx (db : Db) (address : String) (tx : DbTx String) : Bool :=
  match getAddressTxs db address db.txs.length 0 with
  | .ok history => history.results.any fun listed =>
      hexToBuffer listed.txId = hexToBuffer tx.txId ∧
        hexToBuffer listed.indexBlockHash = hexToBuffer tx.indexBlockHash
  | .error _ => false

/-- Where the stored transactions can be parsed, the history has the canonical ones with
the address in a column. -/
theorem listsAddressTx_iff {db : Db} (parses : ∀ row ∈ db.txs, Succeeds (parseTxQueryResult row))
    {address : String} {tx : DbTx String} {txId hash : Buffer}
    (txIdOk : hexToBuffer tx.txId = .ok txId) (hashOk : hexToBuffer tx.indexBlockHash = .ok hash) :
    listsAddressTx db address tx = true ↔
      ∃ row ∈ db.txs, row.canonical = true ∧ row.txId = txId ∧ row.indexBlockHash = hash ∧
        isAddressTx address row = true := by
  let transactions := db.txs.filter fun row => row.canonical && isAddressTx address row
  let ordered := orderByDesc (fun row : DbTx Buffer => toLex (row.blockHeight, row.txIndex))
    transactions
  have whole : page db.txs.length 0 ordered = ordered := by
    have bound : ordered.length ≤ db.txs.length :=
      (orderByDesc_perm _ transactions).length_eq.trans_le (List.length_filter_le _ _)
    exact List.take_of_length_le bound
  obtain ⟨results, parsed⟩ : Succeeds (ordered.mapM parseTxQueryResult) := by
    rw [succeeds_mapM_iff]
    intro row mem
    exact parses row (List.mem_of_mem_filter (mem_orderByDesc.mp mem))
  have answer : ∃ total, getAddressTxs db address db.txs.length 0 = .ok { results, total } := by
    have paged : paged db.txs.length 0 ordered = .ok ordered :=
      (paged_natCast db.txs.length 0 ordered).trans (congrArg Except.ok whole)
    refine ⟨if ordered.isEmpty then 0 else transactions.length, ?_⟩
    rw [getAddressTxs, paged]
    change (ordered.mapM parseTxQueryResult >>= _) = _
    rw [parsed]
    rfl
  obtain ⟨total, answer⟩ := answer
  rw [listsAddressTx, answer]
  change (results.any fun listed => _) = true ↔ _
  rw [List.any_eq_true]
  constructor
  · rintro ⟨listed, listedMem, same⟩
    obtain ⟨sameId, sameHash⟩ := of_decide_eq_true same
    obtain ⟨row, mem, rowParsed⟩ := mem_of_mapM_ok parsed listedMem
    have kept := parsedTx_of_ok rowParsed
    obtain ⟨stored, selected⟩ := List.mem_filter.mp (mem_orderByDesc.mp mem)
    obtain ⟨canonical, named⟩ := Bool.and_eq_true_iff.mp selected
    rw [kept.txId, hexToBuffer_bufferToHexPrefixString, txIdOk] at sameId
    rw [kept.indexBlockHash, hexToBuffer_bufferToHexPrefixString, hashOk] at sameHash
    exact ⟨row, stored, canonical, Except.ok.inj sameId, Except.ok.inj sameHash, named⟩
  · rintro ⟨row, stored, canonical, rfl, rfl, named⟩
    have selected : row ∈ transactions :=
      List.mem_filter.mpr ⟨stored, Bool.and_eq_true_iff.mpr ⟨canonical, named⟩⟩
    obtain ⟨listed, listedMem, rowParsed⟩ := exists_of_mapM_ok parsed (mem_orderByDesc.mpr selected)
    have kept := parsedTx_of_ok rowParsed
    refine ⟨listed, listedMem, decide_eq_true ⟨?_, ?_⟩⟩
    · rw [kept.txId, hexToBuffer_bufferToHexPrefixString, txIdOk]
    · rw [kept.indexBlockHash, hexToBuffer_bufferToHexPrefixString, hashOk]

/-! ## The row of an entry -/

/-- The addresses that stand in the columns of the transaction. -/
def TxEntry.ownAddresses (entry : TxEntry) : List (Option String) :=
  [some entry.tx.senderAddress, entry.tx.tokenTransferRecipientAddress,
    entry.tx.contractCallContractId, entry.tx.smartContractContractId]

/-- The entry whose transaction is stored for the id of an entry: the first one with it. -/
def DataStoreUpdateData.stored (data : DataStoreUpdateData) (entry : TxEntry) : TxEntry :=
  (data.txs.find? fun first => hexToBuffer first.tx.txId = hexToBuffer entry.tx.txId).getD entry

theorem DecodedTx.isAddressTx_iff {entry : TxEntry} {row : DbTx Buffer}
    (decoded : DecodedTx entry.tx row) (address : String) :
    isAddressTx address row = true ↔ some address ∈ entry.ownAddresses := by
  have sender : row.senderAddress = entry.tx.senderAddress :=
    congrArg (fun row : DbTx Buffer => row.senderAddress) decoded.columns
  have recipient : row.tokenTransferRecipientAddress = entry.tx.tokenTransferRecipientAddress :=
    congrArg (fun row : DbTx Buffer => row.tokenTransferRecipientAddress) decoded.columns
  have called : row.contractCallContractId = entry.tx.contractCallContractId :=
    congrArg (fun row : DbTx Buffer => row.contractCallContractId) decoded.columns
  have deployed : row.smartContractContractId = entry.tx.smartContractContractId :=
    congrArg (fun row : DbTx Buffer => row.smartContractContractId) decoded.columns
  simp only [isAddressTx, Bool.or_eq_true, decide_eq_true_eq, or_assoc, TxEntry.ownAddresses,
    List.mem_cons, List.not_mem_nil, or_false, Option.some.injEq, @eq_comm _ (some address)]
  rw [sender, recipient, called, deployed]

/-- Lists that are related one by one find related items. -/
theorem exists_find?_of_forall₂ {α β : Type} {R : α → β → Prop} {first : List α}
    {second : List β} {p : α → Bool} {q : β → Bool} (related : List.Forall₂ R first second)
    (same : ∀ item, ∀ other ∈ second, R item other → p item = q other) {item : α}
    (mem : item ∈ first) (holds : p item = true) :
    ∃ found other, first.find? p = some found ∧ second.find? q = some other ∧ R found other := by
  induction related with
  | nil => exact absurd mem List.not_mem_nil
  | @cons head other first second headRelated _ ih =>
      have sameHead := same head other List.mem_cons_self headRelated
      cases matched : p head with
      | true =>
          have otherMatched : q other = true := sameHead.symm.trans matched
          exact ⟨head, other, List.find?_cons_of_pos matched, List.find?_cons_of_pos otherMatched,
            headRelated⟩
      | false =>
          have later : item ∈ first := by
            rcases List.mem_cons.mp mem with rfl | later
            · rw [holds] at matched
              cases matched
            · exact later
          have otherUnmatched : q other = false := sameHead.symm.trans matched
          obtain ⟨found, foundOther, isFound, isOther, foundRelated⟩ :=
            ih (fun item other mem => same item other (List.mem_cons_of_mem _ mem)) later
          refine ⟨found, foundOther, ?_, ?_, foundRelated⟩
          · rw [List.find?_cons_of_neg (by rw [matched]; exact Bool.false_ne_true), isFound]
          · rw [List.find?_cons_of_neg (by rw [otherUnmatched]; exact Bool.false_ne_true), isOther]

section Accepted

variable {db reorged pruned db' : Db} {data : DataStoreUpdateData} {row : DbBlock Buffer}

/-- Of the entries with an id the first one is stored. -/
theorem find?_insertedRows {rows : List EntryRows} {hash : Buffer}
    (computed : data.txs.mapM entryRows = .ok rows)
    (inBlock : ∀ added ∈ rows, added.tx.indexBlockHash = hash) {entry : TxEntry}
    (mem : entry ∈ data.txs) {key : DbTx Buffer}
    (keyId : hexToBuffer entry.tx.txId = .ok key.txId) (keyHash : key.indexBlockHash = hash) :
    ∃ added : EntryRows, added.tx ∈ insertedRows rows .txs ∧ added.tx.txId = key.txId ∧
      added.tx.indexBlockHash = hash ∧ DecodedTx (data.stored entry).tx added.tx := by
  have same : ∀ first, ∀ added ∈ rows, entryRows first = .ok added →
      decide (hexToBuffer first.tx.txId = hexToBuffer entry.tx.txId) =
        sameInclusion key added.tx := by
    intro first added addedMem decoded
    rw [(txRow_ok (entryRows_ok decoded).tx).txId, keyId, sameInclusion, keyHash,
      inBlock added addedMem]
    simp [eq_comm]
  obtain ⟨first, added, isFirst, isAdded, decoded⟩ := exists_find?_of_forall₂
    (q := fun added : EntryRows => sameInclusion key added.tx) (mapM_eq_ok_iff.mp computed) same
    mem (decide_eq_true rfl)
  have keyed := List.find?_some isAdded
  obtain ⟨sameId, sameHash⟩ := of_decide_eq_true keyed
  have stored : data.stored entry = first := by
    rw [DataStoreUpdateData.stored, isFirst, Option.getD_some]
  refine ⟨added, ?_, sameId.symm, sameHash.symm.trans keyHash, ?_⟩
  · apply List.mem_of_find?_eq_some (p := sameInclusion key)
    have inserted : (rows.foldl Db.addEntry Db.empty).txs.find? (sameInclusion key) =
        (rows.map EntryRows.tx).find? (sameInclusion key) := find?_foldl_addEntry key rows Db.empty
    refine inserted.trans ?_
    rw [List.find?_map]
    exact congrArg (Option.map EntryRows.tx) isAdded
  · rw [stored]
    exact txRow_ok (entryRows_ok decoded).tx

/-- After a new canonical block the history of an address has the transaction of an entry
when the address stands in the columns of the stored one. -/
theorem Accepted.listsAddressTx_iff (accepted : Accepted db data reorged pruned row db')
    (wired : data.Wired) (standing : Standing db) (high : Heightens db data)
    (isNew : NewBlock db data.block) (parses : ∀ tx ∈ db'.txs, Succeeds (parseTxQueryResult tx))
    {read : Db} (scan : Scan db' read) {entry : TxEntry} (mem : entry ∈ data.txs)
    (address : String) :
    listsAddressTx read address entry.tx = true ↔
      some address ∈ (data.stored entry).ownAddresses := by
  have settled : data.settled db = data := if_pos high
  have decodedHash := (accepted.decodedBlock wired.canonical).1
  obtain ⟨counts, handled⟩ := accepted.reorg
  have reorgedStanding := (standing.handleReorg handled).1
  rcases accepted.outcome wired reorgedStanding with
    ⟨⟨stored, storedMem, same⟩, -⟩ | ⟨fresh, -, rows, computed, tables⟩
  · obtain ⟨before, beforeMem, sameBlock⟩ :=
      exists_of_raised_eq (handleReorg_remarked handled).blocks storedMem
    have sameHash := congrArg DbBlock.indexBlockHash sameBlock
    change before.indexBlockHash = stored.indexBlockHash at sameHash
    rw [← same, ← sameHash] at decodedHash
    exact absurd decodedHash (isNew before beforeMem)
  · have inBlock : ∀ added ∈ rows, added.tx.indexBlockHash = row.indexBlockHash ∧
        added.tx.canonical = decide (Heightens db data) := fun added addedMem =>
      accepted.inBlockRows wired.canonical wired.carries computed added addedMem .txs added.tx
        (List.mem_singleton_self _)
    rw [settled] at computed
    obtain ⟨entryRow, entryRowMem, entryOk⟩ := exists_of_mapM_ok computed mem
    have entryDecoded := txRow_ok (entryRows_ok entryOk).tx
    have entryHash := (inBlock entryRow entryRowMem).1
    obtain ⟨added, addedMem, addedId, addedHash, decoded⟩ := find?_insertedRows computed
      (fun added addedMem => (inBlock added addedMem).1) mem entryDecoded.txId entryHash
    have hashOk := entryDecoded.indexBlockHash
    rw [entryHash] at hashOk
    have readTxs : db'.txs.Perm read.txs := scan.rows .txs
    have txs : db'.txs = reorged.txs ++ (rows.foldl Db.addEntry Db.empty).txs := tables .txs
    rw [Datastore.listsAddressTx_iff (fun tx txMem => parses tx (readTxs.mem_iff.mpr txMem))
      entryDecoded.txId hashOk, ← decoded.isAddressTx_iff]
    constructor
    · rintro ⟨tx, txMem, -, sameId, sameHash, named⟩
      have inTables := readTxs.mem_iff.mpr txMem
      rw [txs] at inTables
      rcases List.mem_append.mp inTables with old | inserted
      · obtain ⟨block, blockMem, key, -⟩ := reorgedStanding.owned .txs tx old
        exact absurd (key.trans sameHash) (fresh block blockMem)
      · have empty : InclusionsUnique Db.empty := List.nodup_nil
        have only : tx = added.tx := by
          apply List.inj_on_of_nodup_map (empty.addEntries rows) inserted addedMem
          rw [sameId, sameHash, addedId, addedHash]
        exact only ▸ named
    · intro named
      refine ⟨added.tx, ?_, ?_, addedId, addedHash, named⟩
      · rw [← readTxs.mem_iff, txs]
        exact List.mem_append_right _ addedMem
      · obtain ⟨source, sourceMem, inSource⟩ := @mem_insertedRows rows .txs added.tx addedMem
        rw [List.mem_singleton.mp inSource, (inBlock source sourceMem).2]
        exact decide_eq_true high

/-- In every order of reading, the announcement for an address has, once each and in their
order, exactly those transactions of the block that are in its history. -/
def AddressUpdatesAgree (data : DataStoreUpdateData) (events : List DataStoreEvent) (db' : Db) :
    Prop :=
  ∀ read, Scan db' read → ∀ address, address ≠ "" →
    announcedTxs address events =
      announcement ((data.txs.filter fun entry => listsAddressTx read address entry.tx).map
        TxEntry.tx)

theorem announcement_injective : Function.Injective announcement := by
  intro first second same
  rw [announcement, announcement] at same
  split at same
  · next none =>
      split at same
      · next none' => rw [List.isEmpty_iff.mp none, List.isEmpty_iff.mp none']
      · cases same
  · split at same
    · cases same
    · exact List.singleton_inj.mp same

/-- Selections with the same images are the same when the second depends on the image. -/
theorem eq_of_map_filter_eq {α β : Type} {f : α → β} {p q : α → Bool} {items : List α}
    (same : (items.filter p).map f = (items.filter q).map f)
    (determined : ∀ item other, f item = f other → q item = q other) :
    ∀ item ∈ items, p item = q item := by
  have within : ∀ item ∈ items, p item = true → q item = true := by
    intro item mem selected
    have image : f item ∈ (items.filter q).map f :=
      same ▸ List.mem_map_of_mem (List.mem_filter.mpr ⟨mem, selected⟩)
    obtain ⟨other, otherMem, sameImage⟩ := List.mem_map.mp image
    exact (determined other item sameImage).symm.trans (List.mem_filter.mp otherMem).2
  have lengths : (items.filter p).length = (items.filter q).length := by
    rw [← List.length_map f, same, List.length_map]
  have selections : items.filter p = items.filter q := by
    have sublist : (items.filter p).Sublist (items.filter q) := by
      have twice : items.filter p = (items.filter q).filter p := by
        rw [List.filter_filter]
        refine List.filter_congr fun item mem => ?_
        cases selected : p item with
        | true => rw [within item mem selected, Bool.and_self]
        | false => rfl
      rw [twice]
      exact List.filter_sublist
    exact sublist.eq_of_length lengths
  intro item mem
  rw [Bool.eq_iff_iff]
  refine ⟨within item mem, fun selected => ?_⟩
  have inSecond : item ∈ items.filter q := List.mem_filter.mpr ⟨mem, selected⟩
  rw [← selections] at inSecond
  exact (List.mem_filter.mp inSecond).2

/-- The announcements agree with the histories if and only if every entry is recorded under
the addresses in the columns of its stored transaction. -/
theorem Accepted.addressUpdatesAgree_iff (accepted : Accepted db data reorged pruned row db')
    (wired : data.Wired) (standing : Standing db) (high : Heightens db data)
    (isNew : NewBlock db data.block) (parses : ∀ tx ∈ db'.txs, Succeeds (parseTxQueryResult tx)) :
    AddressUpdatesAgree data (updateEvents data) db' ↔
      ∀ entry ∈ data.txs, ∀ address, address ≠ "" →
        (some address ∈ entry.addresses ↔ some address ∈ (data.stored entry).ownAddresses) := by
  have lists : ∀ read, Scan db' read → ∀ entry ∈ data.txs, ∀ address,
      (listsAddressTx read address entry.tx = true ↔
        some address ∈ (data.stored entry).ownAddresses) := fun read scan entry mem address =>
    accepted.listsAddressTx_iff wired standing high isNew parses scan mem address
  have records : ∀ entry : TxEntry, ∀ address, address ≠ "" →
      (entry.records address = true ↔ some address ∈ entry.addresses) := by
    intro entry address named
    rw [TxEntry.records, Bool.and_eq_true, decide_eq_true_eq, decide_eq_true_eq,
      and_iff_right named]
  constructor
  · intro agree entry mem address named
    have same := agree db' (Scan.refl db') address named
    rw [announcedTxs_updateEvents] at same
    have selected := eq_of_map_filter_eq (announcement_injective same)
      (fun item other sameTx => congrArg (listsAddressTx db' address) sameTx) entry mem
    rw [← records entry address named, selected, lists db' (Scan.refl db') entry mem]
  · intro own read scan address named
    rw [announcedTxs_updateEvents]
    congr 2
    refine List.filter_congr fun entry mem => ?_
    rw [Bool.eq_iff_iff, records entry address named, lists read scan entry mem]
    exact own entry mem address named

end Accepted

end StacksApi.Datastore
