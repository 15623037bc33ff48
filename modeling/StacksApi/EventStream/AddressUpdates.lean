import StacksApi.Datastore.AddressUpdates
import StacksApi.EventStream.PageByPage

/-!
# Notified addresses

The event server announces a transaction to everyone who takes part in its asset events.
The columns of the transaction name its sender and the recipient or the contract of its
payload only, so that the history of a participant who is none of these misses it.
-/

namespace StacksApi.EventStream

open StacksApi.Binary
open StacksApi.P2p
open StacksApi.Relational
open StacksApi.Datastore
open StacksApi.Transition

variable {CV : Type} {libraries : Libraries CV}

/-! ## The addresses of an entry -/

/-- The senders and the recipients of the asset events. -/
def participants (entry : TxEntry) : List (Option String) :=
  entry.stxEvents.flatMap (fun event => [event.sender, event.recipient]) ++
    entry.ftEvents.flatMap (fun event => [event.sender, event.recipient]) ++
    entry.nftEvents.flatMap (fun event => [event.sender, event.recipient])

/-- The address that the type of the transaction makes `emitAddressTxUpdates` record. -/
def typeAddresses (tx : DbTx String) : List (Option String) :=
  if tx.typeId = .contractCall then [tx.contractCallContractId]
  else if tx.typeId = .smartContract then [tx.smartContractContractId]
  else if tx.typeId = .tokenTransfer then [tx.tokenTransferRecipientAddress]
  else []

/-- The columns that the history of an address reads hold what the payload names, if the
others are blank before. -/
theorem ownColumns_of_extract {addresses : AddressLibrary} {tx : Transaction CV}
    {columns dbTx : DbTxBase String}
    (extracted : extractTransactionPayload addresses tx columns = .ok dbTx)
    (noRecipient : columns.tokenTransferRecipientAddress = none)
    (noCall : columns.contractCallContractId = none)
    (noContract : columns.smartContractContractId = none) :
    (tx.payload.typeId ≠ .tokenTransfer → dbTx.tokenTransferRecipientAddress = none) ∧
      (tx.payload.typeId ≠ .contractCall → dbTx.contractCallContractId = none) ∧
      (tx.payload.typeId ≠ .smartContract → dbTx.smartContractContractId = none) := by
  cases extracted_of_ok extracted with
  | tokenTransfer kind _ same =>
      rw [kind, same]
      exact ⟨fun other => absurd rfl other, fun _ => noCall, fun _ => noContract⟩
  | smartContract kind _ same =>
      rw [kind, same]
      exact ⟨fun _ => noRecipient, fun _ => noCall, fun other => absurd rfl other⟩
  | contractCall kind _ same =>
      rw [kind, same]
      exact ⟨fun _ => noRecipient, fun other => absurd rfl other, fun _ => noContract⟩
  | poisonMicroblock _ same | coinbase _ same =>
      rw [same]
      exact ⟨fun _ => noRecipient, fun _ => noCall, fun _ => noContract⟩

/-- A deployed contract has the id in the column. -/
theorem contractId_of_extract {addresses : AddressLibrary} {tx : Transaction CV}
    {columns dbTx : DbTxBase String} {msg : CoreNodeMessage} {coreTx : CoreNodeTxMessage}
    {senderAddress : String} (sender : getTxSenderAddress addresses tx = .ok senderAddress)
    (extracted : extractTransactionPayload addresses tx columns = .ok dbTx) :
    ∀ contract ∈ deployed msg coreTx senderAddress tx.payload,
      dbTx.smartContractContractId = some contract.contractId := by
  cases extracted_of_ok extracted with
  | smartContract kind text same =>
      intro contract mem
      rw [kind] at mem
      rw [List.mem_singleton.mp mem, same]
      rw [text] at sender
      cases sender
      rfl
  | tokenTransfer kind _ _ | contractCall kind _ _ | poisonMicroblock kind _ | coinbase kind _ =>
      rw [kind]
      exact List.forall_mem_nil _

/-- The addresses of the columns that depend on the type, and the deployed contracts. -/
theorem mem_declared_iff {msg : CoreNodeMessage} {coreTx : CoreNodeTxMessage} {entry : TxEntry}
    (entryOf : EntryOf libraries msg coreTx entry) (address : String) :
    some address ∈ entry.smartContracts.map (fun contract => some contract.contractId) ∨
        some address ∈ typeAddresses entry.tx ↔
      some address ∈ [entry.tx.tokenTransferRecipientAddress, entry.tx.contractCallContractId,
        entry.tx.smartContractContractId] := by
  obtain ⟨tx, recordOf, -, contracts⟩ := entryOf
  obtain ⟨status, -, extracted⟩ := recordOf.columns
  have typed : entry.tx.typeId = dbTxTypeId tx.payload.typeId :=
    (extractTransactionPayload_ok extracted).typeId
  obtain ⟨recipient, call, contract⟩ := ownColumns_of_extract extracted rfl rfl rfl
  -- the columns of the other types do not name the address
  have noRecipient : entry.tx.typeId ≠ .tokenTransfer →
      ¬some address = entry.tx.tokenTransferRecipientAddress := by
    intro other
    rw [recipient fun same => other (typed.trans (congrArg dbTxTypeId same))]
    exact Option.some_ne_none address
  have noCall : entry.tx.typeId ≠ .contractCall →
      ¬some address = entry.tx.contractCallContractId := by
    intro other
    rw [call fun same => other (typed.trans (congrArg dbTxTypeId same))]
    exact Option.some_ne_none address
  have noContract : entry.tx.typeId ≠ .smartContract →
      ¬some address = entry.tx.smartContractContractId := by
    intro other
    rw [contract fun same => other (typed.trans (congrArg dbTxTypeId same))]
    exact Option.some_ne_none address
  have deployedIds :
      some address ∈ entry.smartContracts.map (fun contract => some contract.contractId) →
      some address = entry.tx.smartContractContractId := by
    rw [contracts]
    intro mem
    obtain ⟨contract, contractMem, same⟩ := List.mem_map.mp mem
    rw [contractId_of_extract recordOf.sender extracted contract contractMem, same]
  rw [typeAddresses]
  cases typeId : entry.tx.typeId with
  | tokenTransfer =>
      have called := noCall (by rw [typeId]; decide)
      have deployed := noContract (by rw [typeId]; decide)
      have undeployed := mt deployedIds deployed
      simp only [List.mem_cons, List.not_mem_nil, reduceCtorEq, if_false, if_true, called, deployed,
        undeployed, false_or, or_false]
  | smartContract =>
      have transferred := noRecipient (by rw [typeId]; decide)
      have called := noCall (by rw [typeId]; decide)
      simp only [List.mem_cons, List.not_mem_nil, reduceCtorEq, if_false, if_true, transferred,
        called, false_or, or_false, or_iff_right_of_imp deployedIds]
  | contractCall =>
      have transferred := noRecipient (by rw [typeId]; decide)
      have deployed := noContract (by rw [typeId]; decide)
      have undeployed := mt deployedIds deployed
      simp only [List.mem_cons, List.not_mem_nil, if_true, transferred, deployed, undeployed,
        false_or, or_false]
  | _ =>
      have transferred := noRecipient (by rw [typeId]; decide)
      have called := noCall (by rw [typeId]; decide)
      have deployed := noContract (by rw [typeId]; decide)
      have undeployed := mt deployedIds deployed
      simp only [List.mem_cons, List.not_mem_nil, reduceCtorEq, if_false, transferred, called,
        deployed, undeployed, or_false]

/-- An entry is recorded under its participants and the addresses in its columns. -/
theorem mem_addresses_iff {msg : CoreNodeMessage} {coreTx : CoreNodeTxMessage} {entry : TxEntry}
    (entryOf : EntryOf libraries msg coreTx entry) (address : String) :
    some address ∈ entry.addresses ↔
      some address ∈ participants entry ∨ some address ∈ entry.ownAddresses := by
  have addresses : entry.addresses = some entry.tx.senderAddress :: participants entry ++
      entry.smartContracts.map (fun contract => some contract.contractId) ++
      typeAddresses entry.tx := by
    rw [TxEntry.addresses, participants, typeAddresses]
    cases entry.tx.typeId <;>
      simp only [List.nil_append, List.cons_append, List.append_assoc, List.append_nil,
        reduceCtorEq, if_true, if_false]
  rw [addresses, List.mem_append, List.mem_append, or_assoc, mem_declared_iff entryOf]
  simp only [TxEntry.ownAddresses, List.mem_cons]
  rw [@or_comm (some address = some entry.tx.senderAddress), or_assoc]

/-! ## Messages -/

/-- After any run, the announcements of a message with a new block above the tip agree with
the histories of the addresses if and only if the columns of each stored transaction name
the participants of its entry, and nothing but these and the columns of the entry. -/
theorem runServer_addressUpdatesAgree_iff {messages : List ServerMessage} {msg : CoreNodeMessage}
    {data : DataStoreUpdateData} {db' : Db} {events : List DataStoreEvent}
    (handed : messageData libraries msg = .ok data)
    (ok : update (runServer libraries messages) data = .ok (db', events))
    (high : Heightens (runServer libraries messages) data)
    (isNew : NewBlock (runServer libraries messages) data.block) :
    AddressUpdatesAgree data events db' ↔
      ∀ entry ∈ data.txs, ∀ address, address ≠ "" →
        (some address ∈ participants entry ∨ some address ∈ entry.ownAddresses ↔
          some address ∈ (data.stored entry).ownAddresses) := by
  obtain ⟨announced, reorged, pruned, row, accepted⟩ := update_ok ok
  have settled : data.settled (runServer libraries messages) = data := if_pos high
  obtain ⟨canonical, carries⟩ := messageData_carries handed
  have reached : db' = runServer libraries (messages ++ [.newBlock msg]) := by
    have handled : handleClientMessage libraries (runServer libraries messages) msg =
        .ok (db', events) := Except.bind_eq_ok.mpr ⟨data, handed, ok⟩
    rw [runServer, List.foldl_append]
    exact (commit_of_ok handled).symm
  rw [settled] at announced
  rw [announced, accepted.addressUpdatesAgree_iff ⟨canonical, carries⟩
    (runServer_standing messages) high isNew (reached ▸ runServer_parses _)]
  obtain ⟨-, entries⟩ := messageData_ok handed
  refine forall₂_congr fun entry mem => forall₂_congr fun address _ => ?_
  obtain ⟨coreTx, -, entryOf, -⟩ := exists_left_of_forall₂ entries mem
  rw [mem_addresses_iff entryOf]

/-! ### A minted amount -/

section Minting

variable (recipient : String)

/-- The transfer with an event that mints micro-STX for a recipient. -/
def mintingBlock : CoreNodeMessage :=
  { sampleBlock with events := [.stxMintEvent sampleCoreTx.txid recipient "7"] }

/-- The entry of the transfer, with an event that mints STX for an address. -/
def mintingEntry : TxEntry :=
  { sampleEntry with
    stxEvents := [
      { eventIndex := 0
        txId := sampleCoreTx.txid
        txIndex := 0
        blockHeight := 1
        canonical := true
        assetEventTypeId := .mint
        sender := none
        recipient := some recipient
        amount := 7 }] }

/-- The data of the block message with that entry. -/
def mintingData : DataStoreUpdateData where
  block := messageBlock sampleBlock
  txs := [mintingEntry recipient]

theorem messageData_mintingBlock :
    messageData sampleLibraries (mintingBlock recipient) = .ok (mintingData recipient) := by
  have parsed : parseMessageTransaction sampleLibraries (mintingBlock recipient) sampleCoreTx =
      .ok sampleParsed := by
    rw [parseMessageTransaction, txBuffer_sampleCoreTx, readBufferTransaction_sampleBuffer]
    rfl
  have all : parseMessageTransactions sampleLibraries (mintingBlock recipient) =
      .ok [sampleParsed] :=
    mapM_eq_ok_iff.mpr (.cons parsed .nil)
  rw [messageData, all]
  rfl

theorem newBlock_mintingData :
    NewBlock (runServer sampleLibraries []) (mintingData recipient).block :=
  List.forall_mem_nil _

/-- The tables with the block of the minted amount. -/
def mintingTables : Db :=
  { Db.empty with
    blocks := [sampleBlockRow]
    txs := [sampleTxRow]
    stxEvents := [
      { indexBlockHash := [0x11]
        entity :=
          { eventIndex := 0
            txId := sampleTxId
            txIndex := 0
            blockHeight := 1
            canonical := true
            assetEventTypeId := .mint
            sender := none
            recipient := some recipient
            amount := 7 } }] }

theorem update_mintingData
    (updated : (update Db.empty (mintingData recipient)).map Prod.fst =
      .ok (mintingTables recipient)) :
    update (runServer sampleLibraries []) (mintingData recipient) =
      .ok (mintingTables recipient, updateEvents (mintingData recipient)) := by
  obtain ⟨⟨db', events⟩, ok, same⟩ := Except.map_eq_ok.mp updated
  obtain ⟨announced, -⟩ := update_ok ok
  change db' = mintingTables recipient at same
  rw [same, announced] at ok
  exact ok

end Minting

/-- The amount is minted for the sender, whom the columns name. -/
theorem runServer_addressUpdatesAgree_minting :
    AddressUpdatesAgree (mintingData "ST000000000000000000002AMW42H")
      (updateEvents (mintingData "ST000000000000000000002AMW42H"))
      (mintingTables "ST000000000000000000002AMW42H") := by
  have ok := update_mintingData "ST000000000000000000002AMW42H" (by decide +kernel)
  refine (runServer_addressUpdatesAgree_iff (messageData_mintingBlock _) ok (by decide)
    (newBlock_mintingData _)).mpr ?_
  intro entry mem address _
  obtain rfl := List.mem_singleton.mp mem
  have stored : (mintingData "ST000000000000000000002AMW42H").stored
      (mintingEntry "ST000000000000000000002AMW42H") =
        mintingEntry "ST000000000000000000002AMW42H" := rfl
  rw [stored]
  refine or_iff_right_of_imp fun participant => ?_
  have single : some address = some "ST000000000000000000002AMW42H" := by
    rcases List.mem_pair.mp participant with absent | minted
    · cases absent
    · exact minted
  rw [single]
  exact List.mem_cons_self

/-- The amount is minted for someone else, who is notified of a transaction that is not in
the history of the address. -/
theorem addressUpdates_mintingForOther :
    messageData sampleLibraries (mintingBlock "STB44HYPYAT2BB2QE513NSP81HTMYWBJP02HPGK6") =
        .ok (mintingData "STB44HYPYAT2BB2QE513NSP81HTMYWBJP02HPGK6") ∧
      ∃ db' events, update (runServer sampleLibraries [])
          (mintingData "STB44HYPYAT2BB2QE513NSP81HTMYWBJP02HPGK6") = .ok (db', events) ∧
        Heightens (runServer sampleLibraries [])
          (mintingData "STB44HYPYAT2BB2QE513NSP81HTMYWBJP02HPGK6") ∧
        NewBlock (runServer sampleLibraries [])
          (mintingData "STB44HYPYAT2BB2QE513NSP81HTMYWBJP02HPGK6").block ∧
        announcedTxs "STB44HYPYAT2BB2QE513NSP81HTMYWBJP02HPGK6" events = [[sampleEntry.tx]] ∧
        getAddressTxs db' "STB44HYPYAT2BB2QE513NSP81HTMYWBJP02HPGK6" 20 0 =
          .ok { results := [], total := 0 } ∧
        ¬AddressUpdatesAgree
          (mintingData "STB44HYPYAT2BB2QE513NSP81HTMYWBJP02HPGK6") events db' := by
  have ok := update_mintingData "STB44HYPYAT2BB2QE513NSP81HTMYWBJP02HPGK6" (by decide +kernel)
  have announced : announcedTxs "STB44HYPYAT2BB2QE513NSP81HTMYWBJP02HPGK6"
      (updateEvents (mintingData "STB44HYPYAT2BB2QE513NSP81HTMYWBJP02HPGK6")) =
        [[sampleEntry.tx]] := by
    decide +kernel
  refine ⟨messageData_mintingBlock _, _, _, ok, by decide, newBlock_mintingData _, announced,
    by decide +kernel, ?_⟩
  intro agree
  have same := agree _ (Scan.refl _) "STB44HYPYAT2BB2QE513NSP81HTMYWBJP02HPGK6" (by decide)
  rw [announced] at same
  revert same
  decide +kernel

end StacksApi.EventStream
