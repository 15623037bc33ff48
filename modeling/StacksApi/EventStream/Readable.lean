import StacksApi.EventStream.Handed

/-!
# Which block messages are handed over

A message whose transactions are encodings of well-formed transactions is handed
to the store unless one of them has a payload of the kind that
`parseMessageTransactions` has no case for, an address has no text, or an event
names a value that cannot be parsed.
-/

namespace StacksApi.EventStream

open StacksApi.Binary
open StacksApi.P2p
open StacksApi.Datastore
open StacksApi.Transition

variable {CV : Type} {libraries : Libraries CV}

/-! ## Conditions on transactions and events -/

/-- The conditions whose signers are made texts of. -/
def spendingConditions : TransactionAuth → List TransactionSpendingCondition
  | .standard originCondition => [originCondition]
  | .sponsored originCondition sponsorCondition => [originCondition, sponsorCondition]

/-- The addresses of a payload that become columns. -/
def payloadAddresses : TransactionPayload CV → List StacksAddress
  | .tokenTransfer recipient _ _ => [recipient.address]
  | .contractCall address _ _ _ _ => [address]
  | _ => []

/-- `c32address` has texts for all addresses of the transaction. -/
structure Addressed (addresses : AddressLibrary) (tx : Transaction CV) : Prop where
  signers : ∀ condition ∈ spendingConditions tx.auth,
    Succeeds (addresses.c32address
      (addresses.addressHashModeToVersion condition.hashMode tx.version)
      (hexDigits condition.signer))
  payload : ∀ address ∈ payloadAddresses tx.payload, Succeeds (addressText addresses address)

/-- The amount or the value of the event can be parsed. -/
def CoreNodeEvent.Parses : CoreNodeEvent → Prop
  | contractEvent _ _ _ rawValue | nftTransferEvent _ _ _ _ rawValue
  | nftMintEvent _ _ _ rawValue => Succeeds (hexToBuffer rawValue)
  | stxTransferEvent _ _ _ amount | stxMintEvent _ _ amount | stxBurnEvent _ _ amount
  | ftTransferEvent _ _ _ _ amount | ftMintEvent _ _ _ amount => Succeeds (bigIntOfText amount)
  | unknown _ _ => False

/-- The message lists encodings of the transactions, with known statuses, and its
events name listed transactions. -/
structure Lists (libraries : Libraries CV) (msg : CoreNodeMessage)
    (txs : List (Transaction CV)) : Prop where
  transactions : List.Forall₂ (fun coreTx tx => coreTx.Encodes libraries tx ∧ tx.WellFormed ∧
    Succeeds (getTxDbStatus coreTx.status)) msg.transactions txs
  events : ∀ event ∈ msg.events, ∃ coreTx ∈ msg.transactions, coreTx.txid = event.txid

/-- Transactions and events of the message can be read. -/
structure Readable (libraries : Libraries CV) (msg : CoreNodeMessage)
    (txs : List (Transaction CV)) : Prop where
  supported : ∀ tx ∈ txs, tx.payload.typeId ≠ .poisonMicroblock
  addressed : ∀ tx ∈ txs, Addressed libraries.addresses tx
  events : ∀ event ∈ msg.events, event.Parses

/-! ## Parsing a transaction -/

theorem auth_wellFormed_signer {auth : TransactionAuth} (valid : auth.WellFormed)
    {condition : TransactionSpendingCondition} (mem : condition ∈ spendingConditions auth) :
    condition.signer.length = 20 := by
  have signer : ∀ {condition : TransactionSpendingCondition}, condition.WellFormed →
      condition.signer.length = 20 := by
    intro condition valid
    cases condition with
    | singleSig condition => exact valid.signer
    | multiSig condition => exact valid.signer
  cases auth with
  | standard originCondition =>
      rw [List.mem_singleton.mp mem]
      exact signer valid
  | sponsored originCondition sponsorCondition =>
      rcases List.mem_pair.mp mem with rfl | rfl
      · exact signer valid.1
      · exact signer valid.2

theorem getAddressFromPublicKeyHash_eq {addresses : AddressLibrary} {publicKeyHash : Buffer}
    (length : publicKeyHash.length = 20) (hashMode : SigHashMode) (version : TransactionVersion) :
    getAddressFromPublicKeyHash addresses publicKeyHash hashMode version =
      addresses.c32address (addresses.addressHashModeToVersion hashMode version)
        (hexDigits publicKeyHash) := by
  rw [getAddressFromPublicKeyHash, if_neg (not_not.mpr length)]

/-- Sender and sponsor have texts exactly when all signers have. -/
theorem succeeds_signers_iff (addresses : AddressLibrary) (tx : Transaction CV)
    (valid : tx.auth.WellFormed) :
    Succeeds (getTxSenderAddress addresses tx) ∧ Succeeds (getTxSponsorAddress addresses tx) ↔
      ∀ condition ∈ spendingConditions tx.auth,
        Succeeds (addresses.c32address
          (addresses.addressHashModeToVersion condition.hashMode tx.version)
          (hexDigits condition.signer)) := by
  have length := fun condition => @auth_wellFormed_signer _ valid condition
  rw [getTxSenderAddress, getTxSponsorAddress]
  cases auth : tx.auth with
  | standard originCondition =>
      rw [auth] at length
      have origin := length originCondition (List.mem_singleton_self _)
      rw [spendingConditions, List.forall_mem_singleton, TransactionAuth.originCondition,
        getAddressFromPublicKeyHash_eq origin]
      exact and_iff_left (succeeds_ok none)
  | sponsored originCondition sponsorCondition =>
      rw [auth] at length
      have origin := length originCondition List.mem_cons_self
      have sponsor := length sponsorCondition (List.mem_cons_of_mem _ (List.mem_singleton_self _))
      rw [spendingConditions, List.forall_mem_cons, List.forall_mem_singleton,
        TransactionAuth.originCondition, succeeds_map_iff, getAddressFromPublicKeyHash_eq origin,
        getAddressFromPublicKeyHash_eq sponsor]

theorem succeeds_recipientText_iff {addresses : AddressLibrary} {recipient : RecipientPrincipal} :
    Succeeds (recipientText addresses recipient) ↔
      Succeeds (addressText addresses recipient.address) := by
  apply succeeds_bind_of_total
  intro address
  cases recipient with
  | standard _ => exact succeeds_ok _
  | contract _ contractName => exact succeeds_ok _

/-- The payload is looked at with success unless it is a poison microblock or its
address has no text. -/
theorem succeeds_checkPayload_iff (libraries : Libraries CV) (payload : TransactionPayload CV) :
    Succeeds (checkPayload libraries payload) ↔ payload.typeId ≠ .poisonMicroblock ∧
      ∀ address ∈ payloadAddresses payload, Succeeds (addressText libraries.addresses address) := by
  cases payload with
  | tokenTransfer recipient amount memo =>
      rw [checkPayload, succeeds_bind_of_total fun _ => succeeds_pure _, succeeds_recipientText_iff]
      simp [payloadAddresses, TransactionPayload.typeId]
  | contractCall address contractName functionName functionArgs rawFunctionArgs =>
      rw [checkPayload, succeeds_bind_of_total fun _ => succeeds_pure _]
      simp [payloadAddresses, TransactionPayload.typeId]
  | poisonMicroblock header1 header2 => simp [checkPayload, TransactionPayload.typeId]
  | smartContract name codeBody =>
      simp [checkPayload, payloadAddresses, TransactionPayload.typeId]
  | coinbase payload => simp [checkPayload, payloadAddresses, TransactionPayload.typeId]

@[simp]
theorem payloadAddresses_asRead (clarity : ClarityLibrary CV) (payload : TransactionPayload CV) :
    payloadAddresses (payload.asRead clarity) = payloadAddresses payload := by
  cases payload <;> rfl

@[simp]
theorem typeId_asRead (clarity : ClarityLibrary CV) (payload : TransactionPayload CV) :
    (payload.asRead clarity).typeId = payload.typeId := by
  cases payload <;> rfl

theorem addressed_asRead_iff (clarity : ClarityLibrary CV) {addresses : AddressLibrary}
    {tx : Transaction CV} : Addressed addresses (tx.asRead clarity) ↔ Addressed addresses tx := by
  constructor
  · rintro ⟨signers, payload⟩
    exact ⟨signers, payloadAddresses_asRead clarity tx.payload ▸ payload⟩
  · rintro ⟨signers, payload⟩
    exact ⟨signers, (payloadAddresses_asRead clarity tx.payload).symm ▸ payload⟩

theorem succeeds_parseMessageTransaction_iff (inverts : libraries.clarity.RoundTrips)
    {msg : CoreNodeMessage} {coreTx : CoreNodeTxMessage} {tx : Transaction CV}
    (encodes : coreTx.Encodes libraries tx) (valid : tx.WellFormed) :
    Succeeds (parseMessageTransaction libraries msg coreTx) ↔
      tx.payload.typeId ≠ .poisonMicroblock ∧ Addressed libraries.addresses tx := by
  have read : readBufferTransaction libraries coreTx.txBuffer =
      .ok (tx.asRead libraries.clarity) := by
    rw [encodes.txBuffer]
    exact readBufferTransaction_encode libraries inverts valid
  have signers := succeeds_signers_iff libraries.addresses (tx.asRead libraries.clarity) valid.auth
  have payload := succeeds_checkPayload_iff libraries (tx.payload.asRead libraries.clarity)
  rw [typeId_asRead] at payload
  rw [← addressed_asRead_iff libraries.clarity, parseMessageTransaction, read]
  constructor
  · intro ok
    obtain ⟨_, same, ok⟩ := succeeds_bind_iff.mp ok
    cases same
    obtain ⟨sender, senderOk, ok⟩ := succeeds_bind_iff.mp ok
    obtain ⟨sponsor, sponsorOk, ok⟩ := succeeds_bind_iff.mp ok
    obtain ⟨⟨⟩, checked, -⟩ := succeeds_bind_iff.mp ok
    obtain ⟨supported, addressed⟩ := payload.mp ⟨(), checked⟩
    exact ⟨supported, signers.mp ⟨⟨sender, senderOk⟩, sponsor, sponsorOk⟩, addressed⟩
  · rintro ⟨supported, addressed⟩
    obtain ⟨⟨sender, senderOk⟩, sponsor, sponsorOk⟩ := signers.mpr addressed.signers
    obtain ⟨⟨⟩, checked⟩ := payload.mpr ⟨supported, addressed.payload⟩
    refine succeeds_bind_iff.mpr ⟨_, rfl, ?_⟩
    refine succeeds_bind_iff.mpr ⟨sender, senderOk, ?_⟩
    refine succeeds_bind_iff.mpr ⟨sponsor, sponsorOk, ?_⟩
    exact succeeds_bind_iff.mpr ⟨(), checked, succeeds_ok _⟩

/-! ## Making an entry -/

/-- Payload columns can be filled when sender and payload addresses have texts. -/
theorem succeeds_extractTransactionPayload {addresses : AddressLibrary} {tx : Transaction CV}
    {columns : DbTxBase String} (sender : Succeeds (getTxSenderAddress addresses tx))
    (payload : ∀ address ∈ payloadAddresses tx.payload, Succeeds (addressText addresses address)) :
    Succeeds (extractTransactionPayload addresses tx columns) := by
  rw [extractTransactionPayload]
  cases kind : tx.payload with
  | tokenTransfer recipient amount memo =>
      rw [kind] at payload
      apply (succeeds_bind_of_total fun _ => succeeds_pure _).mpr
      exact succeeds_recipientText_iff.mpr (payload _ (List.mem_singleton_self _))
  | smartContract name codeBody =>
      exact (succeeds_bind_of_total fun _ => succeeds_pure _).mpr sender
  | contractCall address contractName functionName functionArgs rawFunctionArgs =>
      rw [kind] at payload
      apply (succeeds_bind_of_total fun _ => succeeds_pure _).mpr
      exact payload _ (List.mem_singleton_self _)
  | poisonMicroblock header1 header2 => exact succeeds_ok _
  | coinbase payload => exact succeeds_ok _

/-- An entry is made of every parsed transaction of known status. -/
theorem succeeds_createEntry {msg : CoreNodeMessage} {coreTx : CoreNodeTxMessage}
    {parsed : CoreNodeParsedTxMessage CV}
    (parsedOk : parseMessageTransaction libraries msg coreTx = .ok parsed)
    (known : Succeeds (getTxDbStatus coreTx.status)) (blockHeight : Nat) :
    Succeeds (createEntry libraries blockHeight parsed) := by
  obtain ⟨tx, -, parsedOk⟩ := Except.bind_eq_ok.mp parsedOk
  obtain ⟨sender, senderOk, parsedOk⟩ := Except.bind_eq_ok.mp parsedOk
  obtain ⟨sponsor, -, parsedOk⟩ := Except.bind_eq_ok.mp parsedOk
  obtain ⟨⟨⟩, checked, same⟩ := Except.bind_eq_ok.mp parsedOk
  cases same
  obtain ⟨status, statusOk⟩ := known
  apply (succeeds_bind_of_total fun _ => succeeds_pure _).mpr
  refine succeeds_bind_iff.mpr ⟨status, statusOk, ?_⟩
  apply (succeeds_bind_of_total fun _ => succeeds_pure _).mpr
  exact succeeds_extractTransactionPayload ⟨sender, senderOk⟩
    ((succeeds_checkPayload_iff libraries _).mp ⟨(), checked⟩).2

/-! ## Adding events -/

theorem succeeds_pushEvent_iff {blockHeight : Nat} {entry : TxEntry} {event : CoreNodeEvent} :
    Succeeds (pushEvent blockHeight entry event) ↔ event.Parses := by
  rw [pushEvent.eq_def]
  cases event with
  | unknown txid inspected => exact ⟨not_succeeds_error _, False.elim⟩
  | _ => exact succeeds_bind_of_total fun _ => succeeds_pure _

theorem map_tx_addEvent {blockHeight : Nat} {entries entries' : List TxEntry}
    {event : CoreNodeEvent} (added : addEvent blockHeight entries event = .ok entries') :
    entries'.map TxEntry.tx = entries.map TxEntry.tx := by
  induction entries generalizing entries' with
  | nil => cases added
  | cons entry entries ih =>
      rw [addEvent] at added
      split at added
      · obtain ⟨pushed, pushedOk, same⟩ := Except.bind_eq_ok.mp added
        cases same
        rw [List.map_cons, List.map_cons, (pushEvent_ok pushedOk).1]
      · obtain ⟨later, laterOk, same⟩ := Except.bind_eq_ok.mp added
        cases same
        rw [List.map_cons, List.map_cons, ih laterOk]

/-- An event is added when it can be parsed and its transaction is listed. -/
theorem succeeds_addEvent_iff {blockHeight : Nat} {entries : List TxEntry}
    {event : CoreNodeEvent} :
    Succeeds (addEvent blockHeight entries event) ↔
      (∃ tx ∈ entries.map TxEntry.tx, tx.txId = event.txid) ∧ event.Parses := by
  induction entries with
  | nil => simp [addEvent]
  | cons entry entries ih =>
      rw [addEvent, List.map_cons, List.exists_mem_cons_iff]
      split
      · next same =>
          rw [succeeds_bind_of_total fun _ => succeeds_pure _, succeeds_pushEvent_iff]
          exact (and_iff_right (Or.inl same)).symm
      · next other =>
          rw [succeeds_bind_of_total fun _ => succeeds_pure _, ih, or_iff_right other]

theorem succeeds_foldlM_addEvent_iff {blockHeight : Nat} {events : List CoreNodeEvent}
    {entries : List TxEntry}
    (listed : ∀ event ∈ events, ∃ tx ∈ entries.map TxEntry.tx, tx.txId = event.txid) :
    Succeeds (events.foldlM (addEvent blockHeight) entries) ↔ ∀ event ∈ events, event.Parses := by
  induction events generalizing entries with
  | nil => exact iff_of_true (succeeds_pure entries) (fun _ mem => nomatch mem)
  | cons event events ih =>
      obtain ⟨first, rest⟩ := List.forall_mem_cons.mp listed
      rw [List.foldlM_cons, List.forall_mem_cons]
      constructor
      · intro ok
        obtain ⟨next, added, ok⟩ := succeeds_bind_iff.mp ok
        have parses := (succeeds_addEvent_iff.mp ⟨next, added⟩).2
        exact ⟨parses, (ih (map_tx_addEvent added ▸ rest)).mp ok⟩
      · rintro ⟨parses, parseLater⟩
        have adds : Succeeds (addEvent blockHeight entries event) :=
          succeeds_addEvent_iff.mpr ⟨first, parses⟩
        obtain ⟨next, added⟩ := adds
        exact succeeds_bind_iff.mpr
          ⟨next, added, (ih (map_tx_addEvent added ▸ rest)).mpr parseLater⟩

/-! ## Messages -/

theorem Lists.forall_succeeds_parse_iff (inverts : libraries.clarity.RoundTrips)
    {msg : CoreNodeMessage} {txs : List (Transaction CV)} (lists : Lists libraries msg txs) :
    Succeeds (parseMessageTransactions libraries msg) ↔
      ∀ tx ∈ txs, tx.payload.typeId ≠ .poisonMicroblock ∧ Addressed libraries.addresses tx := by
  rw [parseMessageTransactions, succeeds_mapM_iff]
  obtain ⟨transactions, -⟩ := lists
  generalize msg.transactions = coreTxs at transactions ⊢
  induction transactions with
  | nil => simp
  | cons first _ ih =>
      rw [List.forall_mem_cons, List.forall_mem_cons, ih,
        succeeds_parseMessageTransaction_iff inverts first.1 first.2.1]

theorem Lists.known {msg : CoreNodeMessage} {txs : List (Transaction CV)}
    (lists : Lists libraries msg txs) {coreTx : CoreNodeTxMessage}
    (mem : coreTx ∈ msg.transactions) : Succeeds (getTxDbStatus coreTx.status) := by
  obtain ⟨tx, -, -, -, known⟩ := exists_left_of_forall₂ lists.transactions.flip mem
  exact known

theorem EntryOf.txId {msg : CoreNodeMessage} {coreTx : CoreNodeTxMessage} {entry : TxEntry}
    (entryOf : EntryOf libraries msg coreTx entry) : entry.tx.txId = coreTx.txid := by
  obtain ⟨tx, recordOf, -, -⟩ := entryOf
  obtain ⟨status, -, shared⟩ := recordOf.shared
  exact shared.txId

/-- The events name entries when these are made of the transactions. -/
theorem Lists.listed {msg : CoreNodeMessage} {txs : List (Transaction CV)}
    (lists : Lists libraries msg txs) {entries : List TxEntry}
    (handed : List.Forall₂ (Handed libraries msg) msg.transactions entries) :
    ∀ event ∈ msg.events, ∃ tx ∈ entries.map TxEntry.tx, tx.txId = event.txid := by
  intro event mem
  obtain ⟨coreTx, coreMem, same⟩ := lists.events event mem
  obtain ⟨entry, entryMem, entryOf, -⟩ := exists_left_of_forall₂ handed.flip coreMem
  exact ⟨entry.tx, List.mem_map_of_mem entryMem, entryOf.txId.trans same⟩

/-- The columns of the payload hold its fields. -/
def HoldsPayload (addresses : AddressLibrary) (tx : Transaction CV)
    (record : DbTxBase String) : Prop :=
  match tx.payload with
  | .tokenTransfer recipient amount memo =>
      ∃ text, recipientText addresses recipient = .ok text ∧
        record.tokenTransferRecipientAddress = some text ∧
        record.tokenTransferAmount = some amount ∧ record.tokenTransferMemo = some memo
  | .smartContract name codeBody =>
      record.smartContractContractId = some (record.senderAddress ++ "." ++ name) ∧
        record.smartContractSourceCode = some codeBody
  | .contractCall address contractName functionName _ rawFunctionArgs =>
      ∃ text, addressText addresses address = .ok text ∧
        record.contractCallContractId = some (text ++ "." ++ contractName) ∧
        record.contractCallFunctionName = some functionName ∧
        record.contractCallFunctionArgs = rawFunctionArgs
  | .poisonMicroblock microblockHeader1 microblockHeader2 =>
      record.poisonMicroblockHeader1 = some microblockHeader1 ∧
        record.poisonMicroblockHeader2 = some microblockHeader2
  | .coinbase payload => record.coinbasePayload = some payload

/-- The entry holds the fields parsed from the raw transaction. -/
def Holds (libraries : Libraries CV) (msg : CoreNodeMessage) (coreTx : CoreNodeTxMessage)
    (entry : TxEntry) : Prop :=
  ∃ tx, RecordOf libraries msg coreTx tx entry.tx ∧
    HoldsPayload libraries.addresses tx entry.tx.toDbTxBase ∧
    entry.smartContracts = deployed msg coreTx entry.tx.senderAddress tx.payload

/-- The message is parsed and handed to the store with one entry for each
transaction, in the order of the message. -/
def HandsOver (libraries : Libraries CV) (msg : CoreNodeMessage) : Prop :=
  Succeeds (parseMessageTransactions libraries msg) ∧
    ∃ data, messageData libraries msg = .ok data ∧ data.block = messageBlock msg ∧
      List.Forall₂ (Holds libraries msg) msg.transactions data.txs

theorem RecordOf.holdsPayload {msg : CoreNodeMessage} {coreTx : CoreNodeTxMessage}
    {tx : Transaction CV} {record : DbTx String}
    (recordOf : RecordOf libraries msg coreTx tx record) :
    HoldsPayload libraries.addresses tx record.toDbTxBase := by
  obtain ⟨status, -, extracted⟩ := recordOf.columns
  have sender := recordOf.sender
  rw [HoldsPayload]
  cases extracted_of_ok extracted with
  | tokenTransfer kind text same =>
      rw [kind, same]
      exact ⟨_, text, rfl, rfl, rfl⟩
  | smartContract kind text same =>
      rw [sender] at text
      cases text
      rw [kind, same]
      exact ⟨rfl, rfl⟩
  | contractCall kind text same =>
      rw [kind, same]
      exact ⟨_, text, by simp [toString], rfl, rfl⟩
  | poisonMicroblock kind same =>
      rw [kind, same]
      exact ⟨rfl, rfl⟩
  | coinbase kind same =>
      rw [kind, same]

theorem Lists.succeeds_messageData_iff (inverts : libraries.clarity.RoundTrips)
    {msg : CoreNodeMessage} {txs : List (Transaction CV)} (lists : Lists libraries msg txs) :
    Succeeds (messageData libraries msg) ↔ Readable libraries msg txs := by
  have parses := lists.forall_succeeds_parse_iff inverts
  constructor
  · intro ok
    obtain ⟨parsed, parsedOk, ok⟩ := succeeds_bind_iff.mp ok
    obtain ⟨entries, created, ok⟩ := succeeds_bind_iff.mp ok
    have listed := lists.listed (handed_of_mapM_createEntry parsedOk created)
    rw [succeeds_bind_of_total fun _ => succeeds_pure _, succeeds_foldlM_addEvent_iff listed] at ok
    have readable := parses.mp ⟨parsed, parsedOk⟩
    exact ⟨fun tx mem => (readable tx mem).1, fun tx mem => (readable tx mem).2, ok⟩
  · rintro ⟨supported, addressed, events⟩
    obtain ⟨parsed, parsedOk⟩ := parses.mpr fun tx mem => ⟨supported tx mem, addressed tx mem⟩
    have creates : Succeeds (parsed.mapM (createEntry libraries msg.blockHeight)) := by
      rw [succeeds_mapM_iff]
      intro parsedTx mem
      obtain ⟨coreTx, coreMem, parsedTxOk⟩ := mem_of_mapM_ok parsedOk mem
      exact succeeds_createEntry parsedTxOk (lists.known coreMem) msg.blockHeight
    obtain ⟨entries, created⟩ := creates
    have listed := lists.listed (handed_of_mapM_createEntry parsedOk created)
    refine succeeds_bind_iff.mpr ⟨parsed, parsedOk, ?_⟩
    refine succeeds_bind_iff.mpr ⟨entries, created, ?_⟩
    rw [succeeds_bind_of_total fun _ => succeeds_pure _, succeeds_foldlM_addEvent_iff listed]
    exact events

theorem Lists.handsOver_iff (inverts : libraries.clarity.RoundTrips)
    {msg : CoreNodeMessage} {txs : List (Transaction CV)} (lists : Lists libraries msg txs) :
    HandsOver libraries msg ↔ Readable libraries msg txs := by
  rw [← lists.succeeds_messageData_iff inverts]
  constructor
  · rintro ⟨-, data, handed, -⟩
    exact ⟨data, handed⟩
  · rintro ⟨data, handed⟩
    obtain ⟨parsed, parsedOk, -⟩ := Except.bind_eq_ok.mp handed
    obtain ⟨block, entries⟩ := messageData_ok handed
    refine ⟨⟨parsed, parsedOk⟩, data, handed, block, entries.imp ?_⟩
    rintro coreTx entry ⟨⟨tx, recordOf, -, contracts⟩, -⟩
    exact ⟨tx, recordOf, recordOf.holdsPayload, contracts⟩

end StacksApi.EventStream
