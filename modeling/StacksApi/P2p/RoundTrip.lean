import StacksApi.P2p.Wire

/-!
# Decoding undoes encoding

Every reader recognises the encoding of the value it returns, wherever that
encoding stands in a buffer.  The two amounts that go through the signed read
come back in two's complement, so the round trip of a whole transaction is
exact precisely when these amounts are below `2 ^ 63`.
-/

namespace StacksApi.P2p

open StacksApi.Binary

/-! ## Leaves -/

theorem decodes_enum {α : Type} [ByteEnum α] {invalid : Nat → ApiError} (member : α) :
    Decodes (readUInt8Enum α invalid) (encodeEnum member) member :=
  Decodes.readUInt8Enum member

theorem decodes_u64 {value : Int} (range : IsU64 value) :
    Decodes (readBigUInt64BE : ReadM ApiError Int) (encodeU64 value) value := by
  have reads : Decodes (readBigUInt64BE : ReadM ApiError Int) (encodeU64 value)
      (value.toNat : Int) :=
    Decodes.readBigUInt64BE (by have := range.1; have := range.2; omega)
  rwa [Int.toNat_of_nonneg range.1] at reads

/-- The value of a 64-bit field under the signed read. -/
def signedAmount (amount : Int) : Int :=
  toSigned 64 amount.toNat

theorem decodes_signed {amount : Int} (range : IsU64 amount) :
    Decodes (readBigInt64BE : ReadM ApiError Int) (encodeU64 amount) (signedAmount amount) :=
  Decodes.readBigInt64BE (by have := range.1; have := range.2; omega)

/-- The signed read keeps an unsigned amount exactly in the lower half of the range. -/
theorem signedAmount_eq_self_iff {amount : Int} (range : IsU64 amount) :
    signedAmount amount = amount ↔ amount < 2 ^ 63 := by
  have toNat : (amount.toNat : Int) = amount := Int.toNat_of_nonneg range.1
  have same : signedAmount amount = amount.toNat ↔ amount.toNat < 2 ^ 63 := toSigned_eq_self_iff
  rw [toNat] at same
  exact same.trans (by omega)

theorem decodes_bytes {bytes : Buffer} {length : Nat} (sized : bytes.length = length) :
    Decodes (readBuffer length : ReadM ApiError Buffer) bytes bytes := by
  subst length
  exact Decodes.readBuffer bytes

theorem decodes_contractName {name : String} (valid : IsName name) :
    Decodes readContractName (encodeName name) name :=
  (Decodes.readUInt8 valid.short).bind (Decodes.readString valid.ascii)

theorem decodes_clarityName {name : String} (valid : IsName name) :
    Decodes readClarityName (encodeName name) name :=
  (Decodes.readUInt8 valid.short).bind (Decodes.readString valid.ascii)

theorem decodes_codeBody {codeBody : String} (valid : IsCodeBody codeBody) :
    Decodes readLongString (encodeCodeBody codeBody) codeBody :=
  (Decodes.readUInt32BE valid.short).bind (Decodes.readString valid.ascii)

theorem decodes_stacksAddress {address : StacksAddress} (valid : address.WellFormed) :
    Decodes readStacksAddress (encodeStacksAddress address) address :=
  (Decodes.readUInt8 valid.version).bind
    ((decodes_bytes valid.bytes).map (StacksAddress.mk address.version))

theorem decodes_assetInfo {asset : AssetInfo} (valid : asset.WellFormed) :
    Decodes readAssetInfo (encodeAssetInfo asset) asset :=
  (decodes_stacksAddress valid.contractAddress).bind
    ((decodes_contractName valid.contractName).bind
      ((decodes_clarityName valid.assetName).map
        (AssetInfo.mk asset.contractAddress asset.contractName)))

/-! ## Spending conditions -/

theorem decodes_authField {field : TransactionAuthField} (valid : field.WellFormed) :
    Decodes readTransactionAuthField (encodeAuthField field) field := by
  refine (decodes_enum field.typeId).bind ?_
  cases field with
  | publicKey encoding key =>
      cases encoding
      · exact (decodes_bytes valid).map (TransactionAuthField.publicKey .compressed)
      · exact (decodes_bytes valid).map (TransactionAuthField.publicKey .uncompressed)
  | signature encoding bytes =>
      cases encoding
      · exact (decodes_bytes valid).map (TransactionAuthField.signature .compressed)
      · exact (decodes_bytes valid).map (TransactionAuthField.signature .uncompressed)

theorem decodes_singleSig {condition : TransactionSpendingConditionSingleSig}
    (valid : condition.WellFormed) :
    Decodes (readSingleSig condition.hashMode)
      (condition.signer ++ (encodeU64 condition.nonce ++ (encodeU64 condition.feeRate ++
        (bigEndian 1 condition.keyEncoding ++ condition.signature))))
      (.singleSig condition) := by
  refine (decodes_bytes valid.signer).bind ?_
  refine (decodes_u64 valid.nonce).bind ?_
  refine (decodes_u64 valid.feeRate).bind ?_
  refine (Decodes.readUInt8 valid.keyEncoding).bind ?_
  exact (decodes_bytes valid.signature).map fun signature =>
    TransactionSpendingCondition.singleSig { condition with signature }

theorem decodes_multiSig {condition : TransactionSpendingConditionMultiSig}
    (valid : condition.WellFormed) :
    Decodes (readMultiSig condition.hashMode)
      (condition.signer ++ (encodeU64 condition.nonce ++ (encodeU64 condition.feeRate ++
        (bigEndian 4 condition.authFields.length ++
          (condition.authFields.flatMap encodeAuthField ++
            bigEndian 2 condition.signatureCount)))))
      (.multiSig condition) := by
  have fields : Decodes (readMany readTransactionAuthField condition.authFields.length)
      (condition.authFields.flatMap encodeAuthField) condition.authFields := by
    have read : Decodes (readMany readTransactionAuthField condition.authFields.length)
        (condition.authFields.flatMap encodeAuthField) (condition.authFields.map id) :=
      Decodes.readMany fun field mem => decodes_authField (valid.authFields field mem)
    rwa [List.map_id] at read
  refine (decodes_bytes valid.signer).bind ?_
  refine (decodes_u64 valid.nonce).bind ?_
  refine (decodes_u64 valid.feeRate).bind ?_
  refine (Decodes.readUInt32BE valid.fieldCount).bind ?_
  refine fields.bind ?_
  exact (Decodes.readUInt16BE valid.signatureCount).map fun signatureCount =>
    TransactionSpendingCondition.multiSig { condition with signatureCount }

theorem decodes_spendingCondition {condition : TransactionSpendingCondition}
    (valid : condition.WellFormed) :
    Decodes readTransactionSpendingCondition (encodeSpendingCondition condition) condition := by
  refine (decodes_enum condition.hashMode).bind ?_
  cases condition with
  | singleSig condition =>
      have read := decodes_singleSig valid
      rcases condition with ⟨hashMode, signer, nonce, feeRate, keyEncoding, signature⟩
      cases hashMode <;> exact read
  | multiSig condition =>
      have read := decodes_multiSig valid
      rcases condition with ⟨hashMode, signer, nonce, feeRate, authFields, signatureCount⟩
      cases hashMode <;> exact read

theorem decodes_auth {auth : TransactionAuth} (valid : auth.WellFormed) :
    Decodes readTransactionAuth (encodeAuth auth) auth := by
  refine (decodes_enum auth.typeId).bind ?_
  cases auth with
  | standard origin => exact (decodes_spendingCondition valid).map TransactionAuth.standard
  | sponsored origin sponsor =>
      exact (decodes_spendingCondition valid.1).bind
        ((decodes_spendingCondition valid.2).map (TransactionAuth.sponsored origin))

/-! ## Principals -/

theorem decodes_principal {principal : PostConditionPrincipal} (valid : principal.WellFormed) :
    Decodes readTransactionPostConditionPrincipal (encodePostConditionPrincipal principal)
      principal := by
  refine (decodes_enum principal.typeId).bind ?_
  cases principal with
  | origin => exact Decodes.pure PostConditionPrincipal.origin
  | standard address => exact (decodes_stacksAddress valid).map PostConditionPrincipal.standard
  | contract address contractName =>
      exact (decodes_stacksAddress valid.1).bind
        ((decodes_contractName valid.2).map (PostConditionPrincipal.contract address))

theorem decodes_recipient {recipient : RecipientPrincipal} (valid : recipient.WellFormed) :
    Decodes readRecipientPrincipal (encodeRecipientPrincipal recipient) recipient := by
  cases recipient with
  | standard address =>
      exact (Decodes.readUInt8 (show 0x05 < 256 by decide)).bind
        ((decodes_stacksAddress valid).map RecipientPrincipal.standard)
  | contract address contractName =>
      exact (Decodes.readUInt8 (show 0x06 < 256 by decide)).bind
        ((decodes_stacksAddress valid.1).bind
          ((decodes_contractName valid.2).map (RecipientPrincipal.contract address)))

/-! ## What the readers return -/

variable {CV : Type} (clarity : ClarityLibrary CV)

/-- A post-condition with the amount that its reader returns. -/
def TransactionPostCondition.asRead : TransactionPostCondition CV → TransactionPostCondition CV
  | stx principal conditionCode amount => stx principal conditionCode (signedAmount amount)
  | condition => condition

/-- A payload with the amount and the raw argument bytes that its reader returns. -/
def TransactionPayload.asRead (payload : TransactionPayload CV) : TransactionPayload CV :=
  match payload.withRawBytes clarity with
  | tokenTransfer recipient amount memo => tokenTransfer recipient (signedAmount amount) memo
  | payload => payload

/-- What is read of the bytes of a transaction. -/
def Transaction.asRead (tx : Transaction CV) : Transaction CV :=
  { tx.withRawBytes clarity with
    postConditions := tx.postConditions.map TransactionPostCondition.asRead
    payload := tx.payload.asRead clarity }

variable {clarity}

theorem decodes_postCondition (inverts : clarity.RoundTrips)
    {condition : TransactionPostCondition CV} (valid : condition.WellFormed) :
    Decodes (readTransactionPostCondition clarity) (encodePostCondition clarity condition)
      condition.asRead := by
  refine (decodes_enum condition.assetInfoId).bind ?_
  cases condition with
  | stx principal conditionCode amount =>
      exact (decodes_principal valid.1).bind ((decodes_enum conditionCode).bind
        ((decodes_signed valid.2).map (TransactionPostCondition.stx principal conditionCode)))
  | fungible principal asset conditionCode amount =>
      exact (decodes_principal valid.1).bind ((decodes_assetInfo valid.2.1).bind
        ((decodes_enum conditionCode).bind ((decodes_u64 valid.2.2).map
          (TransactionPostCondition.fungible principal asset conditionCode))))
  | nonfungible principal asset assetValue conditionCode =>
      exact (decodes_principal valid.1).bind ((decodes_assetInfo valid.2).bind
        ((inverts assetValue).withRemaining.bind ((decodes_enum conditionCode).map
          (TransactionPostCondition.nonfungible principal asset assetValue))))

theorem decodes_postConditions (inverts : clarity.RoundTrips)
    {conditions : List (TransactionPostCondition CV)} (count : conditions.length < 2 ^ 32)
    (valid : ∀ condition ∈ conditions, condition.WellFormed) :
    Decodes (readTransactionPostConditions clarity) (encodePostConditions clarity conditions)
      (conditions.map TransactionPostCondition.asRead) :=
  (Decodes.readUInt32BE count).bind
    (Decodes.readMany fun condition mem => decodes_postCondition inverts (valid condition mem))

theorem decodes_functionArgs (inverts : clarity.RoundTrips) {functionArgs : List CV}
    (count : functionArgs.length < 2 ^ 32) :
    Decodes (readClarityValueArray clarity) (encodeFunctionArgs clarity functionArgs)
      functionArgs := by
  have read : Decodes (readMany clarity.deserializeCV functionArgs.length)
      (functionArgs.flatMap clarity.serializeCV) (functionArgs.map id) :=
    Decodes.readMany fun value _ => inverts value
  rw [List.map_id] at read
  exact (Decodes.readUInt32BE count).bind read.withRemaining

theorem decodes_payload (inverts : clarity.RoundTrips) {payload : TransactionPayload CV}
    (valid : payload.WellFormed) :
    Decodes (readTransactionPayload clarity) (encodePayload clarity payload)
      (payload.asRead clarity) := by
  refine (decodes_enum payload.typeId).bind ?_
  cases payload with
  | tokenTransfer recipient amount memo =>
      exact (decodes_recipient valid.1).bind ((decodes_signed valid.2.1).bind
        ((decodes_bytes valid.2.2).map
          (TransactionPayload.tokenTransfer recipient (signedAmount amount))))
  | smartContract name codeBody =>
      exact (decodes_contractName valid.1).bind
        ((decodes_codeBody valid.2).map (TransactionPayload.smartContract name))
  | contractCall address contractName functionName functionArgs rawFunctionArgs =>
      have args := (decodes_functionArgs inverts valid.2.2.2).capture
      exact (decodes_stacksAddress valid.1).bind ((decodes_contractName valid.2.1).bind
        ((decodes_clarityName valid.2.2.1).bind (args.map fun read =>
          TransactionPayload.contractCall address contractName functionName read.1
            (if read.1.length > 0 then some read.2 else none))))
  | poisonMicroblock header1 header2 =>
      exact (decodes_bytes valid.1).bind
        ((decodes_bytes valid.2).map (TransactionPayload.poisonMicroblock header1))
  | coinbase payload => exact (decodes_bytes valid).map TransactionPayload.coinbase

theorem decodes_postConditionSection (inverts : clarity.RoundTrips) {tx : Transaction CV}
    (valid : tx.WellFormed) :
    Decodes (readPostConditionSection clarity) (encodePostConditionSection clarity tx)
      (tx.postConditionMode, tx.postConditions.map TransactionPostCondition.asRead) :=
  (decodes_enum tx.postConditionMode).bind
    ((decodes_postConditions inverts valid.conditionCount valid.postConditions).map
      (Prod.mk tx.postConditionMode))

/-- Reading the encoding of any well-formed transaction. -/
theorem decodes_transaction (inverts : clarity.RoundTrips) {tx : Transaction CV}
    (valid : tx.WellFormed) :
    Decodes (readTransaction clarity) (encodeTransaction clarity tx) (tx.asRead clarity) := by
  refine (decodes_enum tx.version).bind ?_
  refine (Decodes.readUInt32BE valid.chainId).bind ?_
  refine (decodes_auth valid.auth).bind ?_
  refine (decodes_enum tx.anchorMode).bind ?_
  refine (decodes_postConditionSection inverts valid).capture.bind ?_
  exact (decodes_payload inverts valid.payload).map fun payload =>
    { tx.asRead clarity with payload }

/-! ## The exact round trip -/

/-- The amount of an STX post-condition is below `2 ^ 63`. -/
def TransactionPostCondition.AmountSigned : TransactionPostCondition CV → Prop
  | stx _ _ amount => amount < 2 ^ 63
  | _ => True

/-- The amount of a token transfer is below `2 ^ 63`. -/
def TransactionPayload.AmountSigned : TransactionPayload CV → Prop
  | tokenTransfer _ amount _ => amount < 2 ^ 63
  | _ => True

/-- Every amount that goes through the signed read is below `2 ^ 63`. -/
def Transaction.AmountsSigned (tx : Transaction CV) : Prop :=
  tx.payload.AmountSigned ∧ ∀ condition ∈ tx.postConditions, condition.AmountSigned

theorem TransactionPostCondition.asRead_eq_self_iff {condition : TransactionPostCondition CV}
    (valid : condition.WellFormed) : condition.asRead = condition ↔ condition.AmountSigned := by
  cases condition with
  | stx principal conditionCode amount =>
      simpa [asRead, AmountSigned] using signedAmount_eq_self_iff valid.2
  | fungible principal asset conditionCode amount => simp [asRead, AmountSigned]
  | nonfungible principal asset assetValue conditionCode => simp [asRead, AmountSigned]

theorem TransactionPayload.asRead_eq_withRawBytes_iff {payload : TransactionPayload CV}
    (valid : payload.WellFormed) :
    payload.asRead clarity = payload.withRawBytes clarity ↔ payload.AmountSigned := by
  cases payload with
  | tokenTransfer recipient amount memo =>
      simpa [asRead, withRawBytes, AmountSigned] using signedAmount_eq_self_iff valid.2.1
  | _ => simp [asRead, withRawBytes, AmountSigned]

theorem Transaction.asRead_eq_withRawBytes_iff {tx : Transaction CV} (valid : tx.WellFormed) :
    tx.asRead clarity = tx.withRawBytes clarity ↔ tx.AmountsSigned := by
  have payload : tx.payload.asRead clarity = tx.payload.withRawBytes clarity ↔
      tx.payload.AmountSigned :=
    TransactionPayload.asRead_eq_withRawBytes_iff valid.payload
  have conditions : tx.postConditions.map TransactionPostCondition.asRead = tx.postConditions ↔
      ∀ condition ∈ tx.postConditions, condition.AmountSigned := by
    have pointwise : tx.postConditions.map TransactionPostCondition.asRead =
          tx.postConditions.map id ↔
        ∀ condition ∈ tx.postConditions, condition.asRead = condition := List.map_inj_left
    rw [List.map_id] at pointwise
    exact pointwise.trans (forall₂_congr fun condition mem =>
      TransactionPostCondition.asRead_eq_self_iff (valid.postConditions condition mem))
  rw [AmountsSigned, ← payload, ← conditions]
  constructor
  · intro same
    exact ⟨congrArg Transaction.payload same, congrArg Transaction.postConditions same⟩
  · rintro ⟨samePayload, sameConditions⟩
    simp only [asRead, samePayload, sameConditions]
    rfl

/-- Anywhere in a buffer, `readTransaction` returns the transaction that was
encoded and advances by the length of its encoding if and only if the token and
STX post-condition amounts are below `2 ^ 63`. -/
theorem readTransaction_encodeTransaction_iff (inverts : clarity.RoundTrips)
    {tx : Transaction CV} (valid : tx.WellFormed) (before suffix : Buffer) :
    (readTransaction clarity).run
        ⟨before ++ encodeTransaction clarity tx ++ suffix, before.length⟩ =
      .ok (tx.withRawBytes clarity,
        ⟨before ++ encodeTransaction clarity tx ++ suffix,
          before.length + (encodeTransaction clarity tx).length⟩) ↔
      tx.AmountsSigned := by
  rw [decodes_transaction inverts valid before suffix, ← tx.asRead_eq_withRawBytes_iff valid]
  constructor
  · intro same
    exact congrArg Prod.fst (Except.ok.inj same)
  · intro same
    rw [same]

/-- A token transfer of `amount` to an address of version 26. -/
def sampleTransfer (amount : Int) : Transaction Bool where
  version := .testnet
  chainId := 0x80000000
  auth := .standard (.singleSig
    { hashMode := .p2pkh, signer := List.replicate 20 0, nonce := 0, feeRate := 180,
      keyEncoding := 0, signature := List.replicate 65 0 })
  anchorMode := .any
  postConditionMode := .deny
  postConditions := []
  rawPostConditions := []
  payload := .tokenTransfer (.standard { version := 26, bytes := List.replicate 20 0 }) amount
    (List.replicate 34 0)

theorem sampleTransfer_wellFormed {amount : Int} (range : IsU64 amount) :
    (sampleTransfer amount).WellFormed where
  chainId := show 0x80000000 < 2 ^ 32 by decide
  auth := ⟨List.length_replicate, ⟨by decide, by decide⟩, ⟨by decide, by decide⟩, by decide,
    List.length_replicate⟩
  conditionCount := show 0 < 2 ^ 32 by decide
  postConditions _ mem := nomatch mem
  payload := ⟨⟨by decide, List.length_replicate⟩, range, List.length_replicate⟩

/-- The round trip at a transfer of one micro-STX between stray bytes. -/
theorem readTransaction_sampleTransfer :
    ∃ before suffix : Buffer,
      (readTransaction ClarityLibrary.booleans).run
          ⟨before ++ encodeTransaction ClarityLibrary.booleans (sampleTransfer 1) ++ suffix,
            before.length⟩ =
        .ok ((sampleTransfer 1).withRawBytes ClarityLibrary.booleans,
          ⟨before ++ encodeTransaction ClarityLibrary.booleans (sampleTransfer 1) ++ suffix,
            before.length +
              (encodeTransaction ClarityLibrary.booleans (sampleTransfer 1)).length⟩) :=
  ⟨[0xff], [0x2a],
    (readTransaction_encodeTransaction_iff ClarityLibrary.booleans_roundTrips
      (sampleTransfer_wellFormed ⟨by decide, by decide⟩) [0xff] [0x2a]).mpr
        ⟨show (1 : Int) < 2 ^ 63 by decide, fun _ mem => nomatch mem⟩⟩

/-- A transfer of `2 ^ 63` micro-STX is well formed, and its encoding is read
back as a transfer of `-2 ^ 63`. -/
theorem readTransaction_largeTransfer :
    (sampleTransfer (2 ^ 63)).WellFormed ∧ ClarityLibrary.booleans.RoundTrips ∧
      ((readTransaction ClarityLibrary.booleans).run
          (BufferReader.fromBuffer
            (encodeTransaction ClarityLibrary.booleans (sampleTransfer (2 ^ 63))))).map
        (fun result => result.1) =
        .ok ((sampleTransfer (-2 ^ 63)).withRawBytes ClarityLibrary.booleans) ∧
      sampleTransfer (-2 ^ 63) ≠ sampleTransfer (2 ^ 63) := by
  have valid : (sampleTransfer (2 ^ 63)).WellFormed :=
    sampleTransfer_wellFormed ⟨by decide, by decide⟩
  refine ⟨valid, ClarityLibrary.booleans_roundTrips, ?_, by decide⟩
  rw [(decodes_transaction ClarityLibrary.booleans_roundTrips valid).run_fromBuffer]
  have reread : (sampleTransfer (2 ^ 63)).asRead ClarityLibrary.booleans =
      (sampleTransfer (-2 ^ 63)).withRawBytes ClarityLibrary.booleans := by
    rfl
  rw [← reread]
  rfl

end StacksApi.P2p
