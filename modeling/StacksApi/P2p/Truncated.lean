import StacksApi.Binary.Truncated
import StacksApi.P2p.RoundTrip

/-!
# Truncated transactions

What `readTransaction` does on a proper prefix of an encoding.  A slice that is
cut short is noticed by the read after it, so that only the last field of a
payload can be read short: the memo of a token transfer, a code body, the headers
of a poison microblock and the payload of a coinbase.
-/

namespace StacksApi.P2p

open StacksApi.Binary

/-! ## Leaves -/

section Leaves

theorem refuses_enum {α : Type} [ByteEnum α] {invalid : Nat → ApiError} (member : α) :
    Refuses (readUInt8Enum α invalid) (encodeEnum member) :=
  Refuses.readUInt8Enum invalid (length_bigEndian 1 _)

theorem starves_enum {α : Type} [ByteEnum α] {invalid : Nat → ApiError} :
    Starves (readUInt8Enum α invalid) :=
  Starves.readUInt8Enum invalid

theorem refuses_u64 (value : Int) :
    Refuses (readBigUInt64BE : ReadM ApiError Int) (encodeU64 value) :=
  (Refuses.readUInt 8 (length_bigEndian 8 _)).map _

theorem refuses_signed (value : Int) :
    Refuses (readBigInt64BE : ReadM ApiError Int) (encodeU64 value) :=
  (Refuses.readUInt 8 (length_bigEndian 8 _)).map _

theorem starves_u64 : Starves (readBigUInt64BE : ReadM ApiError Int) :=
  (Starves.readUInt (by decide)).bind

theorem starves_signed : Starves (readBigInt64BE : ReadM ApiError Int) :=
  (Starves.readUInt (by decide)).bind

theorem refuses_uint8 (value : Nat) :
    Refuses (readUInt8 : ReadM ApiError Nat) (bigEndian 1 value) :=
  Refuses.readUInt 1 (length_bigEndian 1 value)

theorem starves_uint8 : Starves (readUInt8 : ReadM ApiError Nat) :=
  Starves.readUInt (by decide)

theorem refuses_uint16 (value : Nat) :
    Refuses (readUInt16BE : ReadM ApiError Nat) (bigEndian 2 value) :=
  Refuses.readUInt 2 (length_bigEndian 2 value)

theorem refuses_uint32 (value : Nat) :
    Refuses (readUInt32BE : ReadM ApiError Nat) (bigEndian 4 value) :=
  Refuses.readUInt 4 (length_bigEndian 4 value)

theorem starves_uint32 : Starves (readUInt32BE : ReadM ApiError Nat) :=
  Starves.readUInt (by decide)

theorem drains_contractName {name : String} (valid : IsName name) :
    Drains readContractName (encodeName name) :=
  (refuses_uint8 _).drains.bind (Decodes.readUInt8 valid.short)
    (fun length => Rests.readString length)
    (Drains.readString rfl)

theorem starves_contractName : Starves readContractName :=
  starves_uint8.bind

theorem drains_clarityName {name : String} (valid : IsName name) :
    Drains readClarityName (encodeName name) :=
  drains_contractName valid

theorem starves_clarityName : Starves readClarityName :=
  starves_uint8.bind

theorem drains_stacksAddress {address : StacksAddress} (valid : address.WellFormed) :
    Drains readStacksAddress (encodeStacksAddress address) :=
  (refuses_uint8 _).drains.bind (Decodes.readUInt8 valid.version)
    (fun _ => (Rests.readBuffer 20).map _) ((Drains.readBuffer valid.bytes).map _)

theorem drains_assetInfo {asset : AssetInfo} (valid : asset.WellFormed) :
    Drains readAssetInfo (encodeAssetInfo asset) := by
  apply (drains_stacksAddress valid.contractAddress).bind
    (decodes_stacksAddress valid.contractAddress)
  · exact fun _ => starves_contractName.bind.rests
  · apply (drains_contractName valid.contractName).bind (decodes_contractName valid.contractName)
    · exact fun _ => starves_clarityName.bind.rests
    · exact (drains_clarityName valid.assetName).map _

end Leaves

/-! ## Spending conditions -/

theorem drains_authField {field : TransactionAuthField} (valid : field.WellFormed) :
    Drains readTransactionAuthField (encodeAuthField field) := by
  apply (refuses_enum field.typeId).drains.bind (decodes_enum field.typeId)
  · intro typeId
    cases typeId <;> exact (Rests.readBuffer _).map _
  · cases field with
    | publicKey encoding key =>
        cases encoding <;> exact (Drains.readBuffer valid).map _
    | signature encoding bytes =>
        cases encoding <;> exact (Drains.readBuffer valid).map _

theorem drains_singleSig {condition : TransactionSpendingConditionSingleSig}
    (valid : condition.WellFormed) :
    Drains (readSingleSig condition.hashMode)
      (condition.signer ++ (encodeU64 condition.nonce ++ (encodeU64 condition.feeRate ++
        (bigEndian 1 condition.keyEncoding ++ condition.signature)))) := by
  apply (Drains.readBuffer valid.signer).bind (decodes_bytes valid.signer)
  · exact fun _ => starves_u64.bind.rests
  apply (refuses_u64 condition.nonce).drains.bind (decodes_u64 valid.nonce)
  · exact fun _ => starves_u64.bind.rests
  apply (refuses_u64 condition.feeRate).drains.bind (decodes_u64 valid.feeRate)
  · exact fun _ => starves_uint8.bind.rests
  apply (refuses_uint8 condition.keyEncoding).drains.bind (Decodes.readUInt8 valid.keyEncoding)
  · exact fun _ => (Rests.readBuffer 65).map _
  · exact (Drains.readBuffer valid.signature).map _

theorem decodes_authFields {fields : List TransactionAuthField}
    (valid : ∀ field ∈ fields, field.WellFormed) :
    Decodes (readMany readTransactionAuthField fields.length) (fields.flatMap encodeAuthField)
      (fields.map id) :=
  Decodes.readMany fun field mem => decodes_authField (valid field mem)

theorem refuses_multiSig {condition : TransactionSpendingConditionMultiSig}
    (valid : condition.WellFormed) :
    Refuses (readMultiSig condition.hashMode)
      (condition.signer ++ (encodeU64 condition.nonce ++ (encodeU64 condition.feeRate ++
        (bigEndian 4 condition.authFields.length ++
          (condition.authFields.flatMap encodeAuthField ++
            bigEndian 2 condition.signatureCount))))) := by
  apply (Drains.readBuffer valid.signer).bind_starves (decodes_bytes valid.signer)
  · exact fun _ => starves_u64.bind
  apply (refuses_u64 condition.nonce).bind (decodes_u64 valid.nonce)
  apply (refuses_u64 condition.feeRate).bind (decodes_u64 valid.feeRate)
  apply (refuses_uint32 condition.authFields.length).bind (Decodes.readUInt32BE valid.fieldCount)
  apply Drains.bind_starves (decodes_authFields valid.authFields)
  · exact Drains.readMany (fun field mem => decodes_authField (valid.authFields field mem))
      (fun field mem => drains_authField (valid.authFields field mem)) starves_enum.bind.rests
  · exact fun _ => (Starves.readUInt (by decide)).bind
  · exact (refuses_uint16 condition.signatureCount).map _

theorem drains_spendingCondition {condition : TransactionSpendingCondition}
    (valid : condition.WellFormed) :
    Drains readTransactionSpendingCondition (encodeSpendingCondition condition) := by
  have afterSigner : ∀ {next : Buffer → ReadM ApiError TransactionSpendingCondition},
      (∀ signer, Starves (next signer)) → Rests (readBuffer 20 >>= next) :=
    fun starves => (Rests.readBuffer 20).bind fun signer => (starves signer).rests
  apply (refuses_enum condition.hashMode).drains.bind (decodes_enum condition.hashMode)
  · intro hashMode
    cases hashMode <;> exact afterSigner fun _ => starves_u64.bind
  · cases condition with
    | singleSig condition =>
        have drains := drains_singleSig valid
        obtain ⟨hashMode, signer, nonce, feeRate, keyEncoding, signature⟩ := condition
        cases hashMode <;> exact drains
    | multiSig condition =>
        have drains := (refuses_multiSig valid).drains
        obtain ⟨hashMode, signer, nonce, feeRate, authFields, signatureCount⟩ := condition
        cases hashMode <;> exact drains

theorem drains_auth {auth : TransactionAuth} (valid : auth.WellFormed) :
    Drains readTransactionAuth (encodeAuth auth) := by
  apply (refuses_enum auth.typeId).drains.bind (decodes_enum auth.typeId)
  · intro authType
    cases authType <;> exact starves_enum.bind.bind.rests
  · cases auth with
    | standard origin => exact (drains_spendingCondition valid).map _
    | sponsored origin sponsor =>
        apply (drains_spendingCondition valid.1).bind (decodes_spendingCondition valid.1)
        · exact fun _ => starves_enum.bind.bind.rests
        · exact (drains_spendingCondition valid.2).map _

/-! ## Principals -/

theorem drains_principal {principal : PostConditionPrincipal} (valid : principal.WellFormed) :
    Drains readTransactionPostConditionPrincipal (encodePostConditionPrincipal principal) := by
  apply (refuses_enum principal.typeId).drains.bind (decodes_enum principal.typeId)
  · intro typeId
    cases typeId with
    | origin => exact Rests.pure _
    | standard => exact starves_uint8.bind.bind.rests
    | contract => exact starves_uint8.bind.bind.rests
  · cases principal with
    | origin => exact (Refuses.nil _).drains
    | standard address => exact (drains_stacksAddress valid).map _
    | contract address contractName =>
        apply (drains_stacksAddress valid.1).bind (decodes_stacksAddress valid.1)
        · exact fun _ => starves_contractName.bind.rests
        · exact (drains_contractName valid.2).map _

theorem drains_recipient {recipient : RecipientPrincipal} (valid : recipient.WellFormed) :
    Drains readRecipientPrincipal (encodeRecipientPrincipal recipient) := by
  have small : recipient.typeId < 256 := by cases recipient <;> simp [RecipientPrincipal.typeId]
  apply (refuses_uint8 recipient.typeId).drains.bind (Decodes.readUInt8 small)
  · intro typeId
    split
    · exact starves_uint8.bind.bind.rests
    split
    · exact starves_uint8.bind.bind.rests
    · rintro buffer value final ⟨⟩
  · cases recipient with
    | standard address => exact (drains_stacksAddress valid).map _
    | contract address contractName =>
        apply (drains_stacksAddress valid.1).bind (decodes_stacksAddress valid.1)
        · exact fun _ => starves_contractName.bind.rests
        · exact (drains_contractName valid.2).map _

/-! ## Post-conditions -/

variable {CV : Type} {clarity : ClarityLibrary CV}

/-- `deserializeCV` throws on every proper prefix of the bytes of a value. -/
def RefusesTruncated (clarity : ClarityLibrary CV) : Prop :=
  ∀ value, Refuses clarity.deserializeCV (clarity.serializeCV value)

theorem refuses_postCondition (inverts : clarity.RoundTrips)
    (truncated : RefusesTruncated clarity) {condition : TransactionPostCondition CV}
    (valid : condition.WellFormed) :
    Refuses (readTransactionPostCondition clarity) (encodePostCondition clarity condition) := by
  apply (refuses_enum condition.assetInfoId).bind (decodes_enum condition.assetInfoId)
  cases condition with
  | stx principal conditionCode amount =>
      apply (drains_principal valid.1).bind_starves (decodes_principal valid.1)
      · exact fun _ => starves_enum.bind
      apply (refuses_enum conditionCode).bind (decodes_enum conditionCode)
      exact (refuses_signed amount).map _
  | fungible principal asset conditionCode amount =>
      apply (drains_principal valid.1).bind_starves (decodes_principal valid.1)
      · exact fun _ => starves_uint8.bind.bind.bind
      apply (drains_assetInfo valid.2.1).bind_starves (decodes_assetInfo valid.2.1)
      · exact fun _ => starves_enum.bind
      apply (refuses_enum conditionCode).bind (decodes_enum conditionCode)
      exact (refuses_u64 amount).map _
  | nonfungible principal asset assetValue conditionCode =>
      apply (drains_principal valid.1).bind_starves (decodes_principal valid.1)
      · exact fun _ => starves_uint8.bind.bind.bind
      apply (drains_assetInfo valid.2).bind_starves (decodes_assetInfo valid.2)
      · exact fun _ => (Rests.withRemaining _).bind_starves fun _ => starves_enum.bind
      apply (truncated assetValue).withRemaining.bind (inverts assetValue).withRemaining
      exact (refuses_enum conditionCode).map _

theorem refuses_postConditionSection (inverts : clarity.RoundTrips)
    (truncated : RefusesTruncated clarity) {tx : Transaction CV} (valid : tx.WellFormed) :
    Refuses (readPostConditionSection clarity) (encodePostConditionSection clarity tx) := by
  apply (refuses_enum tx.postConditionMode).bind (decodes_enum tx.postConditionMode)
  apply Refuses.map
  apply (refuses_uint32 _).bind (Decodes.readUInt32BE valid.conditionCount)
  exact Refuses.readMany
    (fun condition mem => decodes_postCondition inverts (valid.postConditions condition mem))
    (fun condition mem =>
      refuses_postCondition inverts truncated (valid.postConditions condition mem))

/-! ## Payloads -/

/-- The field at the end of a payload that is read with whatever is left. -/
def TransactionPayload.trailing : TransactionPayload CV → Buffer
  | tokenTransfer _ _ memo => memo
  | smartContract _ codeBody => encodeAscii codeBody
  | contractCall _ _ _ _ _ => []
  | poisonMicroblock header1 header2 => header1 ++ header2
  | coinbase payload => payload

/-- The fields of a payload before it. -/
def encodeLeading (clarity : ClarityLibrary CV) (payload : TransactionPayload CV) : Buffer :=
  encodeEnum payload.typeId ++
    match payload with
    | .tokenTransfer recipient amount _ =>
        encodeRecipientPrincipal recipient ++ encodeU64 amount
    | .smartContract name codeBody =>
        encodeName name ++ bigEndian 4 (encodeAscii codeBody).length
    | .contractCall address contractName functionName functionArgs _ =>
        encodeStacksAddress address ++ (encodeName contractName ++
          (encodeName functionName ++ encodeFunctionArgs clarity functionArgs))
    | .poisonMicroblock _ _ => []
    | .coinbase _ => []

theorem encodePayload_eq (payload : TransactionPayload CV) :
    encodePayload clarity payload = encodeLeading clarity payload ++ payload.trailing := by
  cases payload <;>
    simp [encodePayload, encodeLeading, TransactionPayload.trailing, encodeCodeBody,
      List.append_assoc]

theorem trailing_contractCall (address : StacksAddress) (contractName functionName : String)
    (functionArgs : List CV) (rawFunctionArgs : Option Buffer) :
    (TransactionPayload.contractCall address contractName functionName functionArgs
      rawFunctionArgs).trailing = [] :=
  rfl

theorem refuses_functionArgs (inverts : clarity.RoundTrips) (truncated : RefusesTruncated clarity)
    {functionArgs : List CV} (count : functionArgs.length < 2 ^ 32) :
    Refuses (readClarityValueArray clarity) (encodeFunctionArgs clarity functionArgs) := by
  apply (refuses_uint32 functionArgs.length).bind (Decodes.readUInt32BE count)
  apply Refuses.withRemaining
  exact Refuses.readMany (fun value _ => inverts value) fun value _ => truncated value

/-- A cut in the fields before the last one is refused. -/
theorem refuses_payload (inverts : clarity.RoundTrips) (truncated : RefusesTruncated clarity)
    {payload : TransactionPayload CV} (valid : payload.WellFormed) :
    Refuses (readTransactionPayload clarity) (encodeLeading clarity payload) := by
  apply (refuses_enum payload.typeId).bind (decodes_enum payload.typeId)
  cases payload with
  | tokenTransfer recipient amount memo =>
      apply (drains_recipient valid.1).bind_starves (decodes_recipient valid.1)
      · exact fun _ => starves_signed.bind
      · exact (refuses_signed amount).bind_left
  | smartContract name codeBody =>
      apply (drains_contractName valid.1).bind_starves (decodes_contractName valid.1)
      · exact fun _ => starves_uint32.bind.bind
      · exact (refuses_uint32 _).bind_left.bind_left
  | contractCall address contractName functionName functionArgs rawFunctionArgs =>
      apply (drains_stacksAddress valid.1).bind_starves (decodes_stacksAddress valid.1)
      · exact fun _ => starves_contractName.bind
      apply (drains_contractName valid.2.1).bind_starves (decodes_contractName valid.2.1)
      · exact fun _ => starves_clarityName.bind
      apply (drains_clarityName valid.2.2.1).bind_starves (decodes_clarityName valid.2.2.1)
      · exact fun _ => starves_uint32.bind.capture.bind
      · exact (refuses_functionArgs inverts truncated valid.2.2.2).capture.bind_left
  | poisonMicroblock header1 header2 => exact Refuses.nil _
  | coinbase payload => exact Refuses.nil _

/-- A cut in the last field is not noticed. -/
theorem accepts_payload (inverts : clarity.RoundTrips) {payload : TransactionPayload CV}
    (valid : payload.WellFormed) {rest : Buffer} (isPrefix : rest <+: payload.trailing) :
    Accepts (readTransactionPayload clarity) (encodeLeading clarity payload ++ rest) := by
  cases payload with
  | contractCall address contractName functionName functionArgs rawFunctionArgs =>
      rw [trailing_contractCall, List.prefix_nil] at isPrefix
      have whole := (decodes_payload inverts valid).accepts
      rwa [encodePayload_eq, trailing_contractCall, ← isPrefix] at whole
  | tokenTransfer recipient amount memo =>
      rw [encodeLeading, List.append_assoc, List.append_assoc]
      apply (decodes_enum TransactionPayloadTypeID.tokenTransfer).bind_accepts
      apply (decodes_recipient valid.1).bind_accepts
      apply (decodes_signed valid.2.1).bind_accepts
      exact ((Total.readBuffer 34).map _).accepts rest
  | smartContract name codeBody =>
      rw [encodeLeading, List.append_assoc, List.append_assoc]
      apply (decodes_enum TransactionPayloadTypeID.smartContract).bind_accepts
      apply (decodes_contractName valid.1).bind_accepts
      apply Accepts.map
      apply (Decodes.readUInt32BE valid.2.short).bind_accepts
      exact (Total.readString _).accepts rest
  | poisonMicroblock header1 header2 =>
      rw [encodeLeading, List.append_assoc]
      apply (decodes_enum TransactionPayloadTypeID.poisonMicroblock).bind_accepts
      exact ((Total.readBuffer _).bind fun _ => (Total.readBuffer _).map _).accepts rest
  | coinbase payload =>
      rw [encodeLeading, List.append_assoc]
      apply (decodes_enum TransactionPayloadTypeID.coinbase).bind_accepts
      exact ((Total.readBuffer 32).map _).accepts rest

/-! ## Transactions -/

/-- The encoding of a transaction before the last field of its payload. -/
def encodeTransactionLeading (clarity : ClarityLibrary CV) (tx : Transaction CV) : Buffer :=
  encodeEnum tx.version ++ (bigEndian 4 tx.chainId ++ (encodeAuth tx.auth ++
    (encodeEnum tx.anchorMode ++ (encodePostConditionSection clarity tx ++
      encodeLeading clarity tx.payload))))

theorem encodeTransaction_eq (tx : Transaction CV) :
    encodeTransaction clarity tx = encodeTransactionLeading clarity tx ++ tx.payload.trailing := by
  simp only [encodeTransaction, encodeTransactionLeading, encodePayload_eq, List.append_assoc]

theorem refuses_transaction (inverts : clarity.RoundTrips) (truncated : RefusesTruncated clarity)
    {tx : Transaction CV} (valid : tx.WellFormed) :
    Refuses (readTransaction clarity) (encodeTransactionLeading clarity tx) := by
  apply (refuses_enum tx.version).bind (decodes_enum tx.version)
  apply (refuses_uint32 tx.chainId).bind (Decodes.readUInt32BE valid.chainId)
  apply (drains_auth valid.auth).bind_starves (decodes_auth valid.auth)
  · exact fun _ => starves_enum.bind
  apply (refuses_enum tx.anchorMode).bind (decodes_enum tx.anchorMode)
  apply (refuses_postConditionSection inverts truncated valid).capture.bind
    (decodes_postConditionSection inverts valid).capture
  exact (refuses_payload inverts truncated valid.payload).map _

theorem accepts_transaction (inverts : clarity.RoundTrips) {tx : Transaction CV}
    (valid : tx.WellFormed) {rest : Buffer} (isPrefix : rest <+: tx.payload.trailing) :
    Accepts (readTransaction clarity) (encodeTransactionLeading clarity tx ++ rest) := by
  simp only [encodeTransactionLeading, List.append_assoc]
  apply (decodes_enum tx.version).bind_accepts
  apply (Decodes.readUInt32BE valid.chainId).bind_accepts
  apply (decodes_auth valid.auth).bind_accepts
  apply (decodes_enum tx.anchorMode).bind_accepts
  apply (decodes_postConditionSection inverts valid).capture.bind_accepts
  exact (accepts_payload inverts valid.payload isPrefix).map _

/-- On a proper prefix of an encoding, reading fails exactly when the cut stands
before the last field of the payload. -/
theorem readTransaction_take_error_iff (inverts : clarity.RoundTrips)
    (truncated : RefusesTruncated clarity) {tx : Transaction CV} (valid : tx.WellFormed)
    {length : Nat} (proper : length < (encodeTransaction clarity tx).length) :
    (∃ error, (readTransaction clarity).run
        (BufferReader.fromBuffer ((encodeTransaction clarity tx).take length)) = .error error) ↔
      length + tx.payload.trailing.length < (encodeTransaction clarity tx).length := by
  have parts : encodeTransaction clarity tx = _ := encodeTransaction_eq tx
  have size := congrArg List.length parts
  rw [List.length_append] at size
  constructor
  · rintro ⟨error, refused⟩
    by_contra notBefore
    -- the cut stands in the last field, which is read as far as it goes
    obtain ⟨left, rfl⟩ : ∃ left, length = (encodeTransactionLeading clarity tx).length + left :=
      Nat.exists_eq_add_of_le (by omega)
    obtain ⟨read, final, ran⟩ :=
      accepts_transaction inverts valid (List.take_prefix left tx.payload.trailing) []
    rw [parts, List.take_length_add_append] at refused
    rw [List.nil_append] at ran
    exact absurd (ran.symm.trans refused) (by simp)
  · intro before
    have short : length ≤ (encodeTransactionLeading clarity tx).length := by omega
    rw [parts, List.take_append_of_le_length short]
    apply refuses_transaction inverts truncated valid [] _ (List.take_prefix length _)
    intro whole
    have same := congrArg List.length whole
    rw [List.length_take] at same
    omega

/-- The Clarity booleans are single bytes, whose only proper prefix is empty. -/
theorem booleans_refusesTruncated : RefusesTruncated ClarityLibrary.booleans := by
  intro value
  apply Refuses.bind_left
  cases value <;> exact Refuses.readUInt 1 rfl

end StacksApi.P2p
