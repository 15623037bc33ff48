import Mathlib.Tactic.Common
import StacksApi.EventStream.Reader
import StacksApi.P2p.RoundTrip
import StacksApi.Text.Decimal
import StacksApi.Transition.Fallible

/-!
# Post-conditions of the interface

`api/serializers/post-conditions.ts`, and what its output means.  A comparison
code of the interface is read by its name and an amount as a decimal number; a
principal is carried over when its address can be read back from the text.  The
table of comparison codes maps all codes but equality to the name of another
relation.
-/

namespace StacksApi.Serializers

open StacksApi.Binary
open StacksApi.Text
open StacksApi.P2p
open StacksApi.EventStream
open StacksApi.Transition

/-! ## Vocabulary of the interface -/

/-- Types of principals as they are shown. -/
inductive PostConditionPrincipalType
  | principalOrigin
  | principalStandard
  | principalContract
  deriving DecidableEq

/-- How amounts compare, as it is shown. -/
inductive PostConditionFungibleConditionCode
  | sentEqualTo
  | sentGreaterThan
  | sentGreaterThanOrEqualTo
  | sentLessThan
  | sentLessThanOrEqualTo
  deriving DecidableEq

/-- Whether a token is sent, as it is shown. -/
inductive PostConditionNonFungibleConditionCode
  | sent
  | notSent
  deriving DecidableEq

/-- Modes of post-conditions as they are shown. -/
inductive PostConditionMode
  | allow
  | deny
  deriving DecidableEq

/-- A principal as it is shown. -/
structure ApiPrincipal where
  typeId : PostConditionPrincipalType
  contractName : Option String := none
  address : Option String := none
  deriving DecidableEq

/-- An asset as it is shown. -/
structure SerializedPostConditionAsset where
  contractName : String
  assetName : String
  contractAddress : String
  deriving DecidableEq

/-- A post-condition as it is shown. -/
inductive PostCondition
  | stx (conditionCode : PostConditionFungibleConditionCode) (amount : String)
      (principal : ApiPrincipal)
  | fungible (conditionCode : PostConditionFungibleConditionCode) (amount : String)
      (principal : ApiPrincipal) (asset : SerializedPostConditionAsset)
  | nonFungible (conditionCode : PostConditionNonFungibleConditionCode)
      (principal : ApiPrincipal) (asset : SerializedPostConditionAsset) (hex repr : String)
  deriving DecidableEq

/-! ## Serializing -/

/-- How a type of principals is shown. -/
def assetPrincipalTypeMap : PostConditionPrincipalTypeID → PostConditionPrincipalType
  | .origin => .principalOrigin
  | .standard => .principalStandard
  | .contract => .principalContract

/-- `fungibleConditionCodeMap`, with the pairs of the source. -/
def serializeFungibleConditionCode : FungibleConditionCode → PostConditionFungibleConditionCode
  | .sentEq => .sentEqualTo
  | .sentGe => .sentGreaterThan
  | .sentGt => .sentGreaterThanOrEqualTo
  | .sentLe => .sentLessThan
  | .sentLt => .sentLessThanOrEqualTo

/-- How a condition on a token is shown. -/
def serializeNonFungibleConditionCode :
    NonfungibleConditionCode → PostConditionNonFungibleConditionCode
  | .notSent => .notSent
  | .sent => .sent

/-- How the byte of a mode is shown, if it is one. -/
def serializePostConditionMode (byte : Nat) : Except ApiError PostConditionMode :=
  if byte = 1 then .ok .allow
  else if byte = 2 then .ok .deny
  else .error (.failure s!"PostConditionMode byte must be either 1 or 2 but was {byte}")

section Serialize

variable (addresses : AddressLibrary)

/-- How a principal is shown. -/
def serializePostConditionPrincipal (principal : PostConditionPrincipal) :
    Except ApiError ApiPrincipal :=
  let typeId := assetPrincipalTypeMap principal.typeId
  match principal with
  | .standard address => do
      let text ← addressText addresses address
      return { typeId, address := some text }
  | .contract address contractName => do
      let text ← addressText addresses address
      return { typeId, contractName := some contractName, address := some text }
  | .origin => .ok { typeId }

/-- How an asset is shown. -/
def serializePostConditionAsset (asset : AssetInfo) :
    Except ApiError SerializedPostConditionAsset := do
  let contractAddress ← addressText addresses asset.contractAddress
  return { contractName := asset.contractName, assetName := asset.assetName, contractAddress }

variable {CV : Type} (clarity : ClarityLibrary CV)

/-- How a post-condition is shown. -/
def serializePostCondition : TransactionPostCondition CV → Except ApiError PostCondition
  | .stx principal conditionCode amount => do
      let principal ← serializePostConditionPrincipal addresses principal
      return .stx (serializeFungibleConditionCode conditionCode) (toString amount) principal
  | .fungible principal asset conditionCode amount => do
      let principal ← serializePostConditionPrincipal addresses principal
      let asset ← serializePostConditionAsset addresses asset
      return .fungible (serializeFungibleConditionCode conditionCode) (toString amount) principal
        asset
  | .nonfungible principal asset assetValue conditionCode => do
      let principal ← serializePostConditionPrincipal addresses principal
      let asset ← serializePostConditionAsset addresses asset
      return .nonFungible (serializeNonFungibleConditionCode conditionCode) principal asset
        (bufferToHexPrefixString (clarity.serializeCV assetValue)) (clarity.cvToString assetValue)

/-- `readTransactionPostConditions(BufferReader.fromBuffer(buffer))` and the
serializer on each condition, as the transaction endpoints do. -/
def renderPostConditions (buffer : Buffer) : Except ApiError (List PostCondition) := do
  let (postConditions, _) ←
    (readTransactionPostConditions clarity).run (BufferReader.fromBuffer buffer)
  postConditions.mapM (serializePostCondition addresses clarity)

end Serialize

/-! ## Meaning -/

/-- The relation between a sent amount and that of a condition on the wire. -/
def Sends : FungibleConditionCode → Int → Int → Prop
  | .sentEq, sent, amount => sent = amount
  | .sentGt, sent, amount => amount < sent
  | .sentGe, sent, amount => amount ≤ sent
  | .sentLt, sent, amount => sent < amount
  | .sentLe, sent, amount => sent ≤ amount

/-- The relation that a code of the interface names. -/
def NamesSent : PostConditionFungibleConditionCode → Int → Int → Prop
  | .sentEqualTo, sent, amount => sent = amount
  | .sentGreaterThan, sent, amount => amount < sent
  | .sentGreaterThanOrEqualTo, sent, amount => amount ≤ sent
  | .sentLessThan, sent, amount => sent < amount
  | .sentLessThanOrEqualTo, sent, amount => sent ≤ amount

/-- Both pairs of code and amount permit the same sent amounts. -/
def SameAmounts (code : FungibleConditionCode) (amount : Int)
    (rendered : PostConditionFungibleConditionCode) (text : String) : Prop :=
  ∃ value, bigIntOfString text = some value ∧
    ∀ sent, IsU64 sent → (NamesSent rendered sent value ↔ Sends code sent amount)

section Carried

variable (addresses : AddressLibrary)

/-- The address can be read back from the text. -/
def CarriedAddress (address : StacksAddress) (text : String) : Prop :=
  addresses.c32addressDecode text = .ok (address.version, hexDigits address.bytes)

/-- What is shown has the kind and the parts of the principal. -/
def CarriedPrincipal : PostConditionPrincipal → ApiPrincipal → Prop
  | .origin, rendered => rendered = { typeId := .principalOrigin }
  | .standard address, rendered => ∃ text, CarriedAddress addresses address text ∧
      rendered = { typeId := .principalStandard, address := some text }
  | .contract address contractName, rendered => ∃ text, CarriedAddress addresses address text ∧
      rendered =
        { typeId := .principalContract, contractName := some contractName, address := some text }

/-- What is shown has the parts of the asset. -/
def CarriedAsset (asset : AssetInfo) (rendered : SerializedPostConditionAsset) : Prop :=
  CarriedAddress addresses asset.contractAddress rendered.contractAddress ∧
    rendered.contractName = asset.contractName ∧ rendered.assetName = asset.assetName

/-- The codes of conditions on a single asset have the same name. -/
def CarriedCode : NonfungibleConditionCode → PostConditionNonFungibleConditionCode → Prop
  | .sent, rendered => rendered = .sent
  | .notSent, rendered => rendered = .notSent

variable {CV : Type} (clarity : ClarityLibrary CV)

/-- The rendered condition means what the condition on the wire means. -/
def Preserves : TransactionPostCondition CV → PostCondition → Prop
  | .stx principal code amount, .stx code' amount' principal' =>
      SameAmounts code amount code' amount' ∧ CarriedPrincipal addresses principal principal'
  | .fungible principal asset code amount, .fungible code' amount' principal' asset' =>
      SameAmounts code amount code' amount' ∧ CarriedPrincipal addresses principal principal' ∧
        CarriedAsset addresses asset asset'
  | .nonfungible principal asset value code, .nonFungible code' principal' asset' hex repr =>
      CarriedCode code code' ∧ CarriedPrincipal addresses principal principal' ∧
        CarriedAsset addresses asset asset' ∧
        hexToBuffer hex = .ok (clarity.serializeCV value) ∧ repr = clarity.cvToString value
  | _, _ => False

/-! ## When the meaning is preserved -/

/-- `c32address` makes a text of the address. -/
def HasText (address : StacksAddress) : Prop :=
  ∃ text, addressText addresses address = .ok text

/-- The address of the principal has a text. -/
def PrincipalHasText : PostConditionPrincipal → Prop
  | .origin => True
  | .standard address => HasText addresses address
  | .contract address _ => HasText addresses address

/-- The addresses have texts, a fungible condition asks for equality, and the
amount of an STX condition is below `2 ^ 63`. -/
def Renderable : TransactionPostCondition CV → Prop
  | .stx principal code amount =>
      code = .sentEq ∧ amount < 2 ^ 63 ∧ PrincipalHasText addresses principal
  | .fungible principal asset code _ =>
      code = .sentEq ∧ PrincipalHasText addresses principal ∧
        HasText addresses asset.contractAddress
  | .nonfungible principal asset _ _ =>
      PrincipalHasText addresses principal ∧ HasText addresses asset.contractAddress

end Carried

/-- Texts of addresses can be read back. -/
def Readable (addresses : AddressLibrary) : Prop :=
  ∀ (address : StacksAddress) text, address.WellFormed → addressText addresses address = .ok text →
    CarriedAddress addresses address text

/-! ## Amounts -/

/-- The name of a code agrees with the code on amounts from the unsigned range
only if the code is equality; the amount must be rendered as it was written. -/
theorem sameAmounts_iff (code : FungibleConditionCode) {amount rendered : Int}
    (range : IsU64 amount) (low : rendered = amount ∨ rendered < 0 ∧ 0 < amount) :
    SameAmounts code amount (serializeFungibleConditionCode code) (toString rendered) ↔
      code = .sentEq ∧ rendered = amount := by
  obtain ⟨nonneg, below⟩ := range
  rw [SameAmounts, bigIntOfString_toString]
  constructor
  · rintro ⟨value, ⟨⟩, agree⟩
    -- the amount itself, or zero when the rendering is negative, tells all others apart
    have atAmount := agree amount ⟨nonneg, below⟩
    have atZero := agree 0 ⟨by omega, by norm_num⟩
    cases code with
    | sentEq => exact ⟨rfl, (atAmount.mpr rfl).symm⟩
    | sentGt =>
        simp only [serializeFungibleConditionCode, NamesSent, Sends] at atAmount atZero
        omega
    | sentGe =>
        simp only [serializeFungibleConditionCode, NamesSent, Sends] at atAmount atZero
        omega
    | sentLt =>
        simp only [serializeFungibleConditionCode, NamesSent, Sends] at atAmount atZero
        omega
    | sentLe =>
        simp only [serializeFungibleConditionCode, NamesSent, Sends] at atAmount atZero
        omega
  · rintro ⟨rfl, rfl⟩
    exact ⟨rendered, rfl, fun sent _ => Iff.rfl⟩

/-! ## Principals and assets -/

section Principals

variable {addresses : AddressLibrary}

theorem carriedPrincipal_of_serialize (readable : Readable addresses)
    {principal : PostConditionPrincipal} (valid : principal.WellFormed) {rendered : ApiPrincipal}
    (serialized : serializePostConditionPrincipal addresses principal = .ok rendered) :
    CarriedPrincipal addresses principal rendered := by
  cases principal with
  | origin =>
      cases serialized
      rfl
  | standard address =>
      obtain ⟨text, textOk, same⟩ := Except.bind_eq_ok.mp serialized
      cases same
      exact ⟨text, readable address text valid textOk, rfl⟩
  | contract address contractName =>
      obtain ⟨text, textOk, same⟩ := Except.bind_eq_ok.mp serialized
      cases same
      exact ⟨text, readable address text valid.1 textOk, rfl⟩

theorem exists_serializePostConditionPrincipal_iff {principal : PostConditionPrincipal} :
    (∃ rendered, serializePostConditionPrincipal addresses principal = .ok rendered) ↔
      PrincipalHasText addresses principal := by
  cases principal with
  | origin => exact ⟨fun _ => trivial, fun _ => ⟨_, rfl⟩⟩
  | standard address => exact succeeds_bind_of_total fun _ => succeeds_pure _
  | contract address contractName => exact succeeds_bind_of_total fun _ => succeeds_pure _

theorem carriedAsset_of_serialize (readable : Readable addresses) {asset : AssetInfo}
    (valid : asset.WellFormed) {rendered : SerializedPostConditionAsset}
    (serialized : serializePostConditionAsset addresses asset = .ok rendered) :
    CarriedAsset addresses asset rendered := by
  obtain ⟨text, textOk, same⟩ := Except.bind_eq_ok.mp serialized
  cases same
  exact ⟨readable asset.contractAddress text valid.contractAddress textOk, rfl, rfl⟩

theorem exists_serializePostConditionAsset_iff {asset : AssetInfo} :
    (∃ rendered, serializePostConditionAsset addresses asset = .ok rendered) ↔
      HasText addresses asset.contractAddress :=
  succeeds_bind_of_total fun _ => succeeds_pure _

end Principals

/-! ## Conditions -/

variable {CV : Type} {addresses : AddressLibrary} {clarity : ClarityLibrary CV}

/-- The signed read changes an amount only to a negative one. -/
theorem signedAmount_low {amount : Int} (range : IsU64 amount) :
    signedAmount amount = amount ∨ signedAmount amount < 0 ∧ 0 < amount := by
  obtain ⟨nonneg, below⟩ := range
  rw [signedAmount, toSigned]
  split <;> omega

theorem carriedCode_serialize (code : NonfungibleConditionCode) :
    CarriedCode code (serializeNonFungibleConditionCode code) := by
  cases code <;> rfl

theorem exists_preserves_iff (readable : Readable addresses)
    {condition : TransactionPostCondition CV} (valid : condition.WellFormed) :
    (∃ rendered, serializePostCondition addresses clarity condition.asRead = .ok rendered ∧
        Preserves addresses clarity condition rendered) ↔
      Renderable addresses condition := by
  cases condition with
  | stx principal code amount =>
      have amounts := sameAmounts_iff code valid.2 (signedAmount_low valid.2)
      rw [signedAmount_eq_self_iff valid.2] at amounts
      constructor
      · rintro ⟨rendered, serialized, preserved⟩
        obtain ⟨principal', principalOk, same⟩ := Except.bind_eq_ok.mp serialized
        cases same
        obtain ⟨isEq, below⟩ := amounts.mp preserved.1
        exact ⟨isEq, below, exists_serializePostConditionPrincipal_iff.mp ⟨_, principalOk⟩⟩
      · rintro ⟨isEq, below, hasText⟩
        obtain ⟨principal', principalOk⟩ := exists_serializePostConditionPrincipal_iff.mpr hasText
        exact ⟨_, Except.bind_eq_ok.mpr ⟨principal', principalOk, rfl⟩,
          amounts.mpr ⟨isEq, below⟩, carriedPrincipal_of_serialize readable valid.1 principalOk⟩
  | fungible principal asset code amount =>
      have amounts := sameAmounts_iff code valid.2.2 (.inl rfl)
      constructor
      · rintro ⟨rendered, serialized, preserved⟩
        obtain ⟨principal', principalOk, continued⟩ := Except.bind_eq_ok.mp serialized
        obtain ⟨asset', assetOk, same⟩ := Except.bind_eq_ok.mp continued
        cases same
        exact ⟨(amounts.mp preserved.1).1,
          exists_serializePostConditionPrincipal_iff.mp ⟨_, principalOk⟩,
          exists_serializePostConditionAsset_iff.mp ⟨_, assetOk⟩⟩
      · rintro ⟨isEq, hasText, assetText⟩
        obtain ⟨principal', principalOk⟩ := exists_serializePostConditionPrincipal_iff.mpr hasText
        obtain ⟨asset', assetOk⟩ := exists_serializePostConditionAsset_iff.mpr assetText
        exact ⟨_, Except.bind_eq_ok.mpr ⟨principal', principalOk,
            Except.bind_eq_ok.mpr ⟨asset', assetOk, rfl⟩⟩,
          amounts.mpr ⟨isEq, rfl⟩, carriedPrincipal_of_serialize readable valid.1 principalOk,
          carriedAsset_of_serialize readable valid.2.1 assetOk⟩
  | nonfungible principal asset value code =>
      constructor
      · rintro ⟨rendered, serialized, _⟩
        obtain ⟨principal', principalOk, continued⟩ := Except.bind_eq_ok.mp serialized
        obtain ⟨asset', assetOk, _⟩ := Except.bind_eq_ok.mp continued
        exact ⟨exists_serializePostConditionPrincipal_iff.mp ⟨_, principalOk⟩,
          exists_serializePostConditionAsset_iff.mp ⟨_, assetOk⟩⟩
      · rintro ⟨hasText, assetText⟩
        obtain ⟨principal', principalOk⟩ := exists_serializePostConditionPrincipal_iff.mpr hasText
        obtain ⟨asset', assetOk⟩ := exists_serializePostConditionAsset_iff.mpr assetText
        exact ⟨_, Except.bind_eq_ok.mpr ⟨principal', principalOk,
            Except.bind_eq_ok.mpr ⟨asset', assetOk, rfl⟩⟩,
          carriedCode_serialize code, carriedPrincipal_of_serialize readable valid.1 principalOk,
          carriedAsset_of_serialize readable valid.2 assetOk,
          hexToBuffer_bufferToHexPrefixString _, rfl⟩

theorem renderPostConditions_encode (addresses : AddressLibrary) (inverts : clarity.RoundTrips)
    (conditions : List (TransactionPostCondition CV)) (count : conditions.length < 2 ^ 32)
    (valid : ∀ condition ∈ conditions, condition.WellFormed) :
    renderPostConditions addresses clarity (encodePostConditions clarity conditions) =
      (conditions.map TransactionPostCondition.asRead).mapM
        (serializePostCondition addresses clarity) := by
  have read := (decodes_postConditions inverts count valid).run_fromBuffer
  rw [renderPostConditions, read]
  rfl

/-- A list of conditions keeps its meaning exactly when all its conditions do. -/
theorem renderPostConditions_iff (inverts : clarity.RoundTrips) (readable : Readable addresses)
    {conditions : List (TransactionPostCondition CV)} (count : conditions.length < 2 ^ 32)
    (valid : ∀ condition ∈ conditions, condition.WellFormed) :
    (∃ rendered,
        renderPostConditions addresses clarity (encodePostConditions clarity conditions) =
          .ok rendered ∧
        List.Forall₂ (Preserves addresses clarity) conditions rendered) ↔
      ∀ condition ∈ conditions, Renderable addresses condition := by
  rw [renderPostConditions_encode addresses inverts conditions count valid, exists_mapM_forall₂_iff]
  exact forall₂_congr fun condition mem => exists_preserves_iff readable (valid condition mem)

theorem readable_zeroHash : Readable AddressLibrary.zeroHash := by
  intro address text _ textOk
  simp only [addressText, AddressLibrary.zeroHash] at textOk
  split at textOk
  · cases textOk
  · rename_i zero
    rw [not_not] at zero
    split at textOk
    · rename_i version
      cases textOk
      rw [CarriedAddress, version, zero]
      decide
    · split at textOk
      · rename_i version
        cases textOk
        rw [CarriedAddress, version, zero]
        decide
      · cases textOk

/-- The asset of a contract at an address of version 26. -/
def sampleAsset : AssetInfo where
  contractAddress := { version := 26, bytes := List.replicate 20 0 }
  contractName := "tokens"
  assetName := "gold"

theorem isName_of_all {name : String}
    (ascii : (name.toList.all fun char => decide (char.toNat < 128)) = true)
    (short : (encodeAscii name).length < 256) : IsName name where
  ascii char mem := of_decide_eq_true (List.all_eq_true.mp ascii char mem)
  short := short

theorem sampleAsset_wellFormed : sampleAsset.WellFormed where
  contractAddress := ⟨by decide, List.length_replicate⟩
  contractName := isName_of_all (by decide) (by decide)
  assetName := isName_of_all (by decide) (by decide)

/-- One condition of each kind; the fungible amount is beyond the signed range. -/
def sampleConditions : List (TransactionPostCondition Bool) :=
  [.stx .origin .sentEq 100,
    .fungible (.standard sampleAsset.contractAddress) sampleAsset .sentEq (2 ^ 63),
    .nonfungible (.contract sampleAsset.contractAddress "tokens") sampleAsset true .notSent]

theorem sampleConditions_wellFormed : ∀ condition ∈ sampleConditions, condition.WellFormed := by
  simp only [sampleConditions, List.forall_mem_cons]
  exact ⟨⟨trivial, by decide, by decide⟩,
    ⟨sampleAsset_wellFormed.contractAddress, sampleAsset_wellFormed, by decide, by decide⟩,
    ⟨⟨sampleAsset_wellFormed.contractAddress, sampleAsset_wellFormed.contractName⟩,
      sampleAsset_wellFormed⟩,
    List.forall_mem_nil _⟩

theorem renderPostConditions_sampleConditions :
    ∃ rendered,
      renderPostConditions AddressLibrary.zeroHash ClarityLibrary.booleans
          (encodePostConditions ClarityLibrary.booleans sampleConditions) = .ok rendered ∧
        List.Forall₂ (Preserves AddressLibrary.zeroHash ClarityLibrary.booleans)
          sampleConditions rendered := by
  have hasText : HasText AddressLibrary.zeroHash sampleAsset.contractAddress :=
    ⟨"ST000000000000000000002AMW42H", by decide⟩
  refine (renderPostConditions_iff ClarityLibrary.booleans_roundTrips readable_zeroHash
    (by decide) sampleConditions_wellFormed).mpr ?_
  simp only [sampleConditions, List.forall_mem_cons]
  exact ⟨⟨rfl, by decide, trivial⟩, ⟨rfl, hasText, hasText⟩, ⟨hasText, hasText⟩,
    List.forall_mem_nil _⟩

/-- More than 100 becomes at least 100. -/
theorem renderPostConditions_sentGt :
    renderPostConditions AddressLibrary.zeroHash ClarityLibrary.booleans
        (encodePostConditions ClarityLibrary.booleans [.stx .origin .sentGt 100]) =
      .ok [.stx .sentGreaterThanOrEqualTo "100" { typeId := .principalOrigin }] ∧
      NamesSent .sentGreaterThanOrEqualTo 100 100 ∧ ¬Sends .sentGt 100 100 ∧
      ¬∃ rendered,
        renderPostConditions AddressLibrary.zeroHash ClarityLibrary.booleans
            (encodePostConditions ClarityLibrary.booleans [.stx .origin .sentGt 100]) =
          .ok rendered ∧
        List.Forall₂ (Preserves AddressLibrary.zeroHash ClarityLibrary.booleans)
          [.stx .origin .sentGt 100] rendered := by
  have valid : (TransactionPostCondition.stx .origin .sentGt 100 :
      TransactionPostCondition Bool).WellFormed := ⟨trivial, by decide, by decide⟩
  have rendering := renderPostConditions_encode AddressLibrary.zeroHash
    ClarityLibrary.booleans_roundTrips [.stx .origin .sentGt 100] (by decide) (by simpa using valid)
  have rendered : renderPostConditions AddressLibrary.zeroHash ClarityLibrary.booleans
        (encodePostConditions ClarityLibrary.booleans [.stx .origin .sentGt 100]) =
      .ok [.stx .sentGreaterThanOrEqualTo "100" { typeId := .principalOrigin }] := by
    rw [rendering]
    rfl
  refine ⟨rendered, Int.le_refl 100, Int.lt_irrefl 100, ?_⟩
  rintro ⟨_, same, related⟩
  rw [rendered] at same
  cases same
  cases related with
  | cons holds _ =>
      obtain ⟨value, valueOk, agree⟩ := holds.1
      have is100 : bigIntOfString "100" = some 100 := bigIntOfString_toString 100
      rw [is100] at valueOk
      cases valueOk
      exact Int.lt_irrefl 100 ((agree 100 ⟨by decide, by decide⟩).mp (Int.le_refl 100))

end StacksApi.Serializers
