import StacksApi.P2p.Tx

/-!
# Dependencies

Functions of the packages that the program calls and whose code is not part of
the repository.  They are parameters of the model; what a result relies on is
stated about them where it is used.
-/

namespace StacksApi

open StacksApi.Binary
open StacksApi.P2p

/-- Clarity values of `@blockstack/stacks-transactions`. -/
structure ClarityLibrary (CV : Type) where
  /-- Reads one value at the cursor of a buffer. -/
  deserializeCV : ReadM ApiError CV
  serializeCV : CV → Buffer
  cvToString : CV → String

/-- `deserializeCV` inverts `serializeCV` wherever the bytes stand in a buffer. -/
def ClarityLibrary.RoundTrips {CV : Type} (clarity : ClarityLibrary CV) : Prop :=
  ∀ value, Decodes clarity.deserializeCV (clarity.serializeCV value) value

/-- The library on the Clarity booleans, which are the single bytes `03` and `04`. -/
def ClarityLibrary.booleans : ClarityLibrary Bool where
  deserializeCV := do
    let typeId ← readUInt8
    if typeId = 3 then pure true
    else if typeId = 4 then pure false
    else throw (.library "Unable to deserialize Clarity Value from buffer")
  serializeCV value := if value then [3] else [4]
  cvToString value := if value then "true" else "false"

theorem ClarityLibrary.booleans_roundTrips : ClarityLibrary.booleans.RoundTrips := by
  intro value
  cases value with
  | true => exact (Decodes.readUInt8 (show 3 < 256 by decide)).bind (Decodes.pure true)
  | false => exact (Decodes.readUInt8 (show 4 < 256 by decide)).bind (Decodes.pure false)

/-- Addresses of `c32check` and `@blockstack/stacks-transactions`. -/
structure AddressLibrary where
  /-- The text of a version and the hexadecimal digits of a hash. -/
  c32address : Nat → String → Except ApiError String
  c32addressDecode : String → Except ApiError (Nat × String)
  addressHashModeToVersion : SigHashMode → TransactionVersion → Nat

/-- The library with the texts of two addresses, the zero hash under the versions
of single-signature test addresses and of multi-signature ones. -/
def AddressLibrary.zeroHash : AddressLibrary where
  c32address version hash :=
    if hash ≠ "0000000000000000000000000000000000000000" then
      .error (.library "no such address")
    else if version = 26 then .ok "ST000000000000000000002AMW42H"
    else if version = 21 then .ok "SN000000000000000000003YDHWKJ"
    else .error (.library "no such address")
  c32addressDecode address :=
    if address = "ST000000000000000000002AMW42H" then
      .ok (26, "0000000000000000000000000000000000000000")
    else if address = "SN000000000000000000003YDHWKJ" then
      .ok (21, "0000000000000000000000000000000000000000")
    else .error (.library "Invalid c32 address")
  addressHashModeToVersion hashMode transactionVersion :=
    match hashMode, transactionVersion with
    | .p2pkh, .mainnet => 22
    | .p2pkh, .testnet => 26
    | _, .mainnet => 20
    | _, .testnet => 21

/-- All functions that the event server takes from elsewhere. -/
structure Libraries (CV : Type) where
  clarity : ClarityLibrary CV
  addresses : AddressLibrary
  /-- SHA-512/256 of the runtime. -/
  digestSha512_256 : Buffer → Buffer

end StacksApi
