import StacksApi.Routes.Subscriptions
import StacksApi.Text.Decimal

/-!
# Requests and responses

`api/pagination.ts` and what the routes of `api/routes` share: query values as `express`
hands them over, and the kinds of answers.  An error that a handler throws is answered
by the server and is not among them.
-/

namespace StacksApi.Routes

open StacksApi.Text
open StacksApi.Transition

/-- The value of a query parameter.  A number is a default; an object is given by its
JSON text. -/
inductive QueryValue
  | number (value : Nat)
  | text (value : String)
  | texts (values : List String)
  | object (json : String)
  deriving DecidableEq

/-- What a handler answers. -/
inductive Response (Body : Type)
  | ok (body : Body)
  | badRequest (error : String)
  | notFound (error : String)
  | redirect (location : String)
  deriving DecidableEq

/-! ## Pages -/

/-- `parseInt` yields a double. -/
def parsePagingQueryInput : QueryValue → Except ApiError Nat
  | .number val => .ok val
  | .text val =>
      match unsigned? 10 val.toList with
      | some parsedInput => .ok (asDouble parsedInput)
      | none => .error (.failure "`limit` and `offset` must be integers")
  | _ => .error (.failure "Input must be either typeof `string` or `number`")

/-- A limit up to a bound. -/
def parseLimitQuery (maxItems : Nat) (errorMsg : String) (val : QueryValue) :
    Except ApiError Nat := do
  let limit ← parsePagingQueryInput val
  if limit > maxItems then throw (.failure errorMsg)
  return limit

/-- `parseLimitQuery` with the message that all routes give. -/
def parseBoundedLimit (maxItems : Nat) (val : QueryValue) : Except ApiError Nat :=
  parseLimitQuery maxItems s!"`limit` must be equal to or less than {maxItems}" val

/-- A limit that is accepted is the number of the text and within its bound. -/
theorem parseLimitQuery_ok_iff {maxItems limit : Nat} {errorMsg : String} {val : QueryValue} :
    parseLimitQuery maxItems errorMsg val = .ok limit ↔
      parsePagingQueryInput val = .ok limit ∧ limit ≤ maxItems := by
  constructor
  · intro ok
    obtain ⟨parsed, parsedOk, ok⟩ := Except.bind_eq_ok.mp ok
    by_cases above : parsed > maxItems
    · rw [if_pos above] at ok
      cases ok
    · rw [if_neg above] at ok
      cases ok
      exact ⟨parsedOk, Nat.not_lt.mp above⟩
  · rintro ⟨parsedOk, within⟩
    rw [parseLimitQuery, parsedOk]
    simp [bind, Except.bind, Nat.not_lt.mpr within, pure, Except.pure]

/-- The decimal text of a number is read back as far as doubles are exact. -/
theorem parsePagingQueryInput_toString {value : Nat} (small : value ≤ 2 ^ 53) :
    parsePagingQueryInput (.text (toString value)) = .ok value := by
  have digits : unsigned? 10 (toString value).toList = some value := by
    rw [show (toString value).toList = Nat.toDigits 10 value from by simp [Nat.repr]]
    exact unsigned?_toDigits value
  rw [parsePagingQueryInput, digits]
  exact congrArg Except.ok (asDouble_of_le small)

/-! ## Types of transactions -/

/-- `JSON.stringify` of a text. -/
def jsonStringify (text : String) : String :=
  let escape (char : Char) : List Char :=
    if char = '"' then ['\\', '"']
    else if char = '\\' then ['\\', '\\']
    else if char.toNat = 8 then ['\\', 'b']
    else if char.toNat = 9 then ['\\', 't']
    else if char.toNat = 10 then ['\\', 'n']
    else if char.toNat = 12 then ['\\', 'f']
    else if char.toNat = 13 then ['\\', 'r']
    else if char.toNat < 32 then ['\\', 'u', '0', '0'] ++ toHex [UInt8.ofNat char.toNat]
    else [char]
  String.ofList (['"'] ++ text.toList.flatMap escape ++ ['"'])

/-- The names of the types of transactions. -/
def txTypes : List String :=
  ["contract_call", "smart_contract", "token_transfer", "coinbase", "poison_microblock"]

/-- Names of types; others are refused. -/
def parseTxTypeStrings (values : List String) : Except ApiError (List String) :=
  values.mapM fun v =>
    if v ∈ txTypes then .ok v else .error (.failure s!"Unexpected tx type: {jsonStringify v}")

/-- The filter of `GET /tx`. -/
def parseTxTypeFilter : Option QueryValue → Except ApiError (List String)
  | none => .ok []
  | some (.texts values) => parseTxTypeStrings values
  | some (.text value) => parseTxTypeStrings [value]
  | some (.object json) => .error (.failure s!"Unexpected tx type query value: {json}")
  | some (.number value) => .error (.failure s!"Unexpected tx type query value: {value}")

end StacksApi.Routes
