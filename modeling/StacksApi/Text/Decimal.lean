import StacksApi.Text.Hex

/-!
# Integers as text

`bigIntOfString` reads a text the way `BigInt(text)` does: surrounding white
space is ignored, an empty text is zero, a decimal number may carry a sign and
a `0x`, `0o` or `0b` prefix selects another base.  It inverts the decimal
rendering of every integer.  `parseInt` reads a number as the double closest to it.
-/

namespace StacksApi.Text

/-- White space and line terminators of the language. -/
def isWhiteSpace (char : Char) : Bool :=
  let code := char.toNat
  (0x09 ≤ code && code ≤ 0x0D) || code == 0x20 || code == 0xA0 || code == 0x1680 ||
    (0x2000 ≤ code && code ≤ 0x200A) || code == 0x2028 || code == 0x2029 || code == 0x202F ||
    code == 0x205F || code == 0x3000 || code == 0xFEFF

/-- Drop white space at both ends. -/
def trim (chars : List Char) : List Char :=
  ((chars.dropWhile isWhiteSpace).reverse.dropWhile isWhiteSpace).reverse

/-- One more digit of a number in a base. -/
def pushDigit (base acc : Nat) (char : Char) : Option Nat :=
  (hexDigit? char).bind fun digit =>
    if digit < base then some (base * acc + digit) else none

/-- A nonempty text of digits in a base. -/
def unsigned? (base : Nat) (chars : List Char) : Option Nat :=
  if chars.isEmpty then none else chars.foldlM (pushDigit base) 0

/-- The texts of integers that are not plain decimal digits. -/
def prefixedInteger? : List Char → Option Int
  | [] => some 0
  | '-' :: digits => (unsigned? 10 digits).map fun value => -(value : Int)
  | '+' :: digits => (unsigned? 10 digits).map Int.ofNat
  | '0' :: 'x' :: digits | '0' :: 'X' :: digits => (unsigned? 16 digits).map Int.ofNat
  | '0' :: 'o' :: digits | '0' :: 'O' :: digits => (unsigned? 8 digits).map Int.ofNat
  | '0' :: 'b' :: digits | '0' :: 'B' :: digits => (unsigned? 2 digits).map Int.ofNat
  | _ => none

/-- A trimmed text as an integer. -/
def bigIntOfChars (chars : List Char) : Option Int :=
  ((unsigned? 10 chars).map Int.ofNat).orElse fun _ => prefixedInteger? chars

/-- The integer that `BigInt` makes of a text, unless it throws. -/
def bigIntOfString (text : String) : Option Int :=
  bigIntOfChars (trim text.toList)

theorem foldlM_pushDigit_toDigits (n : Nat) :
    (Nat.toDigits 10 n).foldlM (pushDigit 10) 0 = some n := by
  induction n using Nat.strong_induction_on with
  | _ n ih =>
      by_cases small : n < 10
      · simp [Nat.toDigits_of_lt_base small, pushDigit,
          hexDigit?_digitChar (show n < 16 by omega), small]
      · have last : n % 10 < 10 := Nat.mod_lt n (by decide)
        rw [Nat.toDigits_of_base_le (by decide) (by omega), List.foldlM_append,
          ih (n / 10) (by omega)]
        simp [pushDigit, hexDigit?_digitChar (show n % 10 < 16 by omega), last,
          Nat.div_add_mod]

theorem unsigned?_toDigits (n : Nat) : unsigned? 10 (Nat.toDigits 10 n) = some n := by
  rw [unsigned?, if_neg (by simp [Nat.toDigits_ne_nil]), foldlM_pushDigit_toDigits]

/-- Text without white space is its own trimming. -/
theorem trim_eq_self {chars : List Char} (dense : ∀ char ∈ chars, isWhiteSpace char = false) :
    trim chars = chars := by
  have keep : ∀ part : List Char, (∀ char ∈ part, isWhiteSpace char = false) →
      part.dropWhile isWhiteSpace = part := by
    intro part noSpace
    cases part with
    | nil => rfl
    | cons first rest => simp [List.dropWhile, noSpace first List.mem_cons_self]
  rw [trim, keep chars dense, keep chars.reverse (by simpa using dense), List.reverse_reverse]

theorem isWhiteSpace_eq_false_of_mem_toDigits {n : Nat} {char : Char}
    (mem : char ∈ Nat.toDigits 10 n) : isWhiteSpace char = false := by
  obtain ⟨atLeast, atMost⟩ :=
    Char.isDigit_iff_toNat.mp (Nat.isDigit_of_mem_toDigits (by decide) (by decide) mem)
  change 48 ≤ char.toNat at atLeast
  change char.toNat ≤ 57 at atMost
  simp only [isWhiteSpace, Bool.or_eq_false_iff, Bool.and_eq_false_iff, beq_eq_false_iff_ne,
    decide_eq_false_iff_not]
  omega

theorem bigIntOfString_repr (n : Nat) : bigIntOfString n.repr = some (n : Int) := by
  rw [bigIntOfString, Nat.toList_repr,
    trim_eq_self fun _ mem => isWhiteSpace_eq_false_of_mem_toDigits mem, bigIntOfChars,
    unsigned?_toDigits]
  rfl

/-- Reading inverts the decimal rendering of every integer. -/
theorem bigIntOfString_toString (n : Int) : bigIntOfString (toString n) = some n := by
  cases n with
  | ofNat n => exact bigIntOfString_repr n
  | negSucc n =>
      have chars : (toString (Int.negSucc n)).toList = '-' :: Nat.toDigits 10 (n + 1) := by
        change ("-" ++ (n + 1).repr).toList = _
        rw [String.toList_append, Nat.toList_repr]
        rfl
      have dense : ∀ char ∈ '-' :: Nat.toDigits 10 (n + 1), isWhiteSpace char = false := by
        intro char mem
        rcases List.mem_cons.mp mem with rfl | mem
        · rfl
        · exact isWhiteSpace_eq_false_of_mem_toDigits mem
      have signed : unsigned? 10 ('-' :: Nat.toDigits 10 (n + 1)) = none := rfl
      rw [bigIntOfString, chars, trim_eq_self dense, bigIntOfChars, signed]
      change (unsigned? 10 (Nat.toDigits 10 (n + 1))).map (fun value => -(value : Int)) = _
      rw [unsigned?_toDigits]
      rfl

/-! ## Doubles -/

/-- The double that is closest to a number, of two such the even one.  Beyond the range of
doubles the number stands for the infinity that is read. -/
def asDouble (value : Nat) : Nat :=
  let unit := 2 ^ (value.log2 - 52)
  let below := value / unit
  let rest := value % unit
  if 2 * rest < unit ∨ (2 * rest = unit ∧ below % 2 = 0) then below * unit
  else (below + 1) * unit

/-- A number of at most 53 bits is a double, and so is the next one. -/
theorem asDouble_of_le {value : Nat} (le : value ≤ 2 ^ 53) : asDouble value = value := by
  rcases Nat.lt_or_eq_of_le le with small | rfl
  · have bits : value.log2 ≤ 52 := by
      by_cases zero : value = 0
      · simp [zero]
      · exact Nat.le_of_lt_succ ((Nat.log2_lt zero).mpr small)
    simp [asDouble, Nat.sub_eq_zero_of_le bits, Nat.mod_one]
  · decide +kernel

example : asDouble 9007199254740993 = 9007199254740992 := by decide +kernel

end StacksApi.Text
