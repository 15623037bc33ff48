import StacksApi.Binary.BigEndian

/-!
# Hexadecimal text of byte buffers

The encoder writes two lower-case digits a byte.  The decoder takes digits in
pairs and stops silently at the first pair that is not two hexadecimal digits,
as `Buffer.from(text, 'hex')` does.
-/

namespace StacksApi.Text

open StacksApi.Binary

/-- The value of a hexadecimal digit of either case. -/
def hexDigit? (char : Char) : Option Nat :=
  if '0' ≤ char ∧ char ≤ '9' then some (char.toNat - '0'.toNat)
  else if 'a' ≤ char ∧ char ≤ 'f' then some (char.toNat - 'a'.toNat + 10)
  else if 'A' ≤ char ∧ char ≤ 'F' then some (char.toNat - 'A'.toNat + 10)
  else none

/-- Lower-case hexadecimal digits of a buffer. -/
def toHex : Buffer → List Char
  | [] => []
  | byte :: bytes =>
      Nat.digitChar (byte.toNat / 16) :: Nat.digitChar (byte.toNat % 16) :: toHex bytes

/-- Decode pairs of digits up to the first pair that is not hexadecimal, as `Buffer.from` does
with one-byte characters. -/
def fromHex : List Char → Buffer
  | high :: low :: rest =>
      match hexDigit? high, hexDigit? low with
      | some highValue, some lowValue =>
          UInt8.ofNat (16 * highValue + lowValue) :: fromHex rest
      | _, _ => []
  | _ => []

@[simp]
theorem hexDigit?_digitChar {digit : Nat} (small : digit < 16) :
    hexDigit? (Nat.digitChar digit) = some digit := by
  have checked : ∀ value : Fin 16, hexDigit? (Nat.digitChar value) = some value.val := by decide
  exact checked ⟨digit, small⟩

@[simp]
theorem fromHex_toHex (buffer : Buffer) : fromHex (toHex buffer) = buffer := by
  induction buffer with
  | nil => rfl
  | cons byte bytes ih =>
      have high : byte.toNat / 16 < 16 := Nat.div_lt_of_lt_mul byte.toNat_lt
      have low : byte.toNat % 16 < 16 := Nat.mod_lt _ (by decide)
      simp only [toHex, fromHex, hexDigit?_digitChar high, hexDigit?_digitChar low, ih,
        Nat.div_add_mod, UInt8.ofNat_toNat]

theorem length_toHex (buffer : Buffer) : (toHex buffer).length = 2 * buffer.length := by
  induction buffer with
  | nil => rfl
  | cons byte bytes ih =>
      simp only [toHex, List.length_cons, ih]
      omega

/-- Every written digit is an ASCII character. -/
theorem toNat_lt_of_mem_toHex {buffer : Buffer} {char : Char} (mem : char ∈ toHex buffer) :
    char.toNat < 128 := by
  have checked : ∀ value : Fin 16, (Nat.digitChar value).toNat < 128 := by decide
  induction buffer with
  | nil => simp [toHex] at mem
  | cons byte bytes ih =>
      have high : byte.toNat / 16 < 16 := Nat.div_lt_of_lt_mul byte.toNat_lt
      have low : byte.toNat % 16 < 16 := Nat.mod_lt _ (by decide)
      simp only [toHex, List.mem_cons] at mem
      rcases mem with rfl | rfl | mem
      · exact checked ⟨_, high⟩
      · exact checked ⟨_, low⟩
      · exact ih mem

/-- Every digit is an ASCII character. -/
theorem toNat_lt_of_hexDigit? {char : Char} (digit : (hexDigit? char).isSome) :
    char.toNat < 128 := by
  rw [hexDigit?] at digit
  split at digit
  · next decimal => exact Nat.lt_of_le_of_lt (Char.le_def.mp decimal.2) (by decide)
  · split at digit
    · next lower => exact Nat.lt_of_le_of_lt (Char.le_def.mp lower.2) (by decide)
    · split at digit
      · next upper => exact Nat.lt_of_le_of_lt (Char.le_def.mp upper.2) (by decide)
      · cases digit

/-- A digit of either case and the lower-case digit of its value. -/
theorem digitChar_of_hexDigit? {char : Char} {value : Nat} (digit : hexDigit? char = some value) :
    value < 16 ∧ Nat.digitChar value = char.toLower := by
  have checked : ∀ code : Fin 128, ∀ value ∈ hexDigit? (Char.ofNat code),
      value < 16 ∧ Nat.digitChar value = (Char.ofNat code).toLower := by decide
  have small : char.toNat < 128 := toNat_lt_of_hexDigit? (by rw [digit]; rfl)
  have found := checked ⟨char.toNat, small⟩ value
  rw [show Char.ofNat (⟨char.toNat, small⟩ : Fin 128).val = char from
    Char.ofNat_toNat char] at found
  exact found digit

/-- Pairs of digits are written back in lower case. -/
theorem toHex_fromHex {digits : List Char} (even : digits.length % 2 = 0)
    (hex : ∀ digit ∈ digits, (hexDigit? digit).isSome) :
    toHex (fromHex digits) = digits.map Char.toLower := by
  induction digits using fromHex.induct with
  | case1 high low rest highValue lowValue lowDigit highDigit ih =>
      obtain ⟨highSmall, highLower⟩ := digitChar_of_hexDigit? highDigit
      obtain ⟨lowSmall, lowLower⟩ := digitChar_of_hexDigit? lowDigit
      have value : (UInt8.ofNat (16 * highValue + lowValue)).toNat = 16 * highValue + lowValue := by
        rw [UInt8.toNat_ofNat']
        omega
      have evenRest : rest.length % 2 = 0 := by
        rw [List.length_cons, List.length_cons] at even
        omega
      have rest := ih evenRest fun digit mem =>
        hex digit (List.mem_cons_of_mem _ (List.mem_cons_of_mem _ mem))
      rw [fromHex, highDigit, lowDigit]
      simp only [toHex, value, rest, List.map_cons]
      rw [show (16 * highValue + lowValue) / 16 = highValue by omega,
        show (16 * highValue + lowValue) % 16 = lowValue by omega, highLower, lowLower]
  | case2 high low rest undecoded =>
      obtain ⟨highValue, highDigit⟩ := Option.isSome_iff_exists.mp (hex high List.mem_cons_self)
      obtain ⟨lowValue, lowDigit⟩ := Option.isSome_iff_exists.mp
        (hex low (List.mem_cons_of_mem _ List.mem_cons_self))
      exact absurd lowDigit (undecoded highValue lowValue highDigit)
  | case3 digits single =>
      cases digits with
      | nil => rfl
      | cons high rest =>
          cases rest with
          | nil => simp at even
          | cons low rest => exact absurd rfl (single high low rest)

/-- Every written digit is a hexadecimal digit. -/
theorem isSome_hexDigit?_of_mem_toHex {buffer : Buffer} {char : Char} (mem : char ∈ toHex buffer) :
    (hexDigit? char).isSome := by
  induction buffer with
  | nil => cases mem
  | cons byte bytes ih =>
      have high : byte.toNat / 16 < 16 := Nat.div_lt_of_lt_mul byte.toNat_lt
      have low : byte.toNat % 16 < 16 := Nat.mod_lt _ (by decide)
      simp only [toHex, List.mem_cons] at mem
      rcases mem with rfl | rfl | mem
      · rw [hexDigit?_digitChar high]
        rfl
      · rw [hexDigit?_digitChar low]
        rfl
      · exact ih mem

/-- A character is a digit when its lower case is one. -/
theorem isSome_hexDigit?_of_toLower {char : Char} (digit : (hexDigit? char.toLower).isSome) :
    (hexDigit? char).isSome := by
  have checked : ∀ code : Fin 128, (hexDigit? (Char.ofNat code).toLower).isSome →
      (hexDigit? (Char.ofNat code)).isSome := by decide
  by_cases upper : char.isUpper = true
  · have small : char.toNat < 128 := Nat.lt_of_le_of_lt (of_decide_eq_true upper).2 (by decide)
    have found := checked ⟨char.toNat, small⟩
    rw [show Char.ofNat (⟨char.toNat, small⟩ : Fin 128).val = char from
      Char.ofNat_toNat char] at found
    exact found digit
  · have same : char.toLower = char := dif_neg fun range => upper (decide_eq_true range)
    rw [same] at digit
    exact digit

/-- A text is written back in lower case only when it is made of pairs of digits. -/
theorem toHex_fromHex_iff {digits : List Char} :
    toHex (fromHex digits) = digits.map Char.toLower ↔
      digits.length % 2 = 0 ∧ ∀ digit ∈ digits, (hexDigit? digit).isSome := by
  constructor
  · intro writtenBack
    constructor
    · have length := congrArg List.length writtenBack
      rw [length_toHex, List.length_map] at length
      omega
    · intro digit mem
      apply isSome_hexDigit?_of_toLower
      apply isSome_hexDigit?_of_mem_toHex
      rw [writtenBack]
      exact List.mem_map_of_mem mem
  · rintro ⟨even, hex⟩
    exact toHex_fromHex even hex

end StacksApi.Text
