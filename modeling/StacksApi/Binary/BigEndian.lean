import Mathlib.Data.List.Basic
import Mathlib.Tactic.Positivity

/-!
# Big-endian integers

Fixed-width unsigned integers as lists of bytes, most significant byte first,
and the two's-complement reading of such a field.  Both directions are
executable; the decoder is total on every list of bytes.
-/

namespace StacksApi.Binary

/-- A buffer of bytes. -/
abbrev Buffer := List UInt8

instance lawfulBEq_buffer : LawfulBEq Buffer := inferInstance

/-- The `width` low-order bytes of `n`, most significant byte first. -/
def bigEndian : Nat → Nat → Buffer
  | 0, _ => []
  | width + 1, n => bigEndian width (n / 256) ++ [UInt8.ofNat (n % 256)]

/-- The unsigned integer written by a list of bytes, most significant first. -/
def decodeBigEndian (bytes : Buffer) : Nat :=
  bytes.foldl (fun acc byte => 256 * acc + byte.toNat) 0

/-- The two's-complement reading of an unsigned field of `bits` bits. -/
def toSigned (bits n : Nat) : Int :=
  if n < 2 ^ (bits - 1) then (n : Int) else (n : Int) - 2 ^ bits

@[simp]
theorem length_bigEndian (width n : Nat) : (bigEndian width n).length = width := by
  induction width generalizing n with
  | zero => rfl
  | succ width ih => simp [bigEndian, ih]

theorem decodeBigEndian_append_singleton (bytes : Buffer) (byte : UInt8) :
    decodeBigEndian (bytes ++ [byte]) = 256 * decodeBigEndian bytes + byte.toNat := by
  simp [decodeBigEndian]

/-- A list of bytes writes an integer of as many bytes. -/
theorem decodeBigEndian_lt (bytes : Buffer) : decodeBigEndian bytes < 256 ^ bytes.length := by
  induction bytes using List.reverseRecOn with
  | nil => decide
  | append_singleton bytes byte ih =>
      have small : byte.toNat < 256 := byte.toNat_lt
      rw [decodeBigEndian_append_singleton, List.length_append, List.length_singleton, pow_succ]
      omega

/-- A number that fits in `width` bytes is read back unchanged. -/
theorem decodeBigEndian_bigEndian {width n : Nat} (fits : n < 256 ^ width) :
    decodeBigEndian (bigEndian width n) = n := by
  induction width generalizing n with
  | zero =>
      have zero : n = 0 := by simpa using fits
      subst n
      rfl
  | succ width ih =>
      have quotient : n / 256 < 256 ^ width := by
        rw [Nat.pow_succ] at fits
        exact Nat.div_lt_of_lt_mul (by rwa [Nat.mul_comm] at fits)
      have digit : (UInt8.ofNat (n % 256)).toNat = n % 256 := by
        rw [UInt8.toNat_ofNat']
        exact Nat.mod_mod n 256
      rw [bigEndian, decodeBigEndian_append_singleton, ih quotient, digit]
      exact Nat.div_add_mod n 256

theorem toSigned_of_lt {bits n : Nat} (small : n < 2 ^ (bits - 1)) : toSigned bits n = n :=
  if_pos small

/-- The two's-complement reading keeps the value exactly below half the range. -/
theorem toSigned_eq_self_iff {bits n : Nat} : toSigned bits n = n ↔ n < 2 ^ (bits - 1) := by
  constructor
  · intro same
    by_contra large
    rw [toSigned, if_neg large] at same
    have positive : (0 : Int) < 2 ^ bits := by positivity
    omega
  · exact toSigned_of_lt

end StacksApi.Binary
