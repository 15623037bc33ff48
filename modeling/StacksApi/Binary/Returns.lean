import StacksApi.Binary.Reader

/-!
# What a reader can return

The values that a reader returns on some input, whatever the bytes are.  The rules
follow the sequencing of readers, so that the range of a field of a nested format is
that of the primitive that reads it.
-/

namespace StacksApi.Binary

/-- Whatever `read` returns has the property. -/
def Returns {ε α : Type} (read : ReadM ε α) (P : α → Prop) : Prop :=
  ∀ reader value final, read.run reader = .ok (value, final) → P value

namespace Returns

variable {ε α β : Type} {read : ReadM ε α} {next : α → ReadM ε β}
variable {P : α → Prop} {Q : β → Prop}

theorem anything (read : ReadM ε α) : Returns read fun _ => True :=
  fun _ _ _ _ => trivial

theorem pure {value : α} (holds : P value) : Returns (Pure.pure value : ReadM ε α) P := by
  intro reader value' final ran
  cases ran
  exact holds

theorem bind (first : Returns read P) (second : ∀ value, P value → Returns (next value) Q) :
    Returns (read >>= next) Q := by
  intro reader result final ran
  rw [StateT.run_bind] at ran
  cases ranFirst : read.run reader with
  | error error =>
      rw [ranFirst] at ran
      cases ran
  | ok outcome =>
      obtain ⟨value, middle⟩ := outcome
      rw [ranFirst] at ran
      exact second value (first reader value middle ranFirst) middle result final ran

/-- What comes before the last reader does not matter where that alone has the
property. -/
theorem bind_anything (second : ∀ value, Returns (next value) Q) : Returns (read >>= next) Q :=
  (anything read).bind fun value _ => second value

section Primitives

variable [BoundsError ε]

theorem readUInt (width : Nat) :
    Returns (readUInt width : ReadM ε Nat) fun value => value < 256 ^ width := by
  intro reader value final ran
  simp only [StateT.run, Binary.readUInt] at ran
  split at ran
  · next inside =>
      cases ran
      have length : ((reader.internalBuffer.drop reader.readOffset).take width).length = width := by
        rw [List.length_take, List.length_drop]
        omega
      have bound := decodeBigEndian_lt ((reader.internalBuffer.drop reader.readOffset).take width)
      rwa [length] at bound
  · cases ran

theorem readBigUInt64BE :
    Returns (readBigUInt64BE : ReadM ε Int) fun value => 0 ≤ value ∧ value < 2 ^ 64 := by
  refine (readUInt 8).bind fun value bound => pure ?_
  omega

theorem readBigInt64BE :
    Returns (readBigInt64BE : ReadM ε Int) fun value => -2 ^ 63 ≤ value ∧ value < 2 ^ 63 := by
  refine (readUInt 8).bind fun value bound => pure ?_
  rw [toSigned]
  split <;> omega

end Primitives

end Returns

end StacksApi.Binary
