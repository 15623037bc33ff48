import StacksApi.Binary.Reader

/-!
# Readers that depend on what they consume

A reader may stand anywhere in a buffer, and the buffer may go on after the bytes
that it consumes.  It is local when neither shows in what it returns: from the
consumed bytes alone it returns the same.  Only a reader that has come to the end
of the buffer may have returned less than it asked for, and so has to find the end
of the buffer behind the same bytes again.
-/

namespace StacksApi.Binary

variable {ε α β : Type}

/-- From the bytes `span`, which bytes `after` follow, `read` returns `value`
wherever they stand, as long as nothing follows them where nothing did. -/
def Spans (read : ReadM ε α) (span after : Buffer) (value : α) : Prop :=
  ∀ before after' : Buffer, (after = [] → after' = []) →
    read.run ⟨before ++ (span ++ after'), before.length⟩ =
      .ok (value, ⟨before ++ (span ++ after'), before.length + span.length⟩)

/-- What `read` returns depends only on the bytes that it consumes, and on the end
of the buffer where it has come to the end. -/
def Local (read : ReadM ε α) : Prop :=
  ∀ before rest value final, read.run ⟨before ++ rest, before.length⟩ = .ok (value, final) →
    ∃ span after, rest = span ++ after ∧ Spans read span after value

namespace Spans

variable {read : ReadM ε α} {span after : Buffer} {value : α}

/-- The consumed bytes alone give the same value. -/
theorem run_fromBuffer (spans : Spans read span after value) :
    read.run (BufferReader.fromBuffer span) = .ok (value, ⟨span, span.length⟩) := by
  simpa [BufferReader.fromBuffer] using spans [] [] fun _ => rfl

/-- Two readers in sequence consume the bytes of both. -/
theorem bind {next : α → ReadM ε β} {first second : Buffer} {result : β}
    (spansFirst : Spans read first (second ++ after) value)
    (spansSecond : Spans (next value) second after result) :
    Spans (read >>= next) (first ++ second) after result := by
  intro before after' atEnd
  have ranFirst := spansFirst before (second ++ after') (by
    intro none
    obtain ⟨noSecond, noAfter⟩ := List.append_eq_nil_iff.mp none
    rw [noSecond, atEnd noAfter, List.append_nil])
  have ranSecond := spansSecond (before ++ first) after' atEnd
  simp only [List.append_assoc, List.length_append] at ranFirst ranSecond ⊢
  rw [StateT.run_bind, ranFirst, ← Nat.add_assoc]
  exact ranSecond

end Spans

namespace Local

variable {read : ReadM ε α} {next : α → ReadM ε β}

theorem pure (value : α) : Local (Pure.pure value : ReadM ε α) := by
  intro before rest value' final ran
  cases ran
  refine ⟨[], rest, rfl, ?_⟩
  intro before' after' _
  rfl

theorem throw (error : ε) : Local (throw error : ReadM ε α) := by
  intro before rest value final ran
  cases ran

/-- A successful sequence of readers is a successful first reader and, after the
bytes that it consumed, a successful second one. -/
theorem run_bind {before rest : Buffer} {result : β} {final : BufferReader}
    (localRead : Local read)
    (ran : (read >>= next).run ⟨before ++ rest, before.length⟩ = .ok (result, final)) :
    ∃ value span after, rest = span ++ after ∧ Spans read span after value ∧
      (next value).run ⟨before ++ span ++ after, (before ++ span).length⟩ =
        .ok (result, final) := by
  rw [StateT.run_bind] at ran
  cases ranFirst : read.run ⟨before ++ rest, before.length⟩ with
  | error error =>
      rw [ranFirst] at ran
      cases ran
  | ok outcome =>
      obtain ⟨value, middle⟩ := outcome
      obtain ⟨span, after, rfl, spans⟩ := localRead before rest value middle ranFirst
      rw [spans before after id] at ran
      refine ⟨value, span, after, rfl, spans, ?_⟩
      rw [List.append_assoc, List.length_append]
      exact ran

theorem bind (localRead : Local read) (localNext : ∀ value, Local (next value)) :
    Local (read >>= next) := by
  intro before rest result final ran
  obtain ⟨value, first, later, rfl, spansFirst, ranNext⟩ := localRead.run_bind ran
  obtain ⟨second, after, rfl, spansSecond⟩ := localNext value _ later result final ranNext
  exact ⟨first ++ second, after, (List.append_assoc first second after).symm,
    spansFirst.bind spansSecond⟩

theorem map (f : α → β) (localRead : Local read) :
    Local (do let value ← read; Pure.pure (f value)) :=
  bind localRead fun value => Local.pure (f value)

section Primitives

variable [BoundsError ε]

theorem readUInt (width : Nat) : Local (readUInt width : ReadM ε Nat) := by
  intro before rest value final ran
  simp only [StateT.run, Binary.readUInt] at ran
  split at ran
  · next inside =>
      cases ran
      have enough : width ≤ rest.length := by
        rw [List.length_append] at inside
        omega
      refine ⟨rest.take width, rest.drop width, (List.take_append_drop width rest).symm, ?_⟩
      intro before' after' _
      have length : (rest.take width).length = width := List.length_take_of_le enough
      have inside' : before'.length + width ≤
          (before' ++ (rest.take width ++ after')).length := by
        rw [List.length_append, List.length_append, length]
        omega
      simp only [StateT.run, Binary.readUInt, if_pos inside', List.drop_left,
        List.take_left' length, length]
  · cases ran

theorem readUInt8Enum [ByteEnum α] (invalid : Nat → ε) : Local (readUInt8Enum α invalid) := by
  apply bind (readUInt 1)
  intro value
  cases (ByteEnum.ofNat? value : Option α) with
  | some member => exact Local.pure member
  | none => exact Local.throw (invalid value)

/-- There is no member of an enumeration to be read behind the end of a buffer. -/
theorem inside_of_readUInt8Enum [ByteEnum α] {next : α → ReadM ε β} {invalid : Nat → ε}
    {reader final : BufferReader} {result : β}
    (ran : (Binary.readUInt8Enum α invalid >>= next).run reader = .ok (result, final)) :
    reader.readOffset ≤ reader.internalBuffer.length := by
  by_contra beyond
  have refused : (readUInt8 : ReadM ε Nat).run reader = .error BoundsError.beyondBounds := by
    have outside : ¬reader.readOffset + 1 ≤ reader.internalBuffer.length := by omega
    simp only [StateT.run, readUInt8, Binary.readUInt, if_neg outside]
  rw [Binary.readUInt8Enum, StateT.run_bind, StateT.run_bind, refused] at ran
  cases ran

/-- A member of an enumeration is read from its byte. -/
theorem span_readUInt8Enum [ByteEnum α] {invalid : Nat → ε} {span after : Buffer} {member : α}
    (spans : Spans (Binary.readUInt8Enum α invalid) span after member) :
    ∃ byte, span = [byte] ∧ ByteEnum.ofNat? byte.toNat = some member := by
  have ran := spans.run_fromBuffer
  rw [Binary.readUInt8Enum, StateT.run_bind] at ran
  cases span with
  | nil => cases ran
  | cons byte rest =>
      have first : (readUInt8 : ReadM ε Nat).run (BufferReader.fromBuffer (byte :: rest)) =
          .ok (byte.toNat, ⟨byte :: rest, 1⟩) := by
        simp [StateT.run, readUInt8, Binary.readUInt, BufferReader.fromBuffer, decodeBigEndian]
      rw [first] at ran
      simp only [Bind.bind, Except.bind] at ran
      cases found : (ByteEnum.ofNat? byte.toNat : Option α) with
      | none =>
          rw [found] at ran
          cases ran
      | some other =>
          rw [found] at ran
          obtain ⟨sameMember, sameFinal⟩ := Prod.mk.inj (Except.ok.inj ran)
          have length : 1 = (byte :: rest).length := congrArg BufferReader.readOffset sameFinal
          have empty : rest = [] := List.length_eq_zero_iff.mp (Nat.succ.inj length).symm
          exact ⟨byte, by rw [empty], sameMember ▸ found⟩

/-- A reader on a fresh buffer of the bytes that are left is as local. -/
theorem withRemaining (localRead : Local read) : Local (withRemaining read) := by
  intro before rest value final ran
  simp only [StateT.run, Binary.withRemaining, List.drop_left] at ran
  cases ranInner : read (BufferReader.fromBuffer rest) with
  | error error =>
      rw [ranInner] at ran
      cases ran
  | ok outcome =>
      obtain ⟨inner, consumed⟩ := outcome
      obtain ⟨span, after, rfl, spans⟩ := localRead [] rest inner consumed ranInner
      have same : inner = value := by
        rw [ranInner] at ran
        simp only at ran
        split at ran
        · cases ran
        · cases ran
          rfl
      subst same
      refine ⟨span, after, rfl, ?_⟩
      intro before' after' atEnd
      have ran' := spans [] after' atEnd
      simp only [StateT.run, List.nil_append, List.length_nil, Nat.zero_add] at ran'
      have inside : before'.length + span.length ≤ (before' ++ (span ++ after')).length := by
        simp
      simp only [StateT.run, Binary.withRemaining, BufferReader.fromBuffer, List.drop_left, ran',
        setReadOffset, if_pos inside]

end Primitives

/-- What is left may be less than the requested length, but only at the end. -/
theorem readBuffer (length : Nat) : Local (readBuffer length : ReadM ε Buffer) := by
  have run : ∀ before rest : Buffer,
      (Binary.readBuffer length : ReadM ε Buffer).run ⟨before ++ rest, before.length⟩ =
        .ok (rest.take length, ⟨before ++ rest, before.length + (rest.take length).length⟩) := by
    intro before rest
    have endPoint : min (before ++ rest).length (before.length + length) =
        before.length + (rest.take length).length := by
      rw [List.length_append, Nat.add_min_add_left, List.length_take, Nat.min_comm]
    simp only [StateT.run, Binary.readBuffer, endPoint]
    rw [List.take_length_add_append, List.drop_left, List.take_eq_take_min, List.length_take,
      Nat.min_assoc, Nat.min_self, ← List.take_eq_take_min]
  intro before rest value final ran
  rw [run] at ran
  cases ran
  refine ⟨rest.take length, rest.drop length, (List.take_append_drop length rest).symm, ?_⟩
  intro before' after' atEnd
  have same : (rest.take length ++ after').take length = rest.take length := by
    by_cases short : rest.length ≤ length
    · rw [atEnd (List.drop_eq_nil_of_le short), List.append_nil, List.take_take, Nat.min_self]
    · exact List.take_left' (List.length_take_of_le (Nat.le_of_not_le short))
  rw [run, same]

theorem readString (length : Nat) : Local (readString length : ReadM ε String) :=
  map decodeAscii (readBuffer length)

theorem readMany (localRead : Local read) (count : Nat) : Local (readMany read count) := by
  induction count with
  | zero => exact Local.pure []
  | succ count ih => exact bind localRead fun item => map (item :: ·) ih

/-- The captured bytes are those that were consumed. -/
theorem run_bind_capture {next : α × Buffer → ReadM ε β} {before rest : Buffer} {result : β}
    {final : BufferReader} (localRead : Local read)
    (ran : (capture read >>= next).run ⟨before ++ rest, before.length⟩ = .ok (result, final)) :
    ∃ value span after, rest = span ++ after ∧ Spans read span after value ∧
      (next (value, span)).run ⟨before ++ span ++ after, (before ++ span).length⟩ =
        .ok (result, final) := by
  simp only [capture, StateT.run_bind, StateT.run_get, pure_bind] at ran
  cases ranInner : read.run ⟨before ++ rest, before.length⟩ with
  | error error =>
      rw [ranInner] at ran
      cases ran
  | ok outcome =>
      obtain ⟨value, middle⟩ := outcome
      obtain ⟨span, after, rfl, spans⟩ := localRead before rest value middle ranInner
      rw [spans before after id] at ran
      have captured : ((before ++ (span ++ after)).take (before.length + span.length)).drop
          before.length = span := by
        rw [List.take_length_add_append, List.drop_left, List.take_left]
      refine ⟨value, span, after, rfl, spans, ?_⟩
      rw [List.append_assoc, List.length_append, ← ran]
      change _ = (next (value, ((before ++ (span ++ after)).take
        (before.length + span.length)).drop before.length)).run _
      rw [captured]

end Local

end StacksApi.Binary
