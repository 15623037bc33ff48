import StacksApi.Binary.Reader

/-!
# Reading a buffer that was cut off

What readers do when the buffer ends inside the bytes that they recognise.  An
integer read fails there; a slice read returns what is left and comes to the end,
so that the cut is only noticed by the next read that needs a byte.  A reader
refuses a span when it fails on every proper prefix of it, and drains one when it
fails or comes to the end of the buffer.
-/

namespace StacksApi.Binary

variable {ε α β : Type}

/-- `read` fails on every proper prefix of `bytes`. -/
def Refuses (read : ReadM ε α) (bytes : Buffer) : Prop :=
  ∀ before cut : Buffer, cut <+: bytes → cut ≠ bytes →
    ∃ error, read.run ⟨before ++ cut, before.length⟩ = .error error

/-- On a proper prefix of `bytes`, `read` fails or comes to the end of the buffer. -/
def Drains (read : ReadM ε α) (bytes : Buffer) : Prop :=
  ∀ before cut : Buffer, cut <+: bytes → cut ≠ bytes → ∀ value final,
    read.run ⟨before ++ cut, before.length⟩ = .ok (value, final) →
      final = ⟨before ++ cut, (before ++ cut).length⟩

/-- `read` fails at the end of a buffer. -/
def Starves (read : ReadM ε α) : Prop :=
  ∀ buffer : Buffer, ∃ error, read.run ⟨buffer, buffer.length⟩ = .error error

/-- At the end of a buffer, `read` fails or stays there. -/
def Rests (read : ReadM ε α) : Prop :=
  ∀ (buffer : Buffer) (value : α) (final : BufferReader),
    read.run ⟨buffer, buffer.length⟩ = .ok (value, final) → final = ⟨buffer, buffer.length⟩

/-- `read` succeeds wherever it starts. -/
def Total (read : ReadM ε α) : Prop :=
  ∀ reader : BufferReader, ∃ value final, read.run reader = .ok (value, final)

/-- Wherever `bytes` end a buffer, `read` started at their first byte succeeds. -/
def Accepts (read : ReadM ε α) (bytes : Buffer) : Prop :=
  ∀ before : Buffer, ∃ value final, read.run ⟨before ++ bytes, before.length⟩ = .ok (value, final)

/-- A proper prefix of two spans ends in the first or in the second. -/
theorem properPrefix_append {cut first second : Buffer} (isPrefix : cut <+: first ++ second)
    (proper : cut ≠ first ++ second) :
    cut <+: first ∧ cut ≠ first ∨
      ∃ rest, cut = first ++ rest ∧ rest <+: second ∧ rest ≠ second := by
  rcases List.prefix_or_prefix_of_prefix isPrefix (List.prefix_append first second) with
    inFirst | ⟨rest, rfl⟩
  · by_cases whole : cut = first
    · right
      subst whole
      refine ⟨[], (List.append_nil cut).symm, List.nil_prefix, ?_⟩
      rintro rfl
      exact proper (List.append_nil cut).symm
    · exact Or.inl ⟨inFirst, whole⟩
  · right
    refine ⟨rest, rfl, (List.prefix_append_right_inj first).mp isPrefix, ?_⟩
    rintro rfl
    exact proper rfl

theorem length_lt_of_properPrefix {cut bytes : Buffer} (isPrefix : cut <+: bytes)
    (proper : cut ≠ bytes) : cut.length < bytes.length := by
  apply lt_of_le_of_ne isPrefix.length_le
  intro same
  exact proper (isPrefix.eq_of_length same)

/-! ## Relations -/

section Relations

variable {read : ReadM ε α} {bytes : Buffer}

theorem Refuses.drains (refuses : Refuses read bytes) : Drains read bytes := by
  intro before cut isPrefix proper value final ran
  obtain ⟨error, refused⟩ := refuses before cut isPrefix proper
  rw [ran] at refused
  cases refused

theorem Starves.rests (starves : Starves read) : Rests read := by
  intro buffer value final ran
  obtain ⟨error, refused⟩ := starves buffer
  rw [ran] at refused
  cases refused

theorem Total.accepts (total : Total read) (bytes : Buffer) : Accepts read bytes :=
  fun before => total ⟨before ++ bytes, before.length⟩

/-- The empty span has no proper prefix. -/
theorem Refuses.nil (read : ReadM ε α) : Refuses read [] :=
  fun _ _ isPrefix proper => absurd (List.prefix_nil.mp isPrefix) proper

/-- What recognises a span accepts it. -/
theorem Decodes.accepts {value : α} (reads : Decodes read bytes value) : Accepts read bytes := by
  intro before
  have ran := reads before []
  rw [List.append_nil] at ran
  exact ⟨_, _, ran⟩

end Relations

/-! ## Sequencing -/

section Bind

variable {read : ReadM ε α} {next : α → ReadM ε β} {first second : Buffer} {value : α}

theorem run_bind_of_error {reader : BufferReader} {error : ε}
    (refused : read.run reader = .error error) : (read >>= next).run reader = .error error := by
  rw [StateT.run_bind, refused]
  rfl

theorem run_bind_of_ok {reader middle : BufferReader}
    (ran : read.run reader = .ok (value, middle)) :
    (read >>= next).run reader = (next value).run middle := by
  rw [StateT.run_bind, ran]
  rfl

/-- After the first span, the second reader stands at the rest. -/
theorem Decodes.run_bind_append (reads : Decodes read first value) (before rest : Buffer) :
    (read >>= next).run ⟨before ++ (first ++ rest), before.length⟩ =
      (next value).run ⟨(before ++ first) ++ rest, (before ++ first).length⟩ := by
  rw [← List.append_assoc, List.length_append]
  exact run_bind_of_ok (reads before rest)

theorem Starves.bind (starves : Starves read) : Starves (read >>= next) := by
  intro buffer
  obtain ⟨error, refused⟩ := starves buffer
  exact ⟨error, run_bind_of_error refused⟩

theorem Rests.bind (rests : Rests read) (restsNext : ∀ value, Rests (next value)) :
    Rests (read >>= next) := by
  intro buffer result final ran
  cases ranFirst : read.run ⟨buffer, buffer.length⟩ with
  | error error =>
      rw [run_bind_of_error ranFirst] at ran
      cases ran
  | ok outcome =>
      obtain ⟨value, middle⟩ := outcome
      obtain rfl := rests buffer value middle ranFirst
      rw [run_bind_of_ok ranFirst] at ran
      exact restsNext value buffer result final ran

theorem Rests.bind_starves (rests : Rests read) (starves : ∀ value, Starves (next value)) :
    Starves (read >>= next) := by
  intro buffer
  cases ranFirst : read.run ⟨buffer, buffer.length⟩ with
  | error error => exact ⟨error, run_bind_of_error ranFirst⟩
  | ok outcome =>
      obtain ⟨value, middle⟩ := outcome
      obtain rfl := rests buffer value middle ranFirst
      rw [run_bind_of_ok ranFirst]
      exact starves value buffer

/-- What the first reader refuses is refused whatever comes after it. -/
theorem Refuses.bind_left (refuses : Refuses read first) : Refuses (read >>= next) first := by
  intro before cut isPrefix proper
  obtain ⟨error, refused⟩ := refuses before cut isPrefix proper
  exact ⟨error, run_bind_of_error refused⟩

theorem Total.bind (total : Total read) (totalNext : ∀ value, Total (next value)) :
    Total (read >>= next) := by
  intro reader
  obtain ⟨value, middle, ran⟩ := total reader
  rw [run_bind_of_ok ran]
  exact totalNext value middle

/-- A cut in the first span is refused by the first reader. -/
theorem Refuses.bind (reads : Decodes read first value) (refuses : Refuses read first)
    (refusesNext : Refuses (next value) second) : Refuses (read >>= next) (first ++ second) := by
  intro before cut isPrefix proper
  rcases properPrefix_append isPrefix proper with
    ⟨inFirst, notFirst⟩ | ⟨rest, rfl, inSecond, notSecond⟩
  · obtain ⟨error, refused⟩ := refuses before cut inFirst notFirst
    exact ⟨error, run_bind_of_error refused⟩
  · obtain ⟨error, refused⟩ := refusesNext (before ++ first) rest inSecond notSecond
    exact ⟨error, (reads.run_bind_append before rest).trans refused⟩

/-- A cut that the first reader does not notice is refused by one that needs a byte. -/
theorem Drains.bind_starves (reads : Decodes read first value) (drains : Drains read first)
    (starves : ∀ value, Starves (next value)) (refusesNext : Refuses (next value) second) :
    Refuses (read >>= next) (first ++ second) := by
  intro before cut isPrefix proper
  rcases properPrefix_append isPrefix proper with
    ⟨inFirst, notFirst⟩ | ⟨rest, rfl, inSecond, notSecond⟩
  · cases ranFirst : read.run ⟨before ++ cut, before.length⟩ with
    | error error => exact ⟨error, run_bind_of_error ranFirst⟩
    | ok outcome =>
        obtain ⟨short, middle⟩ := outcome
        obtain rfl := drains before cut inFirst notFirst short middle ranFirst
        rw [run_bind_of_ok ranFirst]
        exact starves short (before ++ cut)
  · obtain ⟨error, refused⟩ := refusesNext (before ++ first) rest inSecond notSecond
    exact ⟨error, (reads.run_bind_append before rest).trans refused⟩

theorem Drains.bind (reads : Decodes read first value) (drains : Drains read first)
    (rests : ∀ value, Rests (next value)) (drainsNext : Drains (next value) second) :
    Drains (read >>= next) (first ++ second) := by
  intro before cut isPrefix proper result final ran
  rcases properPrefix_append isPrefix proper with
    ⟨inFirst, notFirst⟩ | ⟨rest, rfl, inSecond, notSecond⟩
  · cases ranFirst : read.run ⟨before ++ cut, before.length⟩ with
    | error error =>
        rw [run_bind_of_error ranFirst] at ran
        cases ran
    | ok outcome =>
        obtain ⟨short, middle⟩ := outcome
        obtain rfl := drains before cut inFirst notFirst short middle ranFirst
        rw [run_bind_of_ok ranFirst] at ran
        exact rests short (before ++ cut) result final ran
  · rw [reads.run_bind_append before rest] at ran
    have ended := drainsNext (before ++ first) rest inSecond notSecond result final ran
    rw [ended, List.append_assoc]

theorem Decodes.bind_accepts (reads : Decodes read first value)
    (accepts : Accepts (next value) second) : Accepts (read >>= next) (first ++ second) := by
  intro before
  rw [reads.run_bind_append before second]
  exact accepts (before ++ first)

end Bind

section Pure

variable {read : ReadM ε α} {bytes : Buffer} (f : α → β)

theorem Rests.pure (value : α) : Rests (Pure.pure value : ReadM ε α) := by
  intro buffer other final ran
  cases ran
  rfl

theorem Total.pure (value : α) : Total (Pure.pure value : ReadM ε α) :=
  fun reader => ⟨value, reader, rfl⟩

theorem Rests.map (rests : Rests read) : Rests (do let a ← read; Pure.pure (f a)) :=
  rests.bind fun value => Rests.pure (f value)

theorem Total.map (total : Total read) : Total (do let a ← read; Pure.pure (f a)) :=
  total.bind fun value => Total.pure (f value)

theorem Refuses.map (refuses : Refuses read bytes) :
    Refuses (do let a ← read; Pure.pure (f a)) bytes :=
  refuses.bind_left

theorem Drains.map (drains : Drains read bytes) :
    Drains (do let a ← read; Pure.pure (f a)) bytes := by
  intro before cut isPrefix proper result final ran
  cases ranFirst : read.run ⟨before ++ cut, before.length⟩ with
  | error error =>
      rw [run_bind_of_error ranFirst] at ran
      cases ran
  | ok outcome =>
      obtain ⟨short, middle⟩ := outcome
      obtain rfl := drains before cut isPrefix proper short middle ranFirst
      rw [run_bind_of_ok ranFirst] at ran
      exact Rests.pure (f short) (before ++ cut) result final ran

theorem Accepts.map (accepts : Accepts read bytes) :
    Accepts (do let a ← read; Pure.pure (f a)) bytes := by
  intro before
  obtain ⟨value, final, ran⟩ := accepts before
  exact ⟨f value, final, run_bind_of_ok ran⟩

end Pure

/-! ## Primitives -/

section Primitives

variable [BoundsError ε]

theorem Refuses.readUInt (width : Nat) {bytes : Buffer} (sized : bytes.length = width) :
    Refuses (readUInt width : ReadM ε Nat) bytes := by
  intro before cut isPrefix proper
  have short := length_lt_of_properPrefix isPrefix proper
  have outside : ¬before.length + width ≤ (before ++ cut).length := by
    rw [List.length_append]
    omega
  exact ⟨BoundsError.beyondBounds, by simp only [StateT.run, Binary.readUInt, if_neg outside]⟩

theorem Starves.readUInt {width : Nat} (positive : 0 < width) :
    Starves (readUInt width : ReadM ε Nat) := by
  intro buffer
  have outside : ¬buffer.length + width ≤ buffer.length := by omega
  exact ⟨BoundsError.beyondBounds, by simp only [StateT.run, Binary.readUInt, if_neg outside]⟩

theorem Starves.readUInt8Enum [ByteEnum α] (invalid : Nat → ε) :
    Starves (readUInt8Enum α invalid) :=
  Starves.bind (Starves.readUInt (by decide))

theorem Refuses.readUInt8Enum [ByteEnum α] (invalid : Nat → ε) {bytes : Buffer}
    (sized : bytes.length = 1) : Refuses (readUInt8Enum α invalid) bytes :=
  (Refuses.readUInt 1 sized).bind_left

/-- A reader on a fresh buffer of the bytes that are left refuses the same spans. -/
theorem Refuses.withRemaining {inner : ReadM ε α} {bytes : Buffer}
    (refuses : Refuses inner bytes) : Refuses (withRemaining inner) bytes := by
  intro before cut isPrefix proper
  obtain ⟨error, refused⟩ := refuses [] cut isPrefix proper
  refine ⟨error, ?_⟩
  simp only [StateT.run, List.nil_append, List.length_nil] at refused
  simp only [StateT.run, Binary.withRemaining, BufferReader.fromBuffer, List.drop_left, refused]

/-- There is nothing behind the end that a reader of its own could consume. -/
theorem Rests.withRemaining (inner : ReadM ε α) : Rests (withRemaining inner) := by
  intro buffer value final ran
  simp only [StateT.run, Binary.withRemaining] at ran
  split at ran
  · cases ran
  · rename_i read consumed ranInner
    simp only [setReadOffset] at ran
    by_cases inside : buffer.length + consumed.readOffset ≤ buffer.length
    · simp only [if_pos inside] at ran
      cases ran
      have same : buffer.length + consumed.readOffset = buffer.length := by omega
      rw [same]
    · simp only [if_neg inside] at ran
      cases ran

end Primitives

theorem Drains.readBuffer {bytes : Buffer} {length : Nat} (sized : bytes.length = length) :
    Drains (readBuffer length : ReadM ε Buffer) bytes := by
  intro before cut isPrefix proper value final ran
  have short := length_lt_of_properPrefix isPrefix proper
  have endPoint : min (before ++ cut).length (before.length + length) = (before ++ cut).length := by
    rw [List.length_append]
    omega
  simp only [StateT.run, Binary.readBuffer, endPoint] at ran
  cases ran
  rfl

theorem Rests.readBuffer (length : Nat) : Rests (readBuffer length : ReadM ε Buffer) := by
  intro buffer value final ran
  have endPoint : min buffer.length (buffer.length + length) = buffer.length := by omega
  simp only [StateT.run, Binary.readBuffer, endPoint] at ran
  cases ran
  rfl

theorem Drains.readString {bytes : Buffer} {length : Nat} (sized : bytes.length = length) :
    Drains (readString length : ReadM ε String) bytes :=
  (Drains.readBuffer sized).map decodeAscii

theorem Rests.readString (length : Nat) : Rests (readString length : ReadM ε String) :=
  (Rests.readBuffer length).map decodeAscii

/-- A slice read takes what there is. -/
theorem Total.readBuffer (length : Nat) : Total (readBuffer length : ReadM ε Buffer) :=
  fun _ => ⟨_, _, rfl⟩

theorem Total.readString (length : Nat) : Total (readString length : ReadM ε String) :=
  (Total.readBuffer length).map decodeAscii

theorem Rests.readMany {read : ReadM ε α} (rests : Rests read) (count : Nat) :
    Rests (readMany read count) := by
  induction count with
  | zero => exact Rests.pure []
  | succ count ih => exact rests.bind fun item => ih.map (item :: ·)

section Many

variable {read : ReadM ε α} {encode : β → Buffer} {view : β → α} {items : List β}

theorem Refuses.readMany (reads : ∀ item ∈ items, Decodes read (encode item) (view item))
    (refuses : ∀ item ∈ items, Refuses read (encode item)) :
    Refuses (readMany read items.length) (items.flatMap encode) := by
  induction items with
  | nil => exact Refuses.nil _
  | cons item items ih =>
      have rest := ih (fun other mem => reads other (List.mem_cons_of_mem item mem))
        fun other mem => refuses other (List.mem_cons_of_mem item mem)
      exact Refuses.bind (reads item List.mem_cons_self) (refuses item List.mem_cons_self)
        (rest.map (view item :: ·))

theorem Drains.readMany (reads : ∀ item ∈ items, Decodes read (encode item) (view item))
    (drains : ∀ item ∈ items, Drains read (encode item)) (rests : Rests read) :
    Drains (readMany read items.length) (items.flatMap encode) := by
  induction items with
  | nil => exact (Refuses.nil _).drains
  | cons item items ih =>
      have rest := ih (fun other mem => reads other (List.mem_cons_of_mem item mem))
        fun other mem => drains other (List.mem_cons_of_mem item mem)
      exact Drains.bind (reads item List.mem_cons_self) (drains item List.mem_cons_self)
        (fun other => (rests.readMany items.length).map (other :: ·)) (rest.map (view item :: ·))

end Many

theorem Refuses.capture {read : ReadM ε α} {bytes : Buffer} (refuses : Refuses read bytes) :
    Refuses (capture read) bytes := by
  intro before cut isPrefix proper
  obtain ⟨error, refused⟩ := refuses before cut isPrefix proper
  refine ⟨error, ?_⟩
  simp only [Binary.capture, StateT.run_bind, StateT.run_get, pure_bind, refused]
  rfl

theorem Starves.capture {read : ReadM ε α} (starves : Starves read) : Starves (capture read) := by
  intro buffer
  obtain ⟨error, refused⟩ := starves buffer
  refine ⟨error, ?_⟩
  simp only [Binary.capture, StateT.run_bind, StateT.run_get, pure_bind, refused]
  rfl

end StacksApi.Binary
