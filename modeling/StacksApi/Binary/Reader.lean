import StacksApi.Binary.BigEndian

/-!
# Sequential reading from a byte buffer

A reader is a buffer with a cursor.  Integer reads fail when fewer bytes are
left than they need; slice reads return what is left and move the cursor to the
end.  `Decodes` says that a reader recognises one span of bytes wherever it
stands in a buffer, and the rules below compose such facts along the sequencing
of readers, so that a round trip of a nested format is proved field by field.
-/

namespace StacksApi.Binary

/-- A buffer with a read cursor. -/
structure BufferReader where
  internalBuffer : Buffer
  readOffset : Nat
  deriving DecidableEq

namespace BufferReader

/-- A reader at the start of a buffer. -/
def fromBuffer (buffer : Buffer) : BufferReader :=
  ⟨buffer, 0⟩

end BufferReader

/-- The error that the reading primitives raise themselves. -/
class BoundsError (ε : Type) where
  /-- An integer read, or a moved cursor, reaches past the end of the buffer. -/
  beyondBounds : ε

/-- Readers that move the cursor of a buffer or fail. -/
abbrev ReadM (ε α : Type) : Type :=
  StateT BufferReader (Except ε) α

/-- An enumeration whose members are written as distinct bytes. -/
class ByteEnum (α : Type) where
  toNat : α → Nat
  ofNat? : Nat → Option α
  ofNat?_toNat : ∀ member, ofNat? (toNat member) = some member
  toNat_lt : ∀ member, toNat member < 256

variable {ε α β : Type}

/-! ## Primitives -/

section Primitives

variable [BoundsError ε]

/-- Read an unsigned big-endian integer of `width` bytes. -/
def readUInt (width : Nat) : ReadM ε Nat := fun reader =>
  if reader.readOffset + width ≤ reader.internalBuffer.length then
    .ok (decodeBigEndian ((reader.internalBuffer.drop reader.readOffset).take width),
      { reader with readOffset := reader.readOffset + width })
  else
    .error BoundsError.beyondBounds

/-- One byte as a number. -/
def readUInt8 : ReadM ε Nat := readUInt 1

/-- Two bytes as a number, the most significant one first. -/
def readUInt16BE : ReadM ε Nat := readUInt 2

/-- Four bytes as a number, the most significant one first. -/
def readUInt32BE : ReadM ε Nat := readUInt 4

/-- An unsigned 64-bit field. -/
def readBigUInt64BE : ReadM ε Int := do
  let value ← readUInt 8
  pure (value : Int)

/-- A 64-bit field read in two's complement. -/
def readBigInt64BE : ReadM ε Int := do
  let value ← readUInt 8
  pure (toSigned 64 value)

/-- Move the cursor, refusing a target past the end of the buffer. -/
def setReadOffset (offset : Nat) : ReadM ε Unit := fun reader =>
  if offset ≤ reader.internalBuffer.length then
    .ok ((), { reader with readOffset := offset })
  else
    .error BoundsError.beyondBounds

/-- Run a reader of its own over the bytes that are left, then advance the
cursor by what it consumed. -/
def withRemaining (inner : ReadM ε α) : ReadM ε α := fun reader =>
  match inner.run (BufferReader.fromBuffer (reader.internalBuffer.drop reader.readOffset)) with
  | .error error => .error error
  | .ok (value, consumed) =>
      match (setReadOffset (reader.readOffset + consumed.readOffset)).run reader with
      | .error error => .error error
      | .ok ((), advanced) => .ok (value, advanced)

end Primitives

/-- The next `length` bytes, or what is left of them. -/
def readBuffer (length : Nat) : ReadM ε Buffer := fun reader =>
  let endPoint := min reader.internalBuffer.length (reader.readOffset + length)
  .ok ((reader.internalBuffer.take endPoint).drop reader.readOffset,
    { reader with readOffset := endPoint })

/-- The text of bytes under the `ascii` encoding, which ignores the top bit. -/
def decodeAscii (bytes : Buffer) : String :=
  String.ofList (bytes.map fun byte => Char.ofNat (byte.toNat % 128))

/-- The bytes of a text of seven-bit characters. -/
def encodeAscii (text : String) : Buffer :=
  text.toList.map fun char => UInt8.ofNat char.toNat

/-- A text of seven-bit characters survives its `ascii` bytes. -/
theorem decodeAscii_encodeAscii {text : String}
    (ascii : ∀ char ∈ text.toList, char.toNat < 128) :
    decodeAscii (encodeAscii text) = text := by
  have chars : text.toList.map (fun char =>
      Char.ofNat ((UInt8.ofNat char.toNat).toNat % 128)) = text.toList := by
    refine (List.map_congr_left fun char mem => ?_).trans (List.map_id _)
    have small := ascii char mem
    rw [UInt8.toNat_ofNat', Nat.mod_mod_of_dvd _ (by decide), Nat.mod_eq_of_lt small]
    exact Char.ofNat_toNat char
  rw [decodeAscii, encodeAscii, List.map_map]
  exact (congrArg String.ofList chars).trans String.ofList_toList

/-- The next `length` bytes as `ascii` text, or what is left of them. -/
def readString (length : Nat) : ReadM ε String := do
  let bytes ← readBuffer length
  pure (decodeAscii bytes)

/-- Read a byte that must be one of the values of an enumeration. -/
def readUInt8Enum [BoundsError ε] (α : Type) [ByteEnum α] (invalid : Nat → ε) : ReadM ε α := do
  let value ← readUInt8
  match ByteEnum.ofNat? value with
  | some member => pure member
  | none => throw (invalid value)

/-- Read a fixed number of items in sequence. -/
def readMany (read : ReadM ε α) : Nat → ReadM ε (List α)
  | 0 => pure []
  | count + 1 => do
      let item ← read
      let items ← readMany read count
      pure (item :: items)

/-- Also return the bytes between the cursor before and after a reader. -/
def capture (read : ReadM ε α) : ReadM ε (α × Buffer) := do
  let start ← get
  let value ← read
  let stop ← get
  pure (value, (stop.internalBuffer.take stop.readOffset).drop start.readOffset)

/-! ## Recognising a span of bytes -/

/-- Wherever `bytes` stand in a buffer, `read` started at their first byte
returns `value` and leaves the cursor after their last. -/
def Decodes (read : ReadM ε α) (bytes : Buffer) (value : α) : Prop :=
  ∀ before after : Buffer,
    read.run ⟨before ++ bytes ++ after, before.length⟩ =
      .ok (value, ⟨before ++ bytes ++ after, before.length + bytes.length⟩)

namespace Decodes

/-- A reader started on a buffer that is the span alone. -/
theorem run_fromBuffer {read : ReadM ε α} {bytes : Buffer} {value : α}
    (reads : Decodes read bytes value) :
    read.run (BufferReader.fromBuffer bytes) = .ok (value, ⟨bytes, bytes.length⟩) := by
  simpa [BufferReader.fromBuffer] using reads [] []

theorem pure (value : α) : Decodes (Pure.pure value : ReadM ε α) [] value := by
  intro before after
  simp only [StateT.run_pure, List.append_nil, List.length_nil, Nat.add_zero]
  rfl

/-- Sequencing readers concatenates the spans they recognise. -/
theorem bind {read : ReadM ε α} {next : α → ReadM ε β} {first second : Buffer}
    {value : α} {result : β} (readFirst : Decodes read first value)
    (readSecond : Decodes (next value) second result) :
    Decodes (read >>= next) (first ++ second) result := by
  intro before after
  have ranFirst := readFirst before (second ++ after)
  have ranSecond := readSecond (before ++ first) after
  simp only [List.append_assoc, List.length_append] at ranFirst ranSecond ⊢
  rw [StateT.run_bind, ranFirst, ← Nat.add_assoc]
  exact ranSecond

/-- The last reader of a sequence may return without reading. -/
theorem map {read : ReadM ε α} {bytes : Buffer} {value : α} (f : α → β)
    (reads : Decodes read bytes value) :
    Decodes (do let a ← read; Pure.pure (f a)) bytes (f value) := by
  rw [← List.append_nil bytes]
  exact bind reads (Decodes.pure (f value))

section Primitives

variable [BoundsError ε]

theorem readUInt {width n : Nat} (fits : n < 256 ^ width) :
    Decodes (readUInt width : ReadM ε Nat) (bigEndian width n) n := by
  intro before after
  have inside : before.length + width ≤ (before ++ bigEndian width n ++ after).length := by
    simp
  have span : ((before ++ bigEndian width n ++ after).drop before.length).take width =
      bigEndian width n := by
    simp [List.append_assoc]
  simp only [StateT.run, Binary.readUInt, if_pos inside, span, decodeBigEndian_bigEndian fits,
    length_bigEndian]

theorem readUInt8 {n : Nat} (fits : n < 256) :
    Decodes (readUInt8 : ReadM ε Nat) (bigEndian 1 n) n :=
  readUInt (by simpa using fits)

theorem readUInt16BE {n : Nat} (fits : n < 2 ^ 16) :
    Decodes (readUInt16BE : ReadM ε Nat) (bigEndian 2 n) n :=
  readUInt fits

theorem readUInt32BE {n : Nat} (fits : n < 2 ^ 32) :
    Decodes (readUInt32BE : ReadM ε Nat) (bigEndian 4 n) n :=
  readUInt fits

theorem readBigUInt64BE {n : Nat} (fits : n < 2 ^ 64) :
    Decodes (readBigUInt64BE : ReadM ε Int) (bigEndian 8 n) n :=
  map _ (readUInt fits)

theorem readBigInt64BE {n : Nat} (fits : n < 2 ^ 64) :
    Decodes (readBigInt64BE : ReadM ε Int) (bigEndian 8 n) (toSigned 64 n) :=
  map _ (readUInt fits)

theorem readUInt8Enum [ByteEnum α] {invalid : Nat → ε} (member : α) :
    Decodes (readUInt8Enum α invalid) (bigEndian 1 (ByteEnum.toNat member)) member := by
  rw [← List.append_nil (bigEndian 1 (ByteEnum.toNat member))]
  refine bind (readUInt8 (ByteEnum.toNat_lt member)) ?_
  rw [ByteEnum.ofNat?_toNat]
  exact Decodes.pure member

/-- A reader that recognises a span anywhere also does so on a fresh buffer
made of the bytes that are left. -/
theorem withRemaining {inner : ReadM ε α} {bytes : Buffer} {value : α}
    (reads : Decodes inner bytes value) : Decodes (withRemaining inner) bytes value := by
  intro before after
  have ran := reads [] after
  simp only [List.nil_append, List.length_nil, Nat.zero_add] at ran
  have left : (before ++ bytes ++ after).drop before.length = bytes ++ after := by
    simp [List.append_assoc]
  have inside : before.length + bytes.length ≤ (before ++ bytes ++ after).length := by
    simp
  simp only [StateT.run] at ran
  simp only [StateT.run, Binary.withRemaining, BufferReader.fromBuffer, left, ran, setReadOffset,
    if_pos inside]

end Primitives

theorem readBuffer (bytes : Buffer) :
    Decodes (readBuffer bytes.length : ReadM ε Buffer) bytes bytes := by
  intro before after
  simp [StateT.run, Binary.readBuffer, List.take_append, List.append_assoc]

theorem readString {text : String} (ascii : ∀ char ∈ text.toList, char.toNat < 128) :
    Decodes (readString (encodeAscii text).length : ReadM ε String) (encodeAscii text) text := by
  have decoded : Decodes (Binary.readString (encodeAscii text).length : ReadM ε String)
      (encodeAscii text) (decodeAscii (encodeAscii text)) :=
    map decodeAscii (readBuffer (encodeAscii text))
  rwa [decodeAscii_encodeAscii ascii] at decoded

/-- Items read in sequence recognise the concatenation of their spans. -/
theorem readMany {read : ReadM ε α} {encode : β → Buffer} {view : β → α} {items : List β}
    (reads : ∀ item ∈ items, Decodes read (encode item) (view item)) :
    Decodes (readMany read items.length) (items.flatMap encode) (items.map view) := by
  induction items with
  | nil => exact Decodes.pure []
  | cons item items ih =>
      have readItem := reads item List.mem_cons_self
      have readItems := ih fun other mem => reads other (List.mem_cons_of_mem item mem)
      simp only [List.length_cons, List.flatMap_cons, List.map_cons, Binary.readMany]
      exact bind readItem (map (view item :: ·) readItems)

/-- The captured bytes are the recognised span itself. -/
theorem capture {read : ReadM ε α} {bytes : Buffer} {value : α}
    (reads : Decodes read bytes value) : Decodes (capture read) bytes (value, bytes) := by
  intro before after
  have ran := reads before after
  simp only [Binary.capture, StateT.run_bind, StateT.run_get, pure_bind, ran]
  have span : ((before ++ bytes ++ after).take (before.length + bytes.length)).drop before.length =
      bytes := by
    simp [List.take_append, List.append_assoc]
  exact congrArg (fun slice => Except.ok ((value, slice), _)) span

end Decodes

end StacksApi.Binary
