import StacksApi.P2p.Block
import StacksApi.Transition.Chunked

/-!
# Messages of peers

`readMessages` of `p2p/messages.ts` on a stream whose bytes arrive in chunks.  A message
is a preamble of fixed length and a payload of the length that the preamble gives, in
which anything may follow the message.  What is read does not depend on the chunks.
-/

namespace StacksApi.P2p

open StacksApi.Binary
open StacksApi.Transition

/-! ## Messages -/

/-- Types of messages between nodes. -/
inductive StacksMessageTypeID
  | handshake
  | handshakeAccept
  | handshakeReject
  | getNeighbors
  | neighbors
  | getBlocksInv
  | blocksInv
  | getBlocks
  | blocks
  | getMicroblocks
  | microblocks
  | transaction
  | nack
  | ping
  | pong
  | reserved
  deriving DecidableEq

instance : ByteEnum StacksMessageTypeID where
  toNat
    | .handshake => 0
    | .handshakeAccept => 1
    | .handshakeReject => 2
    | .getNeighbors => 3
    | .neighbors => 4
    | .getBlocksInv => 5
    | .blocksInv => 6
    | .getBlocks => 7
    | .blocks => 8
    | .getMicroblocks => 9
    | .microblocks => 10
    | .transaction => 11
    | .nack => 12
    | .ping => 13
    | .pong => 14
    | .reserved => 255
  ofNat?
    | 0 => some .handshake
    | 1 => some .handshakeAccept
    | 2 => some .handshakeReject
    | 3 => some .getNeighbors
    | 4 => some .neighbors
    | 5 => some .getBlocksInv
    | 6 => some .blocksInv
    | 7 => some .getBlocks
    | 8 => some .blocks
    | 9 => some .getMicroblocks
    | 10 => some .microblocks
    | 11 => some .transaction
    | 12 => some .nack
    | 13 => some .ping
    | 14 => some .pong
    | 255 => some .reserved
    | _ => none
  ofNat?_toNat member := by cases member <;> rfl
  toNat_lt member := by cases member <;> decide

/-- `getEnumDescription` of a message type. -/
def StacksMessageTypeID.description (typeId : StacksMessageTypeID) : String :=
  let enumKey :=
    match typeId with
    | .handshake => "Handshake"
    | .handshakeAccept => "HandshakeAccept"
    | .handshakeReject => "HandshakeReject"
    | .getNeighbors => "GetNeighbors"
    | .neighbors => "Neighbors"
    | .getBlocksInv => "GetBlocksInv"
    | .blocksInv => "BlocksInv"
    | .getBlocks => "GetBlocks"
    | .blocks => "Blocks"
    | .getMicroblocks => "GetMicroblocks"
    | .microblocks => "Microblocks"
    | .transaction => "Transaction"
    | .nack => "Nack"
    | .ping => "Ping"
    | .pong => "Pong"
    | .reserved => "Reserved"
  toString (ByteEnum.toNat typeId) ++ " '" ++ enumKey ++ "'"

/-- What stands before the payload of a message. -/
structure Preamble where
  peerVersion : Nat
  networkId : Nat
  sequenceNumber : Nat
  burnBlockHeight : Int
  burnConsensusHash : Buffer
  burnStableBlockHeight : Int
  burnStableConsensusHash : Buffer
  additionalData : Nat
  signature : Buffer
  /-- The length of the following payload, including the relayers vector. -/
  payloadLength : Nat
  deriving DecidableEq

/-- Bytes of a consensus hash. -/
def consensusHashEncodedSize : Nat := 20

/-- Bytes of the signature of a message. -/
def messageSignatureEncodedSize : Nat := 65

/-- Bytes of a preamble. -/
def preambleEncodedSize : Nat :=
  4 + 4 + 4 + 8 + consensusHashEncodedSize + 8 + consensusHashEncodedSize + 4 +
    messageSignatureEncodedSize + 4

/-- The fields of `readPreamble`, which it reads from a buffer of their whole length. -/
def readPreamble : ReadM ApiError Preamble := do
  let peerVersion ← readUInt32BE
  let networkId ← readUInt32BE
  let sequenceNumber ← readUInt32BE
  let burnBlockHeight ← readBigUInt64BE
  let burnConsensusHash ← readBuffer consensusHashEncodedSize
  let burnStableBlockHeight ← readBigUInt64BE
  let burnStableConsensusHash ← readBuffer consensusHashEncodedSize
  let additionalData ← readUInt32BE
  let signature ← readBuffer messageSignatureEncodedSize
  let payloadLength ← readUInt32BE
  return { peerVersion, networkId, sequenceNumber, burnBlockHeight, burnConsensusHash,
           burnStableBlockHeight, burnStableConsensusHash, additionalData, signature,
           payloadLength }

/-- Bytes of what is said of one relayer. -/
def relayDataEncodedSize : Nat := 107

/-- Read a count and the bytes of so many relayers. -/
def readRelayers : ReadM ApiError Buffer := do
  let length ← readUInt32BE
  if length = 0 then return []
  else readBuffer (length * relayDataEncodedSize)

/-- A message that is read. -/
inductive StacksMessage (CV : Type)
  | blocks (blocks : List (Block CV))
  | transaction (transaction : Transaction CV)
  deriving DecidableEq

section Reading

variable {CV : Type} (clarity : ClarityLibrary CV)

/-- What a turn of the loop of `readMessages` makes of a payload. -/
def readMessage : ReadM ApiError (StacksMessage CV) := do
  let _ ← readRelayers
  let messageTypeId ← readUInt8Enum StacksMessageTypeID fun n =>
    .messageParsing s!"unexpected Stacks message type ID {n}"
  match messageTypeId with
  | .blocks => return .blocks (← readBlocks clarity)
  | .transaction => return .transaction (← readTransaction clarity)
  | other => throw (.notImplemented ("stacks message type: " ++ other.description))

/-- Where `readMessages` is: at one of its two reads of the stream, or ended by an error. -/
inductive MessagesReader
  | preamble
  | payload (preamble : Preamble)
  | failed (error : ApiError)
  deriving DecidableEq

/-- The loop of `readMessages`, which waits for a preamble and then for its payload. -/
def messagesConsumer : Consumer MessagesReader UInt8 (StacksMessage CV) where
  demand
    | .preamble => some preambleEncodedSize
    | .payload preamble => some preamble.payloadLength
    | .failed _ => none
  receive reader bytes :=
    match reader with
    | .preamble =>
        match readPreamble.run (BufferReader.fromBuffer bytes) with
        | .ok (preamble, _) => (.payload preamble, [])
        | .error error => (.failed error, [])
    | .payload _ =>
        match (readMessage clarity).run (BufferReader.fromBuffer bytes) with
        | .ok (message, _) => (.preamble, [message])
        | .error error => (.failed error, [])
    | .failed error => (.failed error, [])

/-- The stream before its first byte. -/
def openedStream : Feed MessagesReader UInt8 (StacksMessage CV) where
  state := .preamble
  buffered := []
  produced := []

/-- `readMessages` after chunks of the stream have arrived. -/
def readMessages (chunks : List Buffer) : Feed MessagesReader UInt8 (StacksMessage CV) :=
  chunks.foldl (Feed.arrive (messagesConsumer clarity)) openedStream

end Reading

/-! ## Frames -/

/-- The fields of the preamble fit their places. -/
structure Preamble.WellFormed (preamble : Preamble) : Prop where
  peerVersion : preamble.peerVersion < 2 ^ 32
  networkId : preamble.networkId < 2 ^ 32
  sequenceNumber : preamble.sequenceNumber < 2 ^ 32
  burnBlockHeight : IsU64 preamble.burnBlockHeight
  burnConsensusHash : preamble.burnConsensusHash.length = 20
  burnStableBlockHeight : IsU64 preamble.burnStableBlockHeight
  burnStableConsensusHash : preamble.burnStableConsensusHash.length = 20
  additionalData : preamble.additionalData < 2 ^ 32
  signature : preamble.signature.length = 65
  payloadLength : preamble.payloadLength < 2 ^ 32

/-- The bytes of a preamble. -/
def encodePreamble (preamble : Preamble) : Buffer :=
  bigEndian 4 preamble.peerVersion ++ (bigEndian 4 preamble.networkId ++
    (bigEndian 4 preamble.sequenceNumber ++ (encodeU64 preamble.burnBlockHeight ++
      (preamble.burnConsensusHash ++ (encodeU64 preamble.burnStableBlockHeight ++
        (preamble.burnStableConsensusHash ++ (bigEndian 4 preamble.additionalData ++
          (preamble.signature ++ bigEndian 4 preamble.payloadLength))))))))

theorem length_encodePreamble {preamble : Preamble} (valid : preamble.WellFormed) :
    (encodePreamble preamble).length = preambleEncodedSize := by
  simp only [encodePreamble, encodeU64, List.length_append, length_bigEndian,
    valid.burnConsensusHash, valid.burnStableConsensusHash, valid.signature]
  rfl

theorem encodePreamble_ne_nil {preamble : Preamble} (valid : preamble.WellFormed) :
    encodePreamble preamble ≠ [] := by
  apply List.ne_nil_of_length_pos
  rw [length_encodePreamble valid]
  decide

theorem decodes_preamble {preamble : Preamble} (valid : preamble.WellFormed) :
    Decodes readPreamble (encodePreamble preamble) preamble := by
  refine (Decodes.readUInt32BE valid.peerVersion).bind ?_
  refine (Decodes.readUInt32BE valid.networkId).bind ?_
  refine (Decodes.readUInt32BE valid.sequenceNumber).bind ?_
  refine (decodes_u64 valid.burnBlockHeight).bind ?_
  refine (decodes_bytes valid.burnConsensusHash).bind ?_
  refine (decodes_u64 valid.burnStableBlockHeight).bind ?_
  refine (decodes_bytes valid.burnStableConsensusHash).bind ?_
  refine (Decodes.readUInt32BE valid.additionalData).bind ?_
  refine (decodes_bytes valid.signature).bind ?_
  have payloadLength : Decodes (readUInt32BE : ReadM ApiError Nat) _ _ :=
    Decodes.readUInt32BE valid.payloadLength
  exact payloadLength.map fun payloadLength => { preamble with payloadLength }

/-- A count and the data of as many relayers. -/
def encodeRelayers (relayers : List Buffer) : Buffer :=
  bigEndian 4 relayers.length ++ relayers.flatten

theorem length_flatten_relayers {relayers : List Buffer}
    (sized : ∀ relayer ∈ relayers, relayer.length = relayDataEncodedSize) :
    relayers.flatten.length = relayers.length * relayDataEncodedSize := by
  rw [List.length_flatten, List.map_congr_left sized, List.map_const', List.sum_replicate_nat]

theorem decodes_relayers {relayers : List Buffer} (count : relayers.length < 2 ^ 32)
    (sized : ∀ relayer ∈ relayers, relayer.length = relayDataEncodedSize) :
    Decodes readRelayers (encodeRelayers relayers) relayers.flatten := by
  refine (Decodes.readUInt32BE count).bind ?_
  split
  · next none =>
      rw [List.length_eq_zero_iff.mp none]
      exact Decodes.pure []
  · exact decodes_bytes (length_flatten_relayers sized)

/-- A message as a peer sends it.  Anything may follow it in its payload. -/
structure Frame (CV : Type) where
  preamble : Preamble
  relayers : List Buffer
  message : StacksMessage CV
  trailing : Buffer

section Frames

variable {CV : Type}

/-- The contents of the message are well-formed. -/
def StacksMessage.WellFormed : StacksMessage CV → Prop
  | .blocks entries => entries.length < 2 ^ 32 ∧ ∀ block ∈ entries, block.WellFormed
  | .transaction tx => tx.WellFormed

/-- The amounts that go through the signed read are below `2 ^ 63`. -/
def StacksMessage.AmountsSigned : StacksMessage CV → Prop
  | .blocks entries => ∀ block ∈ entries, block.AmountsSigned
  | .transaction tx => tx.AmountsSigned

variable (clarity : ClarityLibrary CV)

/-- The bytes of a message. -/
def encodeMessage : StacksMessage CV → Buffer
  | .blocks blocks => encodeEnum StacksMessageTypeID.blocks ++ encodeBlocks clarity blocks
  | .transaction tx => encodeEnum StacksMessageTypeID.transaction ++ encodeTransaction clarity tx

/-- The message with the raw byte fields of its transactions cut from their encodings. -/
def StacksMessage.withRawBytes : StacksMessage CV → StacksMessage CV
  | .blocks entries => .blocks (entries.map fun block => block.withRawBytes clarity)
  | .transaction tx => .transaction (tx.withRawBytes clarity)

/-- The bytes of the payload of a frame. -/
def encodePayloadOf (frame : Frame CV) : Buffer :=
  encodeRelayers frame.relayers ++ encodeMessage clarity frame.message ++ frame.trailing

/-- The bytes of a frame. -/
def encodeFrame (frame : Frame CV) : Buffer :=
  encodePreamble frame.preamble ++ encodePayloadOf clarity frame

/-- The parts of the frame are well-formed, and the preamble has the length of the payload. -/
structure Frame.WellFormed (frame : Frame CV) : Prop where
  preamble : frame.preamble.WellFormed
  payloadLength : frame.preamble.payloadLength = (encodePayloadOf clarity frame).length
  relayerCount : frame.relayers.length < 2 ^ 32
  relayers : ∀ relayer ∈ frame.relayers, relayer.length = relayDataEncodedSize
  message : frame.message.WellFormed

variable {clarity}

/-- A payload has at least the count of its relayers. -/
theorem encodePayloadOf_ne_nil (frame : Frame CV) : encodePayloadOf clarity frame ≠ [] := by
  apply List.ne_nil_of_length_pos
  rw [encodePayloadOf, encodeRelayers, List.length_append, List.length_append, List.length_append,
    length_bigEndian]
  omega

theorem decodes_message (inverts : clarity.RoundTrips) {frame : Frame CV}
    (valid : frame.WellFormed clarity) (signed : frame.message.AmountsSigned) :
    Decodes (readMessage clarity)
      (encodeRelayers frame.relayers ++ encodeMessage clarity frame.message)
      (frame.message.withRawBytes clarity) := by
  obtain ⟨preamble, relayers, message, trailing⟩ := frame
  refine (decodes_relayers valid.relayerCount valid.relayers).bind ?_
  have wellFormed := valid.message
  cases message with
  | blocks entries =>
      exact (decodes_enum StacksMessageTypeID.blocks).bind
        ((decodes_blocks inverts wellFormed.1 wellFormed.2 signed).map StacksMessage.blocks)
  | transaction tx =>
      exact (decodes_enum StacksMessageTypeID.transaction).bind
        ((decodes_signedTransaction inverts wellFormed signed).map StacksMessage.transaction)

/-- The message is read from its payload, whatever follows it there. -/
theorem readMessage_payload (inverts : clarity.RoundTrips) {frame : Frame CV}
    (valid : frame.WellFormed clarity) (signed : frame.message.AmountsSigned) :
    ∃ reader, (readMessage clarity).run (BufferReader.fromBuffer (encodePayloadOf clarity frame)) =
      .ok (frame.message.withRawBytes clarity, reader) :=
  ⟨_, decodes_message inverts valid signed [] frame.trailing⟩

/-! ## Chunks -/

variable {feed : Feed MessagesReader UInt8 (StacksMessage CV)} {rest : Buffer}

/-- A frame at the front of the buffer is read in two steps. -/
theorem settle_frame (inverts : clarity.RoundTrips) {frame : Frame CV}
    (valid : frame.WellFormed clarity) (signed : frame.message.AmountsSigned)
    (state : feed.state = .preamble)
    (buffered : feed.buffered = encodeFrame clarity frame ++ rest) :
    feed.settle (messagesConsumer clarity) =
      Feed.settle (messagesConsumer clarity)
        { state := .preamble
          buffered := rest
          produced := feed.produced ++ [frame.message.withRawBytes clarity] } := by
  obtain ⟨_, message⟩ := readMessage_payload inverts valid signed
  have preamble := (decodes_preamble valid.preamble).run_fromBuffer
  have preambleDemand : (messagesConsumer clarity).demand feed.state =
      some (encodePreamble frame.preamble).length := by
    rw [state, length_encodePreamble valid.preamble]
    rfl
  rw [encodeFrame, List.append_assoc] at buffered
  rw [Feed.settle_of_front preambleDemand (encodePreamble_ne_nil valid.preamble) buffered, state]
  simp only [messagesConsumer, preamble, List.append_nil]
  have payloadDemand : (messagesConsumer clarity).demand (.payload frame.preamble) =
      some (encodePayloadOf clarity frame).length := congrArg some valid.payloadLength
  refine (Feed.settle_of_front payloadDemand (encodePayloadOf_ne_nil frame) rfl).trans ?_
  simp only [message]

/-- Frames at the front of the buffer are read one after the other. -/
theorem settle_frames (inverts : clarity.RoundTrips) {frames : List (Frame CV)}
    (valid : ∀ frame ∈ frames, frame.WellFormed clarity)
    (signed : ∀ frame ∈ frames, frame.message.AmountsSigned)
    (produced : List (StacksMessage CV)) :
    Feed.settle (messagesConsumer clarity)
        { state := .preamble, buffered := frames.flatMap (encodeFrame clarity) ++ rest, produced } =
      Feed.settle (messagesConsumer clarity)
        { state := .preamble
          buffered := rest
          produced := produced ++
            frames.map fun frame => frame.message.withRawBytes clarity } := by
  induction frames generalizing produced with
  | nil => rw [List.flatMap_nil, List.nil_append, List.map_nil, List.append_nil]
  | cons frame frames ih =>
      have validRest := fun other mem => valid other (List.mem_cons_of_mem frame mem)
      have signedRest := fun other mem => signed other (List.mem_cons_of_mem frame mem)
      have front : (frame :: frames).flatMap (encodeFrame clarity) ++ rest =
          encodeFrame clarity frame ++ (frames.flatMap (encodeFrame clarity) ++ rest) := by
        rw [List.flatMap_cons, List.append_assoc]
      rw [settle_frame inverts (valid frame List.mem_cons_self) (signed frame List.mem_cons_self)
        rfl front, ih validRest signedRest, List.map_cons, List.append_assoc, List.singleton_append]

/-- Nothing is read of a frame before its last byte has arrived. -/
theorem settle_part {frame : Frame CV} (valid : frame.WellFormed clarity)
    {front back : Buffer} (parts : front ++ back = encodeFrame clarity frame)
    (interrupted : back ≠ [])
    (produced : List (StacksMessage CV)) :
    (Feed.settle (messagesConsumer clarity)
      { state := .preamble, buffered := front, produced }).produced = produced := by
  have preambleSize := length_encodePreamble valid.preamble
  by_cases inPreamble : front.length < preambleEncodedSize
  · rw [Feed.settle_of_waiting (Feed.read_of_short rfl inPreamble)]
  · -- the preamble is complete, and the payload is not
    rw [encodeFrame] at parts
    obtain ⟨part, rfl⟩ : encodePreamble frame.preamble <+: front :=
      List.prefix_of_prefix_length_le (List.prefix_append _ (encodePayloadOf clarity frame))
        ⟨back, parts⟩ (by omega)
    rw [List.append_assoc] at parts
    have payload := List.append_cancel_left parts
    have preamble := (decodes_preamble valid.preamble).run_fromBuffer
    rw [Feed.settle_of_front (congrArg some preambleSize.symm)
      (encodePreamble_ne_nil valid.preamble) rfl]
    simp only [messagesConsumer, preamble, List.append_nil]
    have short : part.length < frame.preamble.payloadLength := by
      have missing := List.length_pos_of_ne_nil interrupted
      rw [valid.payloadLength, ← payload, List.length_append]
      omega
    exact congrArg Feed.produced (Feed.settle_of_waiting (Feed.read_of_short rfl short))

/-- What has been read depends on the bytes that have arrived and not on their chunks. -/
theorem readMessages_eq_settle (chunks : List Buffer) :
    readMessages clarity chunks =
      (openedStream.push chunks.flatten).settle (messagesConsumer clarity) := by
  have waiting : (openedStream : Feed MessagesReader UInt8 (StacksMessage CV)).settle
      (messagesConsumer clarity) = openedStream := rfl
  rw [readMessages, ← Feed.foldl_arrive, waiting]

/-- However the bytes of a list of messages are split into chunks, exactly these messages
are read in their order, and the next preamble is waited for with nothing in the buffer. -/
theorem readMessages_frames (inverts : clarity.RoundTrips) (frames : List (Frame CV))
    (valid : ∀ frame ∈ frames, frame.WellFormed clarity)
    (signed : ∀ frame ∈ frames, frame.message.AmountsSigned) (chunks : List Buffer)
    (split : chunks.flatten = frames.flatMap (encodeFrame clarity)) :
    readMessages clarity chunks =
      { state := .preamble
        buffered := []
        produced := frames.map fun frame => frame.message.withRawBytes clarity } := by
  have framesOnly : chunks.flatten = frames.flatMap (encodeFrame clarity) ++ [] := by
    rw [split, List.append_nil]
  rw [readMessages_eq_settle, openedStream, Feed.push, List.nil_append, framesOnly,
    settle_frames inverts valid signed, List.nil_append]
  rfl

/-- While a message arrives, exactly the messages before it have been read. -/
theorem readMessages_interrupted (inverts : clarity.RoundTrips) {frames : List (Frame CV)}
    (valid : ∀ frame ∈ frames, frame.WellFormed clarity)
    (signed : ∀ frame ∈ frames, frame.message.AmountsSigned) {next : Frame CV}
    (nextValid : next.WellFormed clarity) {front back : Buffer}
    (parts : front ++ back = encodeFrame clarity next) (interrupted : back ≠ [])
    {chunks : List Buffer}
    (arrived : chunks.flatten = frames.flatMap (encodeFrame clarity) ++ front) :
    (readMessages clarity chunks).produced =
      frames.map fun frame => frame.message.withRawBytes clarity := by
  rw [readMessages_eq_settle, openedStream, Feed.push, List.nil_append, arrived,
    settle_frames inverts valid signed, List.nil_append]
  exact settle_part nextValid parts interrupted _

end Frames

/-- A preamble of a payload of this length. -/
def samplePreamble (payloadLength : Nat) : Preamble where
  peerVersion := 1
  networkId := 0x80000000
  sequenceNumber := 1
  burnBlockHeight := 100
  burnConsensusHash := List.replicate 20 0
  burnStableBlockHeight := 93
  burnStableConsensusHash := List.replicate 20 0
  additionalData := 0
  signature := List.replicate 65 0
  payloadLength

/-- A message with one relayer before it and a byte behind it. -/
def sampleFrame (message : StacksMessage Bool) : Frame Bool where
  preamble := samplePreamble (112 + (encodeMessage ClarityLibrary.booleans message).length)
  relayers := [List.replicate 107 0]
  message
  trailing := [0xff]

theorem samplePreamble_wellFormed {payloadLength : Nat} (short : payloadLength < 2 ^ 32) :
    (samplePreamble payloadLength).WellFormed where
  peerVersion := show 1 < 2 ^ 32 by decide
  networkId := show 0x80000000 < 2 ^ 32 by decide
  sequenceNumber := show 1 < 2 ^ 32 by decide
  burnBlockHeight := show IsU64 100 from ⟨by decide, by decide⟩
  burnConsensusHash := List.length_replicate
  burnStableBlockHeight := show IsU64 93 from ⟨by decide, by decide⟩
  burnStableConsensusHash := List.length_replicate
  additionalData := show 0 < 2 ^ 32 by decide
  signature := List.length_replicate
  payloadLength := short

theorem sampleFrame_wellFormed {message : StacksMessage Bool} (valid : message.WellFormed)
    (short : (encodeMessage ClarityLibrary.booleans message).length < 2 ^ 31) :
    (sampleFrame message).WellFormed ClarityLibrary.booleans where
  preamble := samplePreamble_wellFormed (by omega)
  payloadLength := by
    rw [encodePayloadOf, List.length_append, List.length_append]
    change 112 + (encodeMessage ClarityLibrary.booleans message).length =
      111 + (encodeMessage ClarityLibrary.booleans message).length + 1
    omega
  relayerCount := show 1 < 2 ^ 32 by decide
  relayers relayer mem := by
    rw [List.mem_singleton.mp mem]
    exact List.length_replicate
  message := valid

/-- A block with the sample transfer. -/
def sampleStacksBlock : Block Bool where
  header :=
    { version := 0
      workScore := { burn := 5, work := 7 }
      vrfProof :=
        { gamma := List.replicate 32 0, c := List.replicate 16 0, s := List.replicate 32 0 }
      parentBlockHash := List.replicate 32 1
      parentMicroblockHash := List.replicate 32 0
      parentMicroblockSequence := 0
      txMerkleRootHash := List.replicate 32 2
      stateMerkleRootHash := List.replicate 32 3
      microblockPubkeyHash := List.replicate 20 4 }
  transactions := [sampleTransfer 1]

theorem sampleStacksBlock_wellFormed : sampleStacksBlock.WellFormed where
  header :=
    { version := by decide
      burn := show IsU64 5 from ⟨by decide, by decide⟩
      work := show IsU64 7 from ⟨by decide, by decide⟩
      gamma := List.length_replicate
      c := List.length_replicate
      s := List.length_replicate
      parentBlockHash := List.length_replicate
      parentMicroblockHash := List.length_replicate
      parentMicroblockSequence := by decide
      txMerkleRootHash := List.length_replicate
      stateMerkleRootHash := List.length_replicate
      microblockPubkeyHash := List.length_replicate }
  txCount := by decide
  transactions :=
    List.forall_mem_singleton.mpr (sampleTransfer_wellFormed ⟨by decide, by decide⟩)

/-- A message with a transaction and one with a block. -/
def sampleMessages : List (StacksMessage Bool) :=
  [.transaction (sampleTransfer 1), .blocks [sampleStacksBlock]]

theorem sampleMessages_wellFormed : ∀ frame ∈ sampleMessages.map sampleFrame,
    frame.WellFormed ClarityLibrary.booleans := by
  have block : StacksMessage.WellFormed (.blocks [sampleStacksBlock]) :=
    ⟨by decide, List.forall_mem_singleton.mpr sampleStacksBlock_wellFormed⟩
  have transfer : StacksMessage.WellFormed (.transaction (sampleTransfer 1)) :=
    sampleTransfer_wellFormed ⟨by decide, by decide⟩
  simp only [sampleMessages, List.map_cons, List.map_nil, List.forall_mem_cons]
  exact ⟨sampleFrame_wellFormed transfer (by decide +kernel),
    sampleFrame_wellFormed block (by decide +kernel), List.forall_mem_nil _⟩

theorem sampleMessages_amountsSigned :
    ∀ frame ∈ sampleMessages.map sampleFrame, frame.message.AmountsSigned := by
  have transfer : (sampleTransfer 1).AmountsSigned :=
    ⟨show (1 : Int) < 2 ^ 63 by decide, List.forall_mem_nil _⟩
  have block : StacksMessage.AmountsSigned (.blocks [sampleStacksBlock]) :=
    List.forall_mem_singleton.mpr (List.forall_mem_singleton.mpr transfer)
  simp only [sampleMessages, List.map_cons, List.map_nil, List.forall_mem_cons]
  exact ⟨transfer, block, List.forall_mem_nil _⟩

/-- A transaction and a block arrive byte by byte. -/
theorem readMessages_frames_byteByByte :
    readMessages ClarityLibrary.booleans ((sampleMessages.flatMap fun message =>
        encodeFrame ClarityLibrary.booleans (sampleFrame message)).map List.singleton) =
      { state := .preamble
        buffered := []
        produced := [.transaction ((sampleTransfer 1).withRawBytes ClarityLibrary.booleans),
          .blocks [sampleStacksBlock.withRawBytes ClarityLibrary.booleans]] } := by
  refine readMessages_frames ClarityLibrary.booleans_roundTrips (sampleMessages.map sampleFrame)
    sampleMessages_wellFormed sampleMessages_amountsSigned _ ?_
  rw [List.flatMap_map]
  exact List.flatMap_singleton' _

/-- The block behind both messages stops arriving 150 bytes into its frame. -/
theorem readMessages_interrupted_byteByByte :
    (readMessages ClarityLibrary.booleans
      (((sampleMessages.map sampleFrame).flatMap (encodeFrame ClarityLibrary.booleans) ++
        (encodeFrame ClarityLibrary.booleans
          (sampleFrame (.blocks [sampleStacksBlock]))).take 150).map List.singleton)).produced =
      [.transaction ((sampleTransfer 1).withRawBytes ClarityLibrary.booleans),
        .blocks [sampleStacksBlock.withRawBytes ClarityLibrary.booleans]] := by
  have interrupted : (encodeFrame ClarityLibrary.booleans
      (sampleFrame (.blocks [sampleStacksBlock]))).drop 150 ≠ [] := by decide +kernel
  have nextValid : (sampleFrame (.blocks [sampleStacksBlock])).WellFormed ClarityLibrary.booleans :=
    sampleMessages_wellFormed _ (List.mem_of_getElem? (i := 1) rfl)
  exact readMessages_interrupted ClarityLibrary.booleans_roundTrips sampleMessages_wellFormed
    sampleMessages_amountsSigned nextValid (List.take_append_drop 150 _) interrupted
    (List.flatMap_singleton' _)

end StacksApi.P2p
