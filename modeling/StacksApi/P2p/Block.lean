import StacksApi.P2p.RoundTrip

/-!
# Blocks

The readers of `p2p/block-header.ts` and `p2p/block.ts`, the encoding that they undo,
and that they undo it.
-/

namespace StacksApi.P2p

open StacksApi.Binary

/-! ## Headers -/

/-- How much work has gone into a chain. -/
structure WorkScore where
  /-- Burn tokens destroyed. -/
  burn : Int
  /-- The length of the fork. -/
  work : Int
  deriving DecidableEq

/-- A compressed Ed25519 point and two scalars. -/
structure VrfProof where
  gamma : Buffer
  c : Buffer
  s : Buffer
  deriving DecidableEq

/-- The header of a block. -/
structure BlockHeader where
  version : Nat
  workScore : WorkScore
  vrfProof : VrfProof
  parentBlockHash : Buffer
  parentMicroblockHash : Buffer
  parentMicroblockSequence : Nat
  txMerkleRootHash : Buffer
  stateMerkleRootHash : Buffer
  microblockPubkeyHash : Buffer
  deriving DecidableEq

/-- Read the header of a block. -/
def readBlockHeader : ReadM ApiError BlockHeader := do
  let version ← readUInt8
  let burn ← readBigUInt64BE
  let work ← readBigUInt64BE
  let gamma ← readBuffer 32
  let c ← readBuffer 16
  let s ← readBuffer 32
  let parentBlockHash ← readBuffer 32
  let parentMicroblockHash ← readBuffer 32
  let parentMicroblockSequence ← readUInt16BE
  let txMerkleRootHash ← readBuffer 32
  let stateMerkleRootHash ← readBuffer 32
  let microblockPubkeyHash ← readBuffer 20
  return { version, workScore := { burn, work }, vrfProof := { gamma, c, s },
           parentBlockHash, parentMicroblockHash, parentMicroblockSequence, txMerkleRootHash,
           stateMerkleRootHash, microblockPubkeyHash }

/-- The fields of the header fit their places. -/
structure BlockHeader.WellFormed (header : BlockHeader) : Prop where
  version : header.version < 256
  burn : IsU64 header.workScore.burn
  work : IsU64 header.workScore.work
  gamma : header.vrfProof.gamma.length = 32
  c : header.vrfProof.c.length = 16
  s : header.vrfProof.s.length = 32
  parentBlockHash : header.parentBlockHash.length = 32
  parentMicroblockHash : header.parentMicroblockHash.length = 32
  parentMicroblockSequence : header.parentMicroblockSequence < 2 ^ 16
  txMerkleRootHash : header.txMerkleRootHash.length = 32
  stateMerkleRootHash : header.stateMerkleRootHash.length = 32
  microblockPubkeyHash : header.microblockPubkeyHash.length = 20

/-- The bytes of a header. -/
def encodeBlockHeader (header : BlockHeader) : Buffer :=
  bigEndian 1 header.version ++ (encodeU64 header.workScore.burn ++
    (encodeU64 header.workScore.work ++ (header.vrfProof.gamma ++ (header.vrfProof.c ++
      (header.vrfProof.s ++ (header.parentBlockHash ++ (header.parentMicroblockHash ++
        (bigEndian 2 header.parentMicroblockSequence ++ (header.txMerkleRootHash ++
          (header.stateMerkleRootHash ++ header.microblockPubkeyHash))))))))))

theorem decodes_blockHeader {header : BlockHeader} (valid : header.WellFormed) :
    Decodes readBlockHeader (encodeBlockHeader header) header := by
  refine (Decodes.readUInt8 valid.version).bind ?_
  refine (decodes_u64 valid.burn).bind ?_
  refine (decodes_u64 valid.work).bind ?_
  refine (decodes_bytes valid.gamma).bind ?_
  refine (decodes_bytes valid.c).bind ?_
  refine (decodes_bytes valid.s).bind ?_
  refine (decodes_bytes valid.parentBlockHash).bind ?_
  refine (decodes_bytes valid.parentMicroblockHash).bind ?_
  refine (Decodes.readUInt16BE valid.parentMicroblockSequence).bind ?_
  refine (decodes_bytes valid.txMerkleRootHash).bind ?_
  refine (decodes_bytes valid.stateMerkleRootHash).bind ?_
  exact (decodes_bytes valid.microblockPubkeyHash).map fun microblockPubkeyHash =>
    { header with microblockPubkeyHash }

/-! ## Blocks and their transactions -/

/-- A block with its transactions. -/
structure Block (CV : Type) where
  header : BlockHeader
  transactions : List (Transaction CV)
  deriving DecidableEq

section Blocks

variable {CV : Type} (clarity : ClarityLibrary CV)

/-- Read a count and so many transactions. -/
def readTransactions : ReadM ApiError (List (Transaction CV)) := do
  let txCount ← readUInt32BE
  readMany (readTransaction clarity) txCount

/-- One turn of the loop of `readBlocks`. -/
def readBlock : ReadM ApiError (Block CV) := do
  let header ← readBlockHeader
  let transactions ← readTransactions clarity
  return { header, transactions }

/-- Read a count and so many blocks. -/
def readBlocks : ReadM ApiError (List (Block CV)) := do
  let blockCount ← readUInt32BE
  readMany (readBlock clarity) blockCount

/-- The parts of the block are well-formed, and its transactions can be counted. -/
structure Block.WellFormed (block : Block CV) : Prop where
  header : block.header.WellFormed
  txCount : block.transactions.length < 2 ^ 32
  transactions : ∀ tx ∈ block.transactions, tx.WellFormed

/-- The bytes of a list of transactions. -/
def encodeTransactions (txs : List (Transaction CV)) : Buffer :=
  bigEndian 4 txs.length ++ txs.flatMap (encodeTransaction clarity)

/-- The bytes of a block. -/
def encodeBlock (block : Block CV) : Buffer :=
  encodeBlockHeader block.header ++ encodeTransactions clarity block.transactions

/-- The bytes of a list of blocks. -/
def encodeBlocks (blocks : List (Block CV)) : Buffer :=
  bigEndian 4 blocks.length ++ blocks.flatMap (encodeBlock clarity)

/-- The block with the raw byte fields of its transactions cut from their encodings. -/
def Block.withRawBytes (block : Block CV) : Block CV :=
  { block with transactions := block.transactions.map fun tx => tx.withRawBytes clarity }

/-- The amounts of every transaction that go through the signed read are below `2 ^ 63`. -/
def Block.AmountsSigned (block : Block CV) : Prop :=
  ∀ tx ∈ block.transactions, tx.AmountsSigned

variable {clarity}

/-- A transaction whose signed amounts are small is read back as it is. -/
theorem decodes_signedTransaction (inverts : clarity.RoundTrips) {tx : Transaction CV}
    (valid : tx.WellFormed) (signed : tx.AmountsSigned) :
    Decodes (readTransaction clarity) (encodeTransaction clarity tx) (tx.withRawBytes clarity) := by
  rw [← (Transaction.asRead_eq_withRawBytes_iff valid).mpr signed]
  exact decodes_transaction inverts valid

theorem decodes_transactions (inverts : clarity.RoundTrips) {txs : List (Transaction CV)}
    (txCount : txs.length < 2 ^ 32) (valid : ∀ tx ∈ txs, tx.WellFormed)
    (signed : ∀ tx ∈ txs, tx.AmountsSigned) :
    Decodes (readTransactions clarity) (encodeTransactions clarity txs)
      (txs.map fun tx => tx.withRawBytes clarity) :=
  (Decodes.readUInt32BE txCount).bind (Decodes.readMany fun tx mem =>
    decodes_signedTransaction inverts (valid tx mem) (signed tx mem))

theorem decodes_block (inverts : clarity.RoundTrips) {block : Block CV}
    (valid : block.WellFormed) (signed : block.AmountsSigned) :
    Decodes (readBlock clarity) (encodeBlock clarity block) (block.withRawBytes clarity) :=
  (decodes_blockHeader valid.header).bind
    ((decodes_transactions inverts valid.txCount valid.transactions signed).map
      (Block.mk block.header))

theorem decodes_blocks (inverts : clarity.RoundTrips) {blocks : List (Block CV)}
    (blockCount : blocks.length < 2 ^ 32) (valid : ∀ block ∈ blocks, block.WellFormed)
    (signed : ∀ block ∈ blocks, block.AmountsSigned) :
    Decodes (readBlocks clarity) (encodeBlocks clarity blocks)
      (blocks.map fun block => block.withRawBytes clarity) :=
  (Decodes.readUInt32BE blockCount).bind (Decodes.readMany fun block mem =>
    decodes_block inverts (valid block mem) (signed block mem))

end Blocks

end StacksApi.P2p
