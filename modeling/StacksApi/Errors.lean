import StacksApi.Binary.Reader
import StacksApi.Text.Hex

/-!
# Errors

What the modelled functions throw.  The constructors keep the classes of the
source apart; texts are those of the throw sites.  The faults that a chain
reorganisation can detect in the `blocks` table are listed one by one, because
reachable states are shown to raise none of them but a missing parent.
-/

namespace StacksApi

open StacksApi.Binary
open StacksApi.Text

/-- Encodes a buffer as a `0x` prefixed lower-case hex string. -/
def bufferToHexPrefixString (buffer : Buffer) : String :=
  String.ofList ('0' :: 'x' :: toHex buffer)

/-- Throw sites of `handleReorg` and `restoreOrphanedChain`, each with what its text names. -/
inductive ReorgFault
  /-- "DB contains multiple blocks at height … and index_hash …" -/
  | multipleBlocks (height : Nat) (indexHash : String)
  /-- "DB does not contain a parent block at height … with index_hash …" -/
  | missingParent (height : Nat) (indexHash : String)
  /-- "Could not find orphaned block by index_hash …" -/
  | orphanNotFound (indexHash : Buffer)
  /-- "Found multiple non-canonical parents for index_hash …" -/
  | multipleOrphans (indexHash : Buffer)
  /-- "Found more than one non-canonical parent to restore during reorg" -/
  | multipleOrphanedParents
  /-- The recursion of `restoreOrphanedChain` descended below every stored height. -/
  | endlessRestore
  deriving DecidableEq

/-- Errors by the class that is thrown. -/
inductive ApiError
  /-- An integer read past the end of a buffer. -/
  | readBeyondBounds
  /-- `StacksMessageParsingError` -/
  | messageParsing (message : String)
  /-- `NotImplementedError` -/
  | notImplemented (message : String)
  /-- A plain `Error`. -/
  | failure (message : String)
  /-- An error raised inside a dependency. -/
  | library (message : String)
  /-- A row refused by the column types or constraints of a table. -/
  | database (table : String)
  | reorg (fault : ReorgFault)
  deriving DecidableEq

instance : BoundsError ApiError where
  beyondBounds := .readBeyondBounds

end StacksApi
