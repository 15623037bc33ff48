import StacksApi.Datastore.Admissible
import StacksApi.Datastore.Answers

/-!
# Reading back what was inserted

A record whose numbers and texts its columns hold, and which has only the columns of
its type, is inserted by `updateTx` or `updateMempoolTx` and returned by `getTx` or
`getMempoolTx` as it was, with its byte strings in lower case.
-/

namespace StacksApi.Datastore

open StacksApi.Binary
open StacksApi.Relational
open StacksApi.Transition

/-! ## What the columns hold -/

section Columns

variable {ι : Type}

/-- The numbers that both tables have fit their columns. -/
def DbTxBase.numbersFit (tx : DbTxBase ι) : Bool :=
  isBigint tx.feeRate && tx.tokenTransferAmount.all isBigint

/-- The numbers of a mined transaction fit the columns. -/
def DbTx.numbersFit (tx : DbTx ι) : Bool :=
  tx.toDbTxBase.numbersFit && isSmallint tx.txIndex && isInteger tx.blockHeight &&
    isInteger tx.burnBlockTime

/-- The numbers of a pending transaction fit the columns. -/
def DbMempoolTx.numbersFit (tx : DbMempoolTx ι) : Bool :=
  tx.toDbTxBase.numbersFit && isInteger tx.receiptTime

/-- No text of the record has a character with code zero. -/
def DbTxBase.textsFit (tx : DbTxBase ι) : Bool :=
  isText tx.senderAddress && tx.sponsorAddress.all isText &&
    tx.tokenTransferRecipientAddress.all isText && tx.contractCallContractId.all isText &&
    tx.contractCallFunctionName.all isText && tx.smartContractContractId.all isText &&
    tx.smartContractSourceCode.all isText

/-- The `CHECK` constraints and the ranges of the columns. -/
theorem DbTxBase.admitted_iff {tx : DbTxBase ι} :
    tx.admitted = true ↔ tx.numbersFit = true ∧ tx.textsFit = true ∧
      isSmallint tx.originHashMode = true ∧ tx.validPayload = true := by
  simp only [DbTxBase.admitted, DbTxBase.numbersFit, DbTxBase.textsFit, Bool.and_eq_true, and_assoc]
  constructor
  · rintro ⟨fee, sender, mode, sponsor, recipient, amount, call, function, id, code, payload⟩
    exact ⟨fee, amount, sender, sponsor, recipient, call, function, id, code, mode, payload⟩
  · rintro ⟨fee, amount, sender, sponsor, recipient, call, function, id, code, mode, payload⟩
    exact ⟨fee, sender, mode, sponsor, recipient, amount, call, function, id, code, payload⟩

end Columns

/-- The record has only the columns of its type and no empty sponsor address, so that
nothing is lost when its row is parsed. -/
def DbTxBase.OwnColumns (tx : DbTxBase String) : Prop :=
  ∀ buffer, parseTxColumns (tx.withTxId buffer) =
    .ok (tx.withTxId (bufferToHexPrefixString buffer))

/-! ## Comparing records -/

/-- The transaction with its id in lower case. -/
def DbTxBase.lowerCase (tx : DbTxBase String) : DbTxBase String :=
  tx.withTxId (toLowerCase tx.txId)

/-- The record with its byte strings in lower case and an absent result as an empty one. -/
def DbTx.lowerCase (tx : DbTx String) : DbTx String :=
  { tx with
    toDbTxBase := tx.toDbTxBase.lowerCase
    indexBlockHash := toLowerCase tx.indexBlockHash
    blockHash := toLowerCase tx.blockHash
    rawResult := some (toLowerCase (tx.rawResult.getD "")) }

/-- The pending transaction with its id in lower case. -/
def DbMempoolTx.lowerCase (tx : DbMempoolTx String) : DbMempoolTx String :=
  { tx with toDbTxBase := tx.toDbTxBase.lowerCase }

/-- The byte strings of the record are hexadecimal text of either case. -/
structure DbTx.HexTexts (tx : DbTx String) : Prop where
  txId : isHexText tx.txId = true
  indexBlockHash : isHexText tx.indexBlockHash = true
  blockHash : isHexText tx.blockHash = true
  rawResult : ∀ rawResult ∈ tx.rawResult, rawResult = "" ∨ isHexText rawResult = true

/-! ## Transactions -/

theorem rawResultColumn_of_hexText {rawResult : Option String}
    (hex : ∀ text ∈ rawResult, text = "" ∨ isHexText text = true) :
    ∃ column, rawResultColumn rawResult = .ok column ∧
      (column.map bufferToHexPrefixString).getD "" = toLowerCase (rawResult.getD "") := by
  cases rawResult with
  | none => exact ⟨none, rfl, rfl⟩
  | some text =>
      by_cases empty : text = ""
      · subst empty
        exact ⟨none, rfl, rfl⟩
      · obtain ⟨buffer, decoded, lower⟩ :=
          hexToBuffer_of_isHexText ((hex text rfl).resolve_left empty)
        refine ⟨some buffer, ?_, lower⟩
        rw [rawResultColumn.eq_3 text empty, decoded]
        rfl

/-- The row of a record that fits, of which the record is made again. -/
theorem DbTx.HexTexts.row {tx : DbTx String} (hex : tx.HexTexts)
    (own : tx.toDbTxBase.OwnColumns) (admitted : tx.admitted = true) :
    ∃ row, txRow tx = .ok row ∧ parseTxQueryResult row = .ok tx.lowerCase := by
  obtain ⟨txId, txIdOk, txIdLower⟩ := hexToBuffer_of_isHexText hex.txId
  obtain ⟨indexHash, indexHashOk, indexHashLower⟩ := hexToBuffer_of_isHexText hex.indexBlockHash
  obtain ⟨blockHash, blockHashOk, blockHashLower⟩ := hexToBuffer_of_isHexText hex.blockHash
  obtain ⟨rawResult, rawResultOk, rawResultLower⟩ := rawResultColumn_of_hexText hex.rawResult
  refine ⟨tx.withBuffers txId indexHash blockHash rawResult, ?_, ?_⟩
  · rw [txRow, txIdOk, indexHashOk, blockHashOk, rawResultOk]
    exact if_pos admitted
  · rw [parseTxQueryResult]
    refine Except.bind_eq_ok.mpr ⟨_, own txId, ?_⟩
    rw [DbTx.lowerCase, DbTxBase.lowerCase, ← txIdLower, ← indexHashLower, ← blockHashLower,
      ← rawResultLower]
    rfl

/-- No stored inclusion of the transaction is on the canonical chain at the height of
the record or above, and none is in the record's own block. -/
structure NotOutranked (db : Db) (tx : DbTx String) : Prop where
  fresh : ∀ stored ∈ db.txs, hexToBuffer tx.txId = .ok stored.txId →
    hexToBuffer tx.indexBlockHash ≠ .ok stored.indexBlockHash
  lower : ∀ stored ∈ db.txs, hexToBuffer tx.txId = .ok stored.txId →
    stored.canonical = true → stored.blockHeight < tx.blockHeight

/-- A canonical record that fits is inserted and read back, in whatever order the table
is read. -/
theorem getTx_updateTx {db : Db} {tx : DbTx String} (hex : tx.HexTexts)
    (own : tx.toDbTxBase.OwnColumns) (admitted : tx.admitted = true)
    (canonical : tx.canonical = true) (top : NotOutranked db tx) :
    ∃ db', updateTx db tx = .ok db' ∧
      ∀ scanned, Scan db' scanned → getTx scanned tx.txId = .ok (some tx.lowerCase) := by
  obtain ⟨row, decoded, parsed⟩ := hex.row own admitted
  obtain ⟨txIdOk, hashOk, -, -, columns, -⟩ := txRow_ok decoded
  have sameHeight : row.blockHeight = tx.blockHeight := congrArg DbTx.blockHeight columns
  have sameFlag : row.canonical = true := (congrArg DbTx.canonical columns).trans canonical
  have fresh : db.txs.any (sameInclusion row) = false := by
    rw [List.any_eq_false]
    intro stored mem conflict
    obtain ⟨sameId, sameHash⟩ := of_decide_eq_true conflict
    exact top.fresh stored mem (sameId ▸ txIdOk) (sameHash ▸ hashOk)
  refine ⟨{ db with txs := db.txs ++ [row] }, ?_, ?_⟩
  · rw [updateTx, decoded]
    exact congrArg Except.ok (by rw [insertRow_of_fresh fresh])
  · intro scanned scan
    have perm : (db.txs ++ [row]).Perm scanned.txs := scan.rows .txs
    have found : (orderByDesc (fun row : DbTx Buffer => toLex (row.canonical, row.blockHeight))
        (scanned.txs.filter fun stored => stored.txId = row.txId)).head? = some row := by
      apply head?_orderByDesc_eq
      · refine List.mem_filter.mpr ⟨perm.mem_iff.mp ?_, decide_eq_true rfl⟩
        exact List.mem_append_right _ (List.mem_singleton_self row)
      · intro other mem
        obtain ⟨otherMem, sameId⟩ := List.mem_filter.mp mem
        rcases List.mem_append.mp (perm.mem_iff.mpr otherMem) with stored | own
        · right
          have ranked := top.lower other stored ((of_decide_eq_true sameId) ▸ txIdOk)
          rw [Prod.Lex.toLex_lt_toLex, sameFlag, sameHeight]
          cases flag : other.canonical with
          | false => exact Or.inl (show false < true by decide)
          | true => exact Or.inr ⟨rfl, ranked flag⟩
        · exact Or.inl (List.mem_singleton.mp own)
    rw [getTx, txIdOk]
    simp only [bind, Except.bind, found, parsed]
    rfl

/-! ## Mempool transactions -/

/-- A record that fits is inserted in the mempool and read back. -/
theorem getMempoolTx_updateMempoolTx {db : Db} {tx : DbMempoolTx String}
    (hex : isHexText tx.txId = true) (own : tx.toDbTxBase.OwnColumns)
    (admitted : tx.admitted = true)
    (fresh : ∀ stored ∈ db.mempoolTxs, hexToBuffer tx.txId ≠ .ok stored.txId) :
    ∃ db' events, updateMempoolTx db tx = .ok (db', events) ∧
      ∀ scanned, Scan db' scanned → getMempoolTx scanned tx.txId = .ok (some tx.lowerCase) := by
  obtain ⟨txId, txIdOk, lower⟩ := hexToBuffer_of_isHexText hex
  let row : DbMempoolTx Buffer :=
    { toDbTxBase := tx.toDbTxBase.withTxId txId, receiptTime := tx.receiptTime }
  have decoded : mempoolTxRow tx = .ok row := by
    rw [mempoolTxRow, txIdOk]
    exact if_pos admitted
  have parsed : parseMempoolTxQueryResult row = .ok tx.lowerCase := by
    rw [parseMempoolTxQueryResult]
    refine Except.bind_eq_ok.mpr ⟨_, own txId, ?_⟩
    rw [DbMempoolTx.lowerCase, DbTxBase.lowerCase, ← lower]
    rfl
  have absent : db.mempoolTxs.any (fun stored => decide (row.txId = stored.txId)) = false := by
    rw [List.any_eq_false]
    intro stored mem same
    exact fresh stored mem ((of_decide_eq_true same) ▸ txIdOk)
  have inserted : insertRow (fun row stored : DbMempoolTx Buffer => decide (row.txId = stored.txId))
      row db.mempoolTxs = (db.mempoolTxs ++ [row], 1) := insertRow_of_fresh absent
  refine ⟨{ db with mempoolTxs := db.mempoolTxs ++ [row] }, [.mempoolTxUpdate tx], ?_, ?_⟩
  · rw [updateMempoolTx, decoded]
    simp only [bind, Except.bind, inserted]
    rfl
  · intro scanned scan
    have perm : (db.mempoolTxs ++ [row]).Perm scanned.mempoolTxs := scan.mempoolTxs
    have others : db.mempoolTxs.filter (fun stored => stored.txId = txId) = [] := by
      rw [List.filter_eq_nil_iff]
      intro stored mem same
      exact fresh stored mem ((of_decide_eq_true same) ▸ txIdOk)
    have found : scanned.mempoolTxs.filter (fun stored => stored.txId = txId) = [row] := by
      have filtered := perm.filter fun stored => decide (stored.txId = txId)
      have ownId : decide (row.txId = txId) = true := decide_eq_true rfl
      rw [List.filter_append, others, List.filter_singleton, ownId] at filtered
      exact List.perm_singleton.mp filtered.symm
    rw [getMempoolTx, txIdOk]
    simp only [bind, Except.bind, found, parsed]
    rfl

end StacksApi.Datastore
