import StacksApi.Binary.Local
import StacksApi.P2p.RoundTrip
import StacksApi.Transition.Fallible

/-!
# Reading stored bytes again

A transaction keeps the bytes of its post-conditions and of its arguments, and
these are read again whenever it is shown.  Every reader is local, so that the
stored slices give what was read from the middle of the transaction.
-/

namespace StacksApi.P2p

open StacksApi.Binary
open StacksApi.Transition

/-! ## Readers of the parts -/

theorem local_contractName : Local readContractName :=
  (Local.readUInt 1).bind fun length => Local.readString length

theorem local_clarityName : Local readClarityName :=
  (Local.readUInt 1).bind fun length => Local.readString length

theorem local_stacksAddress : Local readStacksAddress :=
  (Local.readUInt 1).bind fun _ => (Local.readBuffer 20).map _

theorem local_assetInfo : Local readAssetInfo :=
  local_stacksAddress.bind fun _ => local_contractName.bind fun _ => local_clarityName.map _

theorem local_bigUInt64BE : Local (readBigUInt64BE : ReadM ApiError Int) :=
  (Local.readUInt 8).map _

theorem local_bigInt64BE : Local (readBigInt64BE : ReadM ApiError Int) :=
  (Local.readUInt 8).map _

theorem local_authField : Local readTransactionAuthField := by
  apply (Local.readUInt8Enum _).bind
  intro authType
  cases authType with
  | publicKeyCompressed => exact (Local.readBuffer 33).map _
  | publicKeyUncompressed => exact (Local.readBuffer 33).map _
  | signatureCompressed => exact (Local.readBuffer 65).map _
  | signatureUncompressed => exact (Local.readBuffer 65).map _

theorem local_singleSig (hashMode : SingleSigHashMode) : Local (readSingleSig hashMode) :=
  (Local.readBuffer 20).bind fun _ => local_bigUInt64BE.bind fun _ =>
    local_bigUInt64BE.bind fun _ => (Local.readUInt 1).bind fun _ => (Local.readBuffer 65).map _

theorem local_multiSig (hashMode : MultiSigHashMode) : Local (readMultiSig hashMode) :=
  (Local.readBuffer 20).bind fun _ => local_bigUInt64BE.bind fun _ =>
    local_bigUInt64BE.bind fun _ => (Local.readUInt 4).bind fun fieldCount =>
      (local_authField.readMany fieldCount).bind fun _ => (Local.readUInt 2).map _

theorem local_spendingCondition : Local readTransactionSpendingCondition := by
  apply (Local.readUInt8Enum _).bind
  intro conditionType
  cases conditionType with
  | p2pkh => exact local_singleSig .p2pkh
  | p2wpkh => exact local_singleSig .p2wpkh
  | p2sh => exact local_multiSig .p2sh
  | p2wsh => exact local_multiSig .p2wsh

theorem local_auth : Local readTransactionAuth := by
  apply (Local.readUInt8Enum _).bind
  intro authType
  cases authType with
  | standard => exact local_spendingCondition.map _
  | sponsored => exact local_spendingCondition.bind fun _ => local_spendingCondition.map _

theorem local_principal : Local readTransactionPostConditionPrincipal := by
  apply (Local.readUInt8Enum _).bind
  intro typeId
  cases typeId with
  | origin => exact Local.pure _
  | standard => exact local_stacksAddress.map _
  | contract => exact local_stacksAddress.bind fun _ => local_contractName.map _

theorem local_recipient : Local readRecipientPrincipal := by
  apply (Local.readUInt 1).bind
  intro recipientTypeId
  split
  · exact local_stacksAddress.map _
  · split
    · exact local_stacksAddress.bind fun _ => local_contractName.map _
    · exact Local.throw _

theorem local_longString : Local readLongString :=
  (Local.readUInt 4).bind fun length => Local.readString length

section Clarity

variable {CV : Type} {clarity : ClarityLibrary CV}

theorem local_clarityValue (localCV : Local clarity.deserializeCV) :
    Local (readClarityValue clarity) :=
  localCV.withRemaining

theorem local_clarityValueArray (localCV : Local clarity.deserializeCV) :
    Local (readClarityValueArray clarity) :=
  (Local.readUInt 4).bind fun valueCount => (localCV.readMany valueCount).withRemaining

theorem local_postCondition (localCV : Local clarity.deserializeCV) :
    Local (readTransactionPostCondition clarity) := by
  apply (Local.readUInt8Enum _).bind
  intro typeId
  apply local_principal.bind
  intro principal
  cases typeId with
  | stx => exact (Local.readUInt8Enum _).bind fun _ => local_bigInt64BE.map _
  | fungibleAsset =>
      exact local_assetInfo.bind fun _ => (Local.readUInt8Enum _).bind fun _ =>
        local_bigUInt64BE.map _
  | nonfungibleAsset =>
      exact local_assetInfo.bind fun _ => (local_clarityValue localCV).bind fun _ =>
        (Local.readUInt8Enum _).map _

theorem local_postConditions (localCV : Local clarity.deserializeCV) :
    Local (readTransactionPostConditions clarity) :=
  (Local.readUInt 4).bind fun conditionCount =>
    (local_postCondition localCV).readMany conditionCount

theorem local_postConditionSection (localCV : Local clarity.deserializeCV) :
    Local (readPostConditionSection clarity) :=
  (Local.readUInt8Enum _).bind fun _ => (local_postConditions localCV).map _

/-! ## The stored slices -/

theorem toNat_of_ofNat? {value : Nat} {mode : TransactionPostConditionMode}
    (found : ByteEnum.ofNat? value = some mode) : ByteEnum.toNat mode = value := by
  simp only [ByteEnum.ofNat?] at found
  split at found
  · cases found
    rfl
  · cases found
    rfl
  · cases found

/-- The section is its mode byte and, behind it, the post-conditions. -/
theorem reread_postConditions (localCV : Local clarity.deserializeCV) {bytes after : Buffer}
    {postConditionMode : TransactionPostConditionMode}
    {postConditions : List (TransactionPostCondition CV)}
    (spans : Spans (readPostConditionSection clarity) bytes after
      (postConditionMode, postConditions)) :
    bytes.head? = some (UInt8.ofNat (ByteEnum.toNat postConditionMode)) ∧
      (readTransactionPostConditions clarity).run (BufferReader.fromBuffer (bytes.drop 1)) =
        .ok (postConditions, ⟨bytes.drop 1, (bytes.drop 1).length⟩) := by
  have ran := spans.run_fromBuffer
  obtain ⟨mode, modeSpan, later, rfl, spansMode, ran⟩ :=
    @Local.run_bind _ _ _ _ _ [] _ _ _ (Local.readUInt8Enum _) ran
  obtain ⟨conditions, span, left, rfl, spansConditions, ran⟩ :=
    (local_postConditions localCV).run_bind ran
  obtain ⟨byte, rfl, found⟩ := Local.span_readUInt8Enum spansMode
  obtain ⟨same, final⟩ := Prod.mk.inj (Except.ok.inj ran)
  obtain ⟨rfl, rfl⟩ := Prod.mk.inj same
  have length := congrArg BufferReader.readOffset final
  simp only [List.nil_append, List.length_append, List.length_singleton] at length
  obtain rfl : left = [] := List.length_eq_zero_iff.mp (by omega)
  have code := toNat_of_ofNat? found
  constructor
  · rw [code, UInt8.ofNat_toNat]
    rfl
  · rw [List.append_nil, List.singleton_append, List.drop_one, List.tail_cons]
    exact spansConditions.run_fromBuffer

theorem reread_functionArgs (localCV : Local clarity.deserializeCV) {final : BufferReader}
    {before rest : Buffer} {address : StacksAddress} {contractName functionName : String}
    {functionArgs : List CV} {rawFunctionArgs : Option Buffer}
    (ran : (readTransactionPayload clarity).run ⟨before ++ rest, before.length⟩ =
      .ok (.contractCall address contractName functionName functionArgs rawFunctionArgs, final)) :
    (rawFunctionArgs = none ↔ functionArgs = []) ∧
      ∀ raw, rawFunctionArgs = some raw →
        (readClarityValueArray clarity).run (BufferReader.fromBuffer raw) =
          .ok (functionArgs, ⟨raw, raw.length⟩) := by
  obtain ⟨typeId, typeSpan, later, rfl, -, ran⟩ := (Local.readUInt8Enum _).run_bind ran
  cases typeId with
  | coinbase =>
      obtain ⟨payload, span, left, -, -, ran⟩ := (Local.readBuffer 32).run_bind ran
      cases ran
  | tokenTransfer =>
      obtain ⟨recipient, span, left, rfl, -, ran⟩ := local_recipient.run_bind ran
      obtain ⟨amount, span', left, rfl, -, ran⟩ := local_bigInt64BE.run_bind ran
      obtain ⟨memo, span'', left, -, -, ran⟩ := (Local.readBuffer 34).run_bind ran
      cases ran
  | smartContract =>
      obtain ⟨name, span, left, rfl, -, ran⟩ := local_contractName.run_bind ran
      obtain ⟨codeBody, span', left, -, -, ran⟩ := local_longString.run_bind ran
      cases ran
  | contractCall =>
      obtain ⟨callee, span, left, rfl, -, ran⟩ := local_stacksAddress.run_bind ran
      obtain ⟨name, span', left, rfl, -, ran⟩ := local_contractName.run_bind ran
      obtain ⟨function, span'', left, rfl, -, ran⟩ := local_clarityName.run_bind ran
      obtain ⟨args, rawArgs, left, rfl, spans, ran⟩ :=
        (local_clarityValueArray localCV).run_bind_capture ran
      cases ran
      cases functionArgs with
      | nil => exact ⟨iff_of_true rfl rfl, fun raw same => nomatch same⟩
      | cons first others =>
          refine ⟨iff_of_false (fun none => nomatch none) (fun none => nomatch none), ?_⟩
          rintro raw ⟨⟩
          exact spans.run_fromBuffer
  | poisonMicroblock =>
      obtain ⟨header, span, left, rfl, -, ran⟩ :=
        (Local.readBuffer microblockHeaderSize).run_bind ran
      obtain ⟨header', span', left, -, -, ran⟩ :=
        (Local.readBuffer microblockHeaderSize).run_bind ran
      cases ran

/-- The stored bytes of the transaction give what they were stored for. -/
structure Rereads (clarity : ClarityLibrary CV) (tx : Transaction CV) : Prop where
  mode : tx.rawPostConditions.head? = some (UInt8.ofNat (ByteEnum.toNat tx.postConditionMode))
  postConditions : (readTransactionPostConditions clarity).run
      (BufferReader.fromBuffer (tx.rawPostConditions.drop 1)) =
    .ok (tx.postConditions, ⟨tx.rawPostConditions.drop 1, (tx.rawPostConditions.drop 1).length⟩)
  functionArgs : ∀ address contractName functionName functionArgs rawFunctionArgs,
    tx.payload = .contractCall address contractName functionName functionArgs rawFunctionArgs →
      (rawFunctionArgs = none ↔ functionArgs = []) ∧
        ∀ raw, rawFunctionArgs = some raw →
          (readClarityValueArray clarity).run (BufferReader.fromBuffer raw) =
            .ok (functionArgs, ⟨raw, raw.length⟩)

theorem rereads_of_readTransaction (localCV : Local clarity.deserializeCV)
    {reader final : BufferReader} {tx : Transaction CV}
    (read : (readTransaction clarity).run reader = .ok (tx, final)) : Rereads clarity tx := by
  obtain ⟨buffer, offset⟩ := reader
  have inside := Local.inside_of_readUInt8Enum read
  have split : buffer = buffer.take offset ++ buffer.drop offset :=
    (List.take_append_drop offset buffer).symm
  have start : offset = (buffer.take offset).length := (List.length_take_of_le inside).symm
  generalize buffer.take offset = before at split start
  generalize buffer.drop offset = rest at split
  subst split start
  obtain ⟨version, bytes, left, rfl, -, read⟩ := (Local.readUInt8Enum _).run_bind read
  obtain ⟨chainId, bytes, left, rfl, -, read⟩ := (Local.readUInt 4).run_bind read
  obtain ⟨auth, bytes, left, rfl, -, read⟩ := local_auth.run_bind read
  obtain ⟨anchorMode, bytes, left, rfl, -, read⟩ := (Local.readUInt8Enum _).run_bind read
  obtain ⟨⟨mode, conditions⟩, rawPostConditions, left, rfl, spans, read⟩ :=
    (local_postConditionSection localCV).run_bind_capture read
  rw [StateT.run_bind] at read
  obtain ⟨⟨payload, middle⟩, readPayload, same⟩ := Except.bind_eq_ok.mp read
  cases same
  obtain ⟨head, conditionsAgain⟩ := reread_postConditions localCV spans
  refine ⟨head, conditionsAgain, ?_⟩
  rintro address contractName functionName functionArgs rawFunctionArgs rfl
  exact reread_functionArgs localCV readPayload

/-- The stored bytes of a transaction, read again, give its mode, its post-conditions
and its arguments, with no bytes left. -/
theorem readTransaction_reread (localCV : Local clarity.deserializeCV)
    {reader final : BufferReader} {tx : Transaction CV}
    (read : (readTransaction clarity).run reader = .ok (tx, final)) :
    tx.rawPostConditions.head? = some (UInt8.ofNat (ByteEnum.toNat tx.postConditionMode)) ∧
      (readTransactionPostConditions clarity).run
          (BufferReader.fromBuffer (tx.rawPostConditions.drop 1)) =
        .ok (tx.postConditions,
          ⟨tx.rawPostConditions.drop 1, (tx.rawPostConditions.drop 1).length⟩) ∧
      ∀ address contractName functionName functionArgs rawFunctionArgs,
        tx.payload = .contractCall address contractName functionName functionArgs rawFunctionArgs →
          (rawFunctionArgs = none ↔ functionArgs = []) ∧
            ∀ raw, rawFunctionArgs = some raw →
              (readClarityValueArray clarity).run (BufferReader.fromBuffer raw) =
                .ok (functionArgs, ⟨raw, raw.length⟩) := by
  obtain ⟨mode, postConditions, functionArgs⟩ := rereads_of_readTransaction localCV read
  exact ⟨mode, postConditions, functionArgs⟩

end Clarity

theorem local_booleans : Local ClarityLibrary.booleans.deserializeCV := by
  apply (Local.readUInt 1).bind
  intro typeId
  split
  · exact Local.pure true
  · split
    · exact Local.pure false
    · exact Local.throw _

/-- The transfer as a contract call with one argument, under a post-condition. -/
def sampleCall : Transaction Bool :=
  { sampleTransfer 1 with
    postConditions := [.stx .origin .sentEq 1]
    payload := .contractCall { version := 26, bytes := List.replicate 20 0 } "c" "f" [true] none }

theorem isName_of_toList {name : String} {char : Char} (single : name.toList = [char])
    (ascii : char.toNat < 128) : IsName name where
  ascii other mem := by
    rw [single] at mem
    rw [List.mem_singleton.mp mem]
    exact ascii
  short := by
    rw [encodeAscii, List.length_map, single, List.length_singleton]
    decide

theorem sampleCall_wellFormed : sampleCall.WellFormed :=
  { sampleTransfer_wellFormed (show IsU64 1 from ⟨by decide, by decide⟩) with
    conditionCount := show 1 < 2 ^ 32 by decide
    postConditions := by
      rintro condition (_ | ⟨_, ⟨⟩⟩)
      exact ⟨trivial, by decide, by decide⟩
    payload := ⟨⟨by decide, List.length_replicate⟩,
      isName_of_toList (show "c".toList = ['c'] from rfl) (by decide),
      isName_of_toList (show "f".toList = ['f'] from rfl) (by decide), by decide⟩ }

/-- The condition and the argument of the call are read again. -/
theorem readTransaction_reread_sampleCall : ∃ tx final,
    (readTransaction ClarityLibrary.booleans).run
        (BufferReader.fromBuffer (encodeTransaction ClarityLibrary.booleans sampleCall)) =
      .ok (tx, final) ∧
    tx.rawPostConditions = [2, 0, 0, 0, 1, 0, 1, 1, 0, 0, 0, 0, 0, 0, 0, 1] ∧
    tx.rawPostConditions.head? = some (UInt8.ofNat (ByteEnum.toNat tx.postConditionMode)) ∧
    (readTransactionPostConditions ClarityLibrary.booleans).run
        (BufferReader.fromBuffer (tx.rawPostConditions.drop 1)) =
      .ok (tx.postConditions,
        ⟨tx.rawPostConditions.drop 1, (tx.rawPostConditions.drop 1).length⟩) ∧
    (readClarityValueArray ClarityLibrary.booleans).run
        (BufferReader.fromBuffer [0, 0, 0, 1, 3]) =
      .ok ([true], ⟨[0, 0, 0, 1, 3], 5⟩) := by
  have read := (decodes_transaction ClarityLibrary.booleans_roundTrips
    sampleCall_wellFormed).run_fromBuffer
  obtain ⟨head, conditions, args⟩ := readTransaction_reread local_booleans read
  exact ⟨_, _, read, by decide +kernel, head, conditions, (args _ _ _ _ _ rfl).2 _ rfl⟩

end StacksApi.P2p
