import StacksApi.Datastore.TxEvents
import StacksApi.EventStream.EventServer

/-!
# The record of an event

An event of a message is described by one record, which is pushed on the list of
its kind.  What the lists have in common is said of records here, whatever their
kinds.
-/

namespace StacksApi.EventStream

open StacksApi.Binary
open StacksApi.Datastore
open StacksApi.Transition

/-- The record that an event of a message stands for. -/
def describeEvent (base : DbEventBase String) : CoreNodeEvent → Except ApiError DbEvent
  | .contractEvent _ contractIdentifier topic rawValue => do
      let value ← hexToBuffer rawValue
      return .smartContractLog { toDbEventBase := base, contractIdentifier, topic, value }
  | .stxTransferEvent _ sender recipient amount => do
      let amount ← bigIntOfText amount
      return .stx { toDbEventBase := base, assetEventTypeId := .transfer, sender := some sender
                    recipient := some recipient, amount }
  | .stxMintEvent _ recipient amount => do
      let amount ← bigIntOfText amount
      return .stx { toDbEventBase := base, assetEventTypeId := .mint, sender := none
                    recipient := some recipient, amount }
  | .stxBurnEvent _ sender amount => do
      let amount ← bigIntOfText amount
      return .stx { toDbEventBase := base, assetEventTypeId := .burn, sender := some sender
                    recipient := none, amount }
  | .ftTransferEvent _ assetIdentifier sender recipient amount => do
      let amount ← bigIntOfText amount
      return .ft { toDbEventBase := base, assetEventTypeId := .transfer, sender := some sender
                   recipient := some recipient, assetIdentifier, amount }
  | .ftMintEvent _ assetIdentifier recipient amount => do
      let amount ← bigIntOfText amount
      return .ft { toDbEventBase := base, assetEventTypeId := .mint, sender := none
                   recipient := some recipient, assetIdentifier, amount }
  | .nftTransferEvent _ assetIdentifier sender recipient rawValue => do
      let value ← hexToBuffer rawValue
      return .nft { toDbEventBase := base, assetEventTypeId := .transfer, sender := some sender
                    recipient := some recipient, assetIdentifier, value }
  | .nftMintEvent _ assetIdentifier recipient rawValue => do
      let value ← hexToBuffer rawValue
      return .nft { toDbEventBase := base, assetEventTypeId := .mint, sender := none
                    recipient := some recipient, assetIdentifier, value }
  | .unknown _ inspected => .error (.failure s!"Unexpected CoreNodeEventType: {inspected}")

/-- The entry with one more event in the list of its kind. -/
def pushDbEvent (entry : TxEntry) : DbEvent → TxEntry
  | .stx event => { entry with stxEvents := entry.stxEvents ++ [event] }
  | .ft event => { entry with ftEvents := entry.ftEvents ++ [event] }
  | .nft event => { entry with nftEvents := entry.nftEvents ++ [event] }
  | .smartContractLog event =>
      { entry with contractLogEvents := entry.contractLogEvents ++ [event] }

theorem pushEvent_eq (blockHeight : Nat) (entry : TxEntry) (event : CoreNodeEvent) :
    pushEvent blockHeight entry event =
      (describeEvent (eventBase blockHeight entry event.txid) event).map (pushDbEvent entry) := by
  cases event with
  | contractEvent txid contractIdentifier topic rawValue =>
      dsimp only [pushEvent, describeEvent]
      cases hexToBuffer rawValue <;> rfl
  | stxTransferEvent txid sender recipient amount =>
      dsimp only [pushEvent, describeEvent]
      cases bigIntOfText amount <;> rfl
  | stxMintEvent txid recipient amount =>
      dsimp only [pushEvent, describeEvent]
      cases bigIntOfText amount <;> rfl
  | stxBurnEvent txid sender amount =>
      dsimp only [pushEvent, describeEvent]
      cases bigIntOfText amount <;> rfl
  | ftTransferEvent txid assetIdentifier sender recipient amount =>
      dsimp only [pushEvent, describeEvent]
      cases bigIntOfText amount <;> rfl
  | ftMintEvent txid assetIdentifier recipient amount =>
      dsimp only [pushEvent, describeEvent]
      cases bigIntOfText amount <;> rfl
  | nftTransferEvent txid assetIdentifier sender recipient rawValue =>
      dsimp only [pushEvent, describeEvent]
      cases hexToBuffer rawValue <;> rfl
  | nftMintEvent txid assetIdentifier recipient rawValue =>
      dsimp only [pushEvent, describeEvent]
      cases hexToBuffer rawValue <;> rfl
  | unknown txid inspected => rfl

/-- The kind and the values of an event do not depend on its shared columns. -/
theorem describeEvent_mapBase (change : DbEventBase String → DbEventBase String)
    (base : DbEventBase String) (event : CoreNodeEvent) :
    describeEvent (change base) event =
      (describeEvent base event).map (DbEvent.mapBase change) := by
  cases event with
  | contractEvent txid contractIdentifier topic rawValue =>
      dsimp only [describeEvent]
      cases hexToBuffer rawValue <;> rfl
  | stxTransferEvent txid sender recipient amount =>
      dsimp only [describeEvent]
      cases bigIntOfText amount <;> rfl
  | stxMintEvent txid recipient amount =>
      dsimp only [describeEvent]
      cases bigIntOfText amount <;> rfl
  | stxBurnEvent txid sender amount =>
      dsimp only [describeEvent]
      cases bigIntOfText amount <;> rfl
  | ftTransferEvent txid assetIdentifier sender recipient amount =>
      dsimp only [describeEvent]
      cases bigIntOfText amount <;> rfl
  | ftMintEvent txid assetIdentifier recipient amount =>
      dsimp only [describeEvent]
      cases bigIntOfText amount <;> rfl
  | nftTransferEvent txid assetIdentifier sender recipient rawValue =>
      dsimp only [describeEvent]
      cases hexToBuffer rawValue <;> rfl
  | nftMintEvent txid assetIdentifier recipient rawValue =>
      dsimp only [describeEvent]
      cases hexToBuffer rawValue <;> rfl
  | unknown txid inspected => rfl

theorem base_of_describeEvent {base : DbEventBase String} {event : CoreNodeEvent}
    {dbEvent : DbEvent} (described : describeEvent base event = .ok dbEvent) :
    dbEvent.base = base := by
  -- replacing the shared columns by themselves changes nothing
  have same := describeEvent_mapBase (fun _ => base) base event
  rw [described] at same
  have fixed := Except.ok.inj same
  rw [fixed, DbEvent.base_mapBase]

@[simp]
theorem tx_pushDbEvent (entry : TxEntry) (event : DbEvent) :
    (pushDbEvent entry event).tx = entry.tx := by
  cases event <;> rfl

@[simp]
theorem smartContracts_pushDbEvent (entry : TxEntry) (event : DbEvent) :
    (pushDbEvent entry event).smartContracts = entry.smartContracts := by
  cases event <;> rfl

theorem events_pushDbEvent (entry : TxEntry) (event : DbEvent) :
    (pushDbEvent entry event).events.Perm (entry.events ++ [event]) := by
  cases event with
  | stx event =>
      simp only [TxEntry.events, pushDbEvent, List.map_append, List.append_assoc]
      apply List.Perm.append_left
      exact (List.perm_append_comm).trans (by simp [List.append_assoc])
  | ft event =>
      simp only [TxEntry.events, pushDbEvent, List.map_append, List.append_assoc]
      apply List.Perm.append_left
      apply List.Perm.append_left
      exact (List.perm_append_comm).trans (by simp [List.append_assoc])
  | nft event =>
      simp only [TxEntry.events, pushDbEvent, List.map_append, List.append_assoc]
      apply List.Perm.append_left
      apply List.Perm.append_left
      apply List.Perm.append_left
      exact List.perm_append_comm
  | smartContractLog event =>
      simp only [TxEntry.events, pushDbEvent, List.map_append, List.append_assoc]
      exact List.Perm.refl _

theorem nextEventIndex_eq (entry : TxEntry) : nextEventIndex entry = entry.events.length := by
  simp [nextEventIndex, TxEntry.events, Nat.add_assoc]

end StacksApi.EventStream
