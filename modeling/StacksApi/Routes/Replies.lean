import StacksApi.Routes.Subscriptions

/-!
# Replies to messages

`handleClientMessage` of `api/routes/ws-rpc.ts` answers every object of a message that is
not a notification with one response, which carries its id.  A message without such an
object is not answered, unless it is a batch: that is answered by an empty array.
-/

namespace StacksApi.Routes

/-- The id that the response to an object carries.  Notifications are not answered, and
the id of an object that is not valid is not known. -/
def ParsedObject.replyId : ParsedObject → Option RpcId
  | .request req => some req.id
  | .notification => none
  | .success id => some id
  | .error id => some id
  | .invalid _ => some .null

/-- The id that the response names. -/
def JsonRpc.id : JsonRpc → RpcId
  | .success id _ => id
  | .error id _ => id

/-- Objects that must not be answered. -/
def OnlyNotifications (objs : List ParsedObject) : Prop :=
  objs.filterMap ParsedObject.replyId = []

instance (objs : List ParsedObject) : Decidable (OnlyNotifications objs) :=
  inferInstanceAs (Decidable (_ = _))

/-- A message is answered by what `sent` holds: one response to an object, an array of
responses to a batch, and nothing where there is nothing to answer. -/
def Answers (sent : List ServerMessage) : WebSocketData → Prop
  | .single obj =>
      match obj.replyId with
      | none => sent = []
      | some id => ∃ response, sent = [.response response] ∧ response.id = id
  | .batch objs =>
      if OnlyNotifications objs then sent = []
      else ∃ responses, sent = [.responses responses] ∧
        responses.map JsonRpc.id = objs.filterMap ParsedObject.replyId
  | .other _ => ∃ response, sent = [.response response] ∧ response.id = .null

/-- A batch in which nothing is to be answered. -/
def WebSocketData.isSilentBatch : WebSocketData → Bool
  | .batch objs => decide (OnlyNotifications objs)
  | _ => false

section Replies

variable {Client : Type} [DecidableEq Client] {addresses : AddressLibrary}
variable {client : Client} {server : WsServer Client}

theorem handleSubscription_id (kind : RpcSubscriptionType) (topic : Option String)
    (invalid : String) (result : String → SubscriptionResult) (id : RpcId) (subscribe : Bool) :
    (handleSubscription kind topic invalid result client id subscribe server).2.id = id := by
  cases topic with
  | none => rfl
  | some topic => rfl

theorem handleClientSubscription_id (req : RpcRequest) (subscribe : Bool) :
    (handleClientSubscription addresses client req subscribe server).2.id = req.id := by
  unfold handleClientSubscription
  cases req.params with
  | none => rfl
  | some params =>
      dsimp only
      split
      · rfl
      · rfl
      · next event _ _ =>
          cases RpcSubscriptionType.ofEvent event with
          | none => rfl
          | some kind => cases kind <;> apply handleSubscription_id

/-- A request is answered under its id, whatever it asks for. -/
theorem handleClientRpcReq_id (req : RpcRequest) :
    (handleClientRpcReq addresses client req server).2.id = req.id := by
  unfold handleClientRpcReq
  split
  · exact handleClientSubscription_id req true
  · split
    · exact handleClientSubscription_id req false
    · rfl

theorem handleParsedObject_id (obj : ParsedObject) :
    (handleParsedObject addresses client obj server).2.map JsonRpc.id = obj.replyId := by
  cases obj with
  | request req => exact congrArg some (handleClientRpcReq_id req)
  | _ => rfl

/-- The responses carry the ids of the answered objects in their order. -/
theorem handleParsedObjects_ids (objs : List ParsedObject) :
    (handleParsedObjects addresses client objs server).2.map JsonRpc.id =
      objs.filterMap ParsedObject.replyId := by
  unfold handleParsedObjects
  induction objs using List.reverseRecOn with
  | nil => rfl
  | append_singleton objs obj ih =>
      rw [List.foldl_append, List.foldl_cons, List.foldl_nil, List.filterMap_append, ← ih]
      dsimp only
      rw [List.map_append, ← Option.toList_map, handleParsedObject_id]
      cases replyId : obj.replyId <;> simp [replyId]

/-- One response answers a single object that is to be answered. -/
theorem answers_single_of_ids {obj : ParsedObject} {responses : List JsonRpc}
    (ids : responses.map JsonRpc.id = [obj].filterMap ParsedObject.replyId) :
    Answers (responses.map .response) (.single obj) := by
  rw [Answers]
  cases replyId : obj.replyId with
  | none =>
      rw [List.filterMap_cons_none replyId, List.filterMap_nil, List.map_eq_nil_iff] at ids
      rw [ids]
      rfl
  | some id =>
      rw [List.filterMap_cons_some replyId, List.filterMap_nil, List.map_eq_singleton_iff] at ids
      obtain ⟨response, rfl, same⟩ := ids
      exact ⟨response, rfl, same⟩

/-- An array answers a batch in which something is to be answered, and no other. -/
theorem answers_batch_iff_of_ids {objs : List ParsedObject} {responses : List JsonRpc}
    (ids : responses.map JsonRpc.id = objs.filterMap ParsedObject.replyId) :
    Answers [.responses responses] (.batch objs) ↔ ¬OnlyNotifications objs := by
  rw [Answers]
  split
  · next silent => exact iff_of_false (List.cons_ne_nil _ _) (not_not.mpr silent)
  · next answered => exact iff_of_true ⟨responses, rfl, ids⟩ answered

/-- Every object that is to be answered is answered once, in order and under its id,
and a message in which nothing is to be answered is not answered, unless it is a batch. -/
theorem handleClientMessage_answers_iff (addresses : AddressLibrary) (client : Client)
    (data : WebSocketData) (server : WsServer Client) :
    Answers (handleClientMessage addresses client data server).2 data ↔
      data.isSilentBatch = false := by
  cases data with
  | other constructorName => exact iff_of_true ⟨_, rfl, rfl⟩ rfl
  | single obj => exact iff_of_true (answers_single_of_ids (handleParsedObjects_ids [obj])) rfl
  | batch objs =>
      rw [WebSocketData.isSilentBatch, decide_eq_false_iff_not]
      exact answers_batch_iff_of_ids (handleParsedObjects_ids objs)

/-- A batch of one notification is answered by an empty array. -/
theorem handleClientMessage_answers_notifications :
    (handleClientMessage AddressLibrary.zeroHash "client" (.batch [.notification])
        WsServer.start).2 = [.responses []] ∧
      ¬Answers (handleClientMessage AddressLibrary.zeroHash "client" (.batch [.notification])
        WsServer.start).2 (.batch [.notification]) := by
  have sent : (handleClientMessage AddressLibrary.zeroHash "client" (.batch [.notification])
      WsServer.start).2 = [.responses []] := rfl
  refine ⟨sent, ?_⟩
  rw [sent, Answers, if_pos (show OnlyNotifications [.notification] from rfl)]
  exact List.cons_ne_nil _ _

end Replies

end StacksApi.Routes
