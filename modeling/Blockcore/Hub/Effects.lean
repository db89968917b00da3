import Mathlib.Logic.Relation
import Blockcore.Hub.Handlers

/-!
# What a hub does

The handlers, `ConnectToClient` and the calls of `FindReachableEndpoint` are all made of a
few things, done one after another: an `Effect` is one, `Effects` are some.  With none of
them does a connection come or go.  It does so where a message has a hub added, removed or
all of them cleared, and `handles_listen` tells these apart.

So a relation between a hub before and after that every effect has, every piece of code has.
-/

namespace Blockcore.Hub

open Lib Networking

/-- The event is not about a connection that comes or goes. -/
def BaseEvent.passing : BaseEvent → Bool
  | .connectionAdded _ => false
  | .connectionRemoved _ => false
  | _ => true

/-- One of the things a hub does that leave it its connections. -/
inductive Effect (h : HubManager) : HubManager → Prop where
  | publish {event : BaseEvent} (he : event.passing = true) : Effect h (h.publish event)
  | sendMessageUDP (entity : Entity) (endpoint : IPEndPoint) :
    Effect h (h.sendMessageUDP entity endpoint).1
  | findReachableEndpoint (caller : Caller) (r : Ref) : Effect h (h.findReachableEndpoint caller r)
  | connectToClient (r : Ref) : Effect h (h.connectToClient r)
  /-- An assignment to an object; none is to its id. -/
  | store {r : Ref} {hubInfo : HubInfo} (hid : hubInfo.id = (h.hubInfo r).id) :
    Effect h (h.store r hubInfo)
  /-- Something nobody else sees: to its calls, its acknowledgements or its sockets. -/
  | inside {h' : HubManager} (hl : h'.localHubInfo = h.localHubInfo)
    (hc : h'.connections = h.connections) (ha : h'.acts = h.acts) : Effect h h'

abbrev Effects : HubManager → HubManager → Prop := Relation.ReflTransGen Effect

variable {h h' : HubManager}

theorem effects_publishUpdated (h : HubManager) (r : Ref) : Effects h (h.publishUpdated r) := by
  have hpublish : Effects h (h.publish (.connectionUpdated (h.hubInfo r))) := .single (.publish rfl)
  rw [HubManager.publishUpdated]
  split
  · exact hpublish.tail (.connectToClient ..)
  · exact hpublish

theorem effects_advance {t : Nat} (hs : h.advance t = some h') : Effects h h' := by
  have hgoto : ∀ (h : HubManager) pc, Effect h (h.goto t pc) := fun h pc => .inside rfl rfl rfl
  obtain ⟨pc, rfl | ⟨endpoint, rfl⟩ | ⟨r, type, response, rfl⟩ | ⟨call, endpoint, _, rfl⟩⟩ :=
    HubManager.advance_effects hs
  · exact .single (hgoto h pc)
  · exact .tail (.single (.sendMessageUDP _ endpoint)) (hgoto _ pc)
  · refine .tail ?_ (hgoto _ pc)
    have hstore : Effects h (h.store r { h.hubInfo r with connectionType := type }) :=
      .single (.store rfl)
    exact hstore.tail (.inside rfl rfl rfl)
  · refine .tail ?_ (hgoto _ pc)
    have hstarted : Effects h (h.publish (.connectionStarted (h.hubInfo call.hubInfo) endpoint)) :=
      .single (.publish rfl)
    rw [HubManager.resume]
    split
    · exact hstarted
    · exact hstarted.trans (effects_publishUpdated ..)

/-! ### Handlers -/

theorem effects_processAck (fmt : TextFormat) (msg : AckMessage) (endpoint : Option IPEndPoint)
    (h : HubManager) : Effects h (processAck fmt msg endpoint h).state := by
  have hport : ∀ r known source, Effects h (learnPort r known source h) := by
    intro r known source
    rw [learnPort]
    split
    · refine Relation.ReflTransGen.trans ?_ (effects_publishUpdated ..)
      exact .single (.store rfl)
    · exact .refl
  have haddress : ∀ r known source (h : HubManager), Effects h (learnAddress fmt r known source h) := by
    intro r known source h
    rw [learnAddress]
    split
    · exact .single (.store rfl)
    · exact .refl
  rw [processAck]
  split
  · exact .single (.inside rfl rfl rfl)
  · split
    · exact .refl
    · split
      · exact ((hport ..).trans (haddress ..)).tail (.sendMessageUDP ..)
      · exact .refl

theorem effects_processMessage (msg : MessageMessage) (endpoint : Option IPEndPoint)
    (client : Option TcpClient) (h : HubManager) : Effects h (processMessage msg endpoint client h) := by
  rw [processMessage]
  split
  · exact .single (.publish rfl)
  · split
    · exact .single (.publish rfl)
    · exact .refl

theorem effects_processReq (msg : ReqMessage) (protocol : ProtocolType) (h : HubManager) :
    Effects h (processReq msg protocol h) := by
  rw [processReq]
  split
  · exact .refl
  · exact .tail (.single (.publish rfl)) (.findReachableEndpoint ..)

/-- What taking a message comes to. -/
inductive Handles (h : HubManager) : BaseMessage → HubManager → Prop where
  | effects {m : BaseMessage} {h' : HubManager}
    (hno : ∀ item tag, m = .notification item → item.type = .Disconnected → item.tag = some tag →
      h.connections.getConnection (some tag) = none)
    (he : Effects h h') : Handles h m h'
  | added {msg : HubInfoMessage} {hubInfo : HubInfo} (hid : hubInfo.id = msg.id)
    (hnew : h.connections.getConnection msg.id = none) :
    Handles h (.info msg) ({ h with connections := h.connections.addConnection hubInfo }.publish
      (.connectionAdded hubInfo))
  | removed {item : NotificationMessage} {tag : String} {r : Ref} (htype : item.type = .Disconnected)
    (htag : item.tag = some tag) (hget : h.connections.getConnection (some tag) = some r) :
    Handles h (.notification item) ({ h with connections := h.connections.removeConnection r }.publish
      (.connectionRemoved (h.hubInfo r)))
  | cleared {item : NotificationMessage} (htype : item.type = .ServerShutdown)
    (hconn : h.connected = true) :
    Handles h (.notification item) (h.disconnectedGateway.state.publish .gatewayShutdown)

theorem handles_info (fmt : TextFormat) (msg : HubInfoMessage) (h : HubManager) :
    Handles h (.info msg) (processInfo fmt msg h).state := by
  have hno : ∀ item tag, BaseMessage.info msg = .notification item → item.type = .Disconnected →
      item.tag = some tag → h.connections.getConnection (some tag) = none := by
    intro item tag hm
    cases hm
  rw [processInfo]
  split
  · next hnew =>
    split
    · exact .effects hno .refl
    · next hm => exact .added (ofMessage_id hm) hnew
  · next r _ =>
    have hid := update_state_id fmt (h.hubInfo r) msg
    split
    · next hu =>
      rw [hu] at hid
      exact .effects hno (.single (.store hid))
    · next hu =>
      rw [hu] at hid
      have hstore : Effects h (h.store r _) := .single (.store hid)
      exact .effects hno (hstore.trans (effects_publishUpdated ..))

theorem handles_notification (item : NotificationMessage) (h : HubManager) :
    Handles h (.notification item) (processNotification item h).state := by
  rw [processNotification]
  cases htype : item.type with
  | Disconnected =>
    simp only
    cases htag : item.tag with
    | none =>
      refine .effects (fun item' tag hm _ htag' => ?_) .refl
      cases hm
      rw [htag] at htag'
      cases htag'
    | some tag =>
      simp only
      cases hget : h.connections.getConnection (some tag) with
      | none =>
        refine .effects (fun item' tag' hm _ htag' => ?_) .refl
        cases hm
        rw [← htag', htag]
        exact hget
      | some r => exact .removed htype htag hget
  | ServerShutdown =>
    by_cases hconn : h.connected = true
    · have hcleared := Handles.cleared htype hconn
      rw [HubManager.disconnectedGateway, if_pos hconn] at hcleared
      simp only [HubManager.disconnectedGateway, if_pos hconn, Outcome.done_andThen]
      exact hcleared
    · simp only [HubManager.disconnectedGateway, if_neg hconn, Outcome.thrown_andThen]
      refine .effects (fun item' tag hm hdisconnected => ?_) .refl
      cases hm
      rw [htype] at hdisconnected
      cases hdisconnected

theorem handles_listen (fmt : TextFormat) (m : BaseMessage) (protocol : ProtocolType)
    (endpoint : Option IPEndPoint) (h : HubManager) :
    Handles h m (h.listen fmt (.ok (some m)) protocol endpoint) := by
  rw [HubManager.listen_some, process_hubMaps]
  cases m with
  | ack msg => exact .effects (fun _ _ hm => by cases hm) (effects_processAck fmt msg endpoint h)
  | info msg => exact handles_info fmt msg h
  | msg msg => exact .effects (fun _ _ hm => by cases hm) (effects_processMessage ..)
  | notification item => exact handles_notification item h
  | req msg => exact .effects (fun _ _ hm => by cases hm) (effects_processReq ..)
  | keepAlive _ => exact .effects (fun _ _ hm => by cases hm) .refl
  | broadcast _ => exact .effects (fun _ _ hm => by cases hm) .refl
  | test _ => exact .effects (fun _ _ hm => by cases hm) .refl

end Blockcore.Hub
