import Blockcore.Lib.Runs
import Blockcore.Hub.Effects
import Blockcore.Networking.DottedText

/-!
# What a hub publishes

The web client never asks a hub for its connections: it keeps a list of its own and
follows the events.  A `ConnectionAddedEvent` adds an id and a
`ConnectionRemovedEvent` removes one.

`described_iff` says when the list it gets is the hub's.  Adding and removing publish
their event; `ClearConnections`, which `DisconnectedGateway` calls, publishes none,
so there has to be nothing to clear.
-/

namespace Blockcore.Hub.Events

open Lib Networking

/-- A message is taken by a listener; a call goes on; the user or a handler connects to a
hub; the gateway is connected to, in two steps, or cannot be; it is disconnected; the
network changes what can be sent. -/
inductive Step where
  | receive (message : Except Exception (Option BaseMessage)) (protocol : ProtocolType)
      (endpoint : Option IPEndPoint)
  | advance (t : Nat)
  | connectToClient (r : Ref)
  | connectGateway (serverEndpoint : IPEndPoint) (localEndPoint : Option IPEndPoint)
  | connectedGateway
  | refusedGateway (serverEndpoint : IPEndPoint)
  | disconnectedGateway
  | network (connected writeFails : Bool)

def step (fmt : TextFormat) (h : HubManager) : Step → HubManager
  | .receive message protocol endpoint => h.listen fmt message protocol endpoint
  | .advance t => (h.advance t).getD h
  | .connectToClient r => h.connectToClient r
  | .connectGateway serverEndpoint localEndPoint => h.connectGateway fmt serverEndpoint localEndPoint
  | .connectedGateway => h.connectedGateway fmt
  | .refusedGateway serverEndpoint => h.refusedGateway fmt serverEndpoint
  | .disconnectedGateway => h.disconnectedGateway.state
  | .network connected writeFails => { h with connected := connected, writeFails := writeFails }

def run (fmt : TextFormat) (h : HubManager) (steps : List Step) : HubManager :=
  steps.foldl (step fmt) h

def published (acts : List Act) : List BaseEvent :=
  acts.filterMap fun
    | .publish event => some event
    | _ => none

def follow (ids : List (Option String)) : BaseEvent → List (Option String)
  | .connectionAdded data => ids ++ [data.id]
  | .connectionRemoved data => ids.erase data.id
  | _ => ids

def replay (events : List BaseEvent) : List (Option String) := events.foldl follow []

def Described (h : HubManager) : Prop := replay (published h.acts) = h.connections.ids

def Disconnects (h : HubManager) : Step → Prop
  | .receive (.ok (some (.notification item))) _ _ => item.type = .ServerShutdown ∧ h.connected = true
  | .disconnectedGateway => h.connected = true
  | _ => False

/-! ### Steps that publish what they do -/

/-- What was published from one state to the other tells how the ids changed. -/
structure Tells (h h' : HubManager) : Prop where
  made : h.connections.Made → h'.connections.Made
  events : h.connections.Made → ∃ events, published h'.acts = published h.acts ++ events ∧
    events.foldl follow h.connections.ids = h'.connections.ids

variable {fmt : TextFormat} {h h' h'' : HubManager}

theorem published_append (as bs : List Act) : published (as ++ bs) = published as ++ published bs :=
  List.filterMap_append

theorem Tells.trans (h₁ : Tells h h') (h₂ : Tells h' h'') : Tells h h'' where
  made hm := h₂.made (h₁.made hm)
  events hm := by
    obtain ⟨events₁, he₁, hf₁⟩ := h₁.events hm
    obtain ⟨events₂, he₂, hf₂⟩ := h₂.events (h₁.made hm)
    refine ⟨events₁ ++ events₂, by rw [he₂, he₁, List.append_assoc], ?_⟩
    rw [List.foldl_append, hf₁, hf₂]

theorem tells_of_ids (acts : List Act) (hacts : h'.acts = h.acts ++ acts)
    (hmade : h.connections.Made → h'.connections.Made) (hids : h'.connections.ids = h.connections.ids)
    (hfollow : ∀ event ∈ published acts, ∀ ids, follow ids event = ids) : Tells h h' where
  made := hmade
  events _ := by
    refine ⟨published acts, by rw [hacts, published_append], ?_⟩
    rw [hids]
    generalize published acts = events at hfollow
    generalize h.connections.ids = ids
    induction events with
    | nil => rfl
    | cons event events ih =>
      rw [List.foldl_cons, hfollow event (List.mem_cons_self ..)]
      exact ih fun e he => hfollow e (List.mem_cons_of_mem event he)

theorem tells_of_connections (hc : h'.connections = h.connections) (ha : h'.acts = h.acts) :
    Tells h h' :=
  tells_of_ids [] (by rw [ha, List.append_nil]) (fun hm => hc ▸ hm) (by rw [hc])
    fun _ he => by cases he

theorem Tells.refl (h : HubManager) : Tells h h := tells_of_connections rfl rfl

theorem tells_log (h : HubManager) {acts : List Act}
    (ha : ∀ event ∈ published acts, ∀ ids, follow ids event = ids) : Tells h (h.log acts) :=
  tells_of_ids acts rfl (fun hm => hm) rfl ha

theorem tells_publish (h : HubManager) {event : BaseEvent} (he : ∀ ids, follow ids event = ids) :
    Tells h (h.publish event) :=
  tells_log h fun e hmem => by rwa [List.mem_singleton.mp hmem]

theorem tells_store {r : Ref} {hubInfo : HubInfo} (hid : hubInfo.id = (h.hubInfo r).id) :
    Tells h (h.store r hubInfo) :=
  tells_of_ids [] (by rw [List.append_nil]; rfl) (fun hm => hm.store r hubInfo)
    (ConnectionManager.store_ids hid) fun _ he => by cases he

theorem tells_sendMessageTCP (h : HubManager) (message : BaseMessage) :
    Tells h (h.sendMessageTCP message) := by
  rw [HubManager.sendMessageTCP]
  split
  · exact tells_log h fun e he => by cases he
  · exact .refl h

theorem tells_findReachableEndpoint (h : HubManager) (caller : Caller) (r : Ref) :
    Tells h (h.findReachableEndpoint caller r) :=
  tells_of_ids [.findReachableEndpoint (h.hubInfo r)] rfl (fun hm => hm) rfl
    fun _ he => by cases he

/-- **What leaves the connections** publishes nothing about them. -/
theorem tells_effect (he : Effect h h') : Tells h h' := by
  cases he with
  | publish hpassing =>
    refine tells_publish h fun ids => ?_
    unfold BaseEvent.passing at hpassing
    unfold follow
    split
    · cases hpassing
    · cases hpassing
    · rfl
  | sendMessageUDP entity endpoint => exact tells_log h fun e he => by cases he
  | findReachableEndpoint caller r => exact tells_findReachableEndpoint h caller r
  | connectToClient r => exact (tells_sendMessageTCP ..).trans (tells_findReachableEndpoint ..)
  | store hid => exact tells_store hid
  | inside _ hc ha => exact tells_of_connections hc ha

theorem tells_effects (he : Effects h h') : Tells h h' := by
  induction he with
  | refl => exact .refl h
  | tail _ he ih => exact ih.trans (tells_effect he)

/-! ### Connections that come and go -/

theorem tells_addConnection (h : HubManager) (hubInfo : HubInfo) :
    Tells h ({ h with connections := h.connections.addConnection hubInfo }.publish
      (.connectionAdded hubInfo)) where
  made hm := hm.addConnection hubInfo
  events hm := by
    refine ⟨[.connectionAdded hubInfo], published_append .., ?_⟩
    exact (ConnectionManager.addConnection_ids hm hubInfo).symm

theorem removeConnection_ids_eq {s : ConnectionManager} {id : Option String} {r : Ref}
    (hs : s.Made) (hget : s.getConnection id = some r) :
    (s.removeConnection r).ids = s.ids.erase id := by
  have hid := ConnectionManager.getConnection_id hget
  rw [ConnectionManager.getConnection, List.find?_eq_some_iff_append] at hget
  obtain ⟨_, as, bs, hl, has⟩ := hget
  have hr := (hs.cut hl).1
  have hfirst : id ∉ as.map fun r => (s.heap r).id := by
    intro hmem
    obtain ⟨r', hr', heq⟩ := List.mem_map.mp hmem
    have := has r' hr'
    rw [heq] at this
    simp at this
  rw [ConnectionManager.ids_eq, ConnectionManager.ids_eq, ConnectionManager.removeConnection, hl,
    List.erase_append_right _ hr, List.erase_cons_head, List.map_append, List.map_append, List.map_cons,
    List.erase_append_right _ hfirst, hid, List.erase_cons_head]

/-- **A connection that is removed is published.** -/
theorem tells_removeConnection {id : Option String} {r : Ref}
    (hget : h.connections.getConnection id = some r) :
    Tells h ({ h with connections := h.connections.removeConnection r }.publish
      (.connectionRemoved (h.hubInfo r))) where
  made hm := hm.removeConnection r
  events hm := by
    refine ⟨[.connectionRemoved (h.hubInfo r)], published_append .., ?_⟩
    have hid : (h.hubInfo r).id = id := ConnectionManager.getConnection_id hget
    show h.connections.ids.erase (h.hubInfo r).id = _
    rw [hid]
    exact (removeConnection_ids_eq hm hget).symm

/-! ### Steps -/

theorem tells_handles {m : BaseMessage} (ht : Handles h m h')
    (hno : ∀ item, m = .notification item → ¬ (item.type = .ServerShutdown ∧ h.connected = true)) :
    Tells h h' := by
  cases ht with
  | effects _ he => exact tells_effects he
  | added _ _ => exact tells_addConnection ..
  | removed _ _ hget => exact tells_removeConnection hget
  | cleared htype hconn => exact absurd ⟨htype, hconn⟩ (hno _ rfl)

variable (fmt) in
/-- **A step that does not disconnect publishes what it does.** -/
theorem tells_step {s : Step} (hs : ¬ Disconnects h s) : Tells h (step fmt h s) := by
  cases s with
  | receive message protocol endpoint =>
    rcases message with e | _ | message
    · exact .refl h
    · exact .refl h
    · refine tells_handles (handles_listen ..) ?_
      rintro item rfl hcleared
      exact hs hcleared
  | advance t =>
    rw [step]
    cases ha : h.advance t with
    | none => exact .refl h
    | some h' => exact tells_effects (effects_advance ha)
  | connectToClient r => exact tells_effect (.connectToClient r)
  | connectGateway serverEndpoint localEndPoint =>
    exact tells_of_ids [.sendUDP (h.localHubInfo.simplified.toMessage fmt) serverEndpoint]
      rfl (fun hm => hm) rfl fun e he => by cases he
  | connectedGateway => exact (tells_sendMessageTCP ..).trans (tells_publish _ fun _ => rfl)
  | refusedGateway serverEndpoint => exact tells_effect (.publish rfl)
  | disconnectedGateway =>
    have hconn : ¬ h.connected = true := hs
    rw [step, HubManager.disconnectedGateway, if_neg hconn]
    exact .refl h
  | network connected writeFails => exact tells_of_connections rfl rfl

/-- **A step that disconnects** clears the connections and publishes none of it. -/
theorem step_disconnects (fmt : TextFormat) {s : Step} (hs : Disconnects h s) :
    (step fmt h s).connections = h.connections.clearConnections ∧
      replay (published (step fmt h s).acts) = replay (published h.acts) := by
  cases s with
  | disconnectedGateway =>
    have hconn : h.connected = true := hs
    rw [step, HubManager.disconnectedGateway, if_pos hconn]
    exact ⟨rfl, rfl⟩
  | receive message protocol endpoint =>
    rcases message with e | _ | message
    · cases hs
    · cases hs
    · cases message with
      | notification item =>
        obtain ⟨htype, hconn⟩ : item.type = .ServerShutdown ∧ h.connected = true := hs
        rw [step, HubManager.listen_some, process_hubMaps]
        simp only [processNotification, htype, HubManager.disconnectedGateway, if_pos hconn,
          Outcome.done_andThen, Outcome.state_done]
        refine ⟨rfl, ?_⟩
        rw [HubManager.publish, HubManager.log, published_append, replay, replay, List.foldl_append]
        rfl
      | _ => cases hs
  | _ => cases hs

theorem step_made (fmt : TextFormat) (h : HubManager) (s : Step) (hm : h.connections.Made) :
    (step fmt h s).connections.Made := by
  by_cases hs : Disconnects h s
  · rw [(step_disconnects fmt hs).1]
    exact ⟨(fun r hr => by cases hr), List.nodup_nil⟩
  · exact (tells_step fmt hs).made hm

/-- **One step** keeps the events in line, unless it clears what is there. -/
theorem described_step_iff (fmt : TextFormat) (h : HubManager) (s : Step) (hm : h.connections.Made)
    (hd : Described h) :
    Described (step fmt h s) ↔ (Disconnects h s → h.connections.ids = []) := by
  by_cases hs : Disconnects h s
  · obtain ⟨hconn, hacts⟩ := step_disconnects fmt hs
    rw [Described, hconn, hacts, hd]
    exact ⟨fun h _ => h, fun h => h hs⟩
  · refine ⟨fun _ h => absurd h hs, fun _ => ?_⟩
    obtain ⟨events, hacts, hids⟩ := (tells_step fmt hs).events hm
    rw [Described, hacts, replay, List.foldl_append]
    rw [Described, replay] at hd
    rw [hd, hids]

/-- **The events describe the connections after every step** of a run exactly if the
gateway is disconnected from only while there are no connections. -/
theorem described_iff (fmt : TextFormat) {h₀ : HubManager} (hempty : h₀.connections.connections = [])
    (hacts : h₀.acts = []) (steps : List Step) :
    (∀ done, done <+: steps → Described (run fmt h₀ done)) ↔
      ∀ done s, done ++ [s] <+: steps → Disconnects (run fmt h₀ done) s →
        (run fmt h₀ done).connections.ids = [] := by
  refine foldl_all_iff (I := fun h : HubManager => h.connections.Made) (step_made fmt) (described_step_iff fmt)
    ⟨fun r hr => ?_, ?_⟩ ?_ steps
  · rw [hempty] at hr
    cases hr
  · rw [hempty]
    exact List.nodup_nil
  · rw [Described, hacts, ConnectionManager.ids_eq, hempty]
    rfl

def connectedHub : HubManager where
  localHubInfo := { id := some "h" }
  connections := .empty
  ackResponces := []
  nextAck := 0
  connected := true
  writeFails := false
  tcpListen := true
  udpListen := true
  calls := []
  acts := []

def hears : Step := .receive (.ok (some (({ id := some "a" } : HubInfo).toMessage dottedText))) .Tcp none

def shutdown : Step :=
  .receive (.ok (some (Notification.new .ServerShutdown none).toMessage)) .Tcp none

def leaves : Step :=
  .receive (.ok (some (Notification.new .Disconnected (some "a")).toMessage)) .Tcp none

theorem described_iff_left :
    (∀ done, done <+: [hears, leaves, shutdown] → Described (run dottedText connectedHub done)) ↔
      ∀ done s, done ++ [s] <+: [hears, leaves, shutdown] →
        Disconnects (run dottedText connectedHub done) s →
          (run dottedText connectedHub done).connections.ids = [] :=
  described_iff dottedText rfl rfl [hears, leaves, shutdown]

/-- **A shutdown leaves the web client with the hubs that were there.** -/
theorem shutdown_not_described :
    ¬ ∀ (fmt : TextFormat) (h₀ : HubManager), h₀.connections.connections = [] → h₀.acts = [] →
      ∀ steps done, done <+: steps → Described (run fmt h₀ done) := by
  intro hall
  have hd := hall dottedText connectedHub rfl rfl [hears, shutdown] _ (List.prefix_refl _)
  have hids : (run dottedText connectedHub [hears, shutdown]).connections.ids = [] := by decide
  have hreplay : replay (published (run dottedText connectedHub [hears, shutdown]).acts) =
      [some "a"] := by decide
  rw [Described, hids, hreplay] at hd
  cases hd

end Blockcore.Hub.Events
