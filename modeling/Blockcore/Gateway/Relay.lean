import Blockcore.Gateway.Handlers

/-!
# Relayed broadcasts

A `BroadcastMessage` says of itself that the gateway relays it to all connected
hubs but the source.  `BroadcastMessageGatewayHandler` relays it to all of them:
the lines that leave the source out are commented out.

`relay_law_iff` is when the law holds all the same: when the source is not
connected.  The copies are whole (`Broadcast.toMessage_ofMessage`) and there is
one for each hub, whatever clients the others have.
-/

namespace Blockcore.Gateway

open Lib Networking

/-- The delivery law of a broadcast: one copy to every connected hub other than
the source, and none to the source. -/
structure RelayLaw (msg : BroadcastMessage) (g : GatewayManager) (sent : List Sent) : Prop where
  others : ∀ h ∈ g.connections, h.id ≠ msg.from → ∀ c, h.client = some c → g.connected c = true →
    sentTo sent c = [.broadcast msg]
  source : ∀ h ∈ g.connections, h.id = msg.from → ∀ c, h.client = some c → sentTo sent c = []

/-- The hub the broadcast names as its source is connected. -/
def SourceConnected (msg : BroadcastMessage) (g : GatewayManager) : Prop :=
  ∃ h ∈ g.connections, h.id = msg.from ∧ ∃ c, h.client = some c ∧ g.connected c = true

section

variable {g : GatewayManager} {msg : BroadcastMessage}

/-- **What a relay sends**: a whole copy to every live client. -/
theorem processBroadcast_hub (hto : msg.to = some "HUB")
    (hw : ∀ c ∈ g.liveClients g.connections, g.writeFails c = false) :
    processBroadcast msg g =
      .done (g.log ((g.liveClients g.connections).map (.tcp · (.broadcast msg)))) := by
  rw [processBroadcast, if_pos hto, Broadcast.toMessage_ofMessage]
  exact GatewayManager.sendAll_alive _ hw

theorem sentTo_relay (hclients : (g.connections.filterMap HubInfo.client).Nodup) (c : TcpClient) :
    sentTo ((g.liveClients g.connections).map (.tcp · (.broadcast msg))) c =
      if c ∈ g.liveClients g.connections then [.broadcast msg] else [] := by
  have hnodup : (g.liveClients g.connections).Nodup := by
    rw [GatewayManager.liveClients_eq_filter]
    exact hclients.filter _
  rw [sentTo_map_tcp]
  split
  · next h => rw [List.count_eq_one_of_mem hnodup h]; rfl
  · next h => rw [List.count_eq_zero_of_not_mem h]; rfl

/-- **Relayed broadcasts follow their law exactly when the source is not
connected**: otherwise the source gets its own broadcast back. -/
theorem relay_law_iff (hclients : (g.connections.filterMap HubInfo.client).Nodup)
    (hto : msg.to = some "HUB")
    (hw : ∀ c ∈ g.liveClients g.connections, g.writeFails c = false) :
    ∃ sent, processBroadcast msg g = .done (g.log sent) ∧
      (RelayLaw msg g sent ↔ ¬ SourceConnected msg g) := by
  refine ⟨_, processBroadcast_hub hto hw, ?_, ?_⟩
  · rintro law ⟨h, hh, hid, c, hc, hl⟩
    have := law.source h hh hid c hc
    rw [sentTo_relay hclients,
      if_pos (GatewayManager.mem_liveClients.mpr ⟨hl, h, hh, hc⟩)] at this
    cases this
  · intro hsource
    refine ⟨?_, ?_⟩
    · intro h hh _ c hc hl
      rw [sentTo_relay hclients, if_pos (GatewayManager.mem_liveClients.mpr ⟨hl, h, hh, hc⟩)]
    · intro h hh hid c hc
      have hlost : c ∉ g.liveClients g.connections := by
        intro hmem
        exact hsource ⟨h, hh, hid, c, hc, (GatewayManager.mem_liveClients.mp hmem).1⟩
      rw [sentTo_relay hclients, if_neg hlost]

end

/-- A gateway with four hubs: two are connected, one is lost, and one has no client. -/
def fourHubs : GatewayManager where
  connections := [{ id := some "a", client := some 1 }, { id := some "b", client := some 2 },
    { id := some "c", client := some 3 }, { id := some "d" }]
  udpEndpoint := anyEndPoint
  socket c := if c = 3 then .lost else .connected
  writeFails _ := false
  sent := []

def broadcastOf (source : String) : BroadcastMessage := { «from» := some source, «to» := some "HUB" }

theorem relay_law_iff_fourHubs :
    (∃ sent, processBroadcast (broadcastOf "c") fourHubs = .done (fourHubs.log sent) ∧
      RelayLaw (broadcastOf "c") fourHubs sent) ∧
    ∃ sent, processBroadcast (broadcastOf "a") fourHubs = .done (fourHubs.log sent) ∧
      ¬ RelayLaw (broadcastOf "a") fourHubs sent := by
  have hclients : (fourHubs.connections.filterMap HubInfo.client).Nodup := by decide
  refine ⟨?_, ?_⟩
  · obtain ⟨sent, hdone, hiff⟩ := @relay_law_iff fourHubs (broadcastOf "c") hclients rfl fun _ _ => rfl
    refine ⟨sent, hdone, hiff.mpr ?_⟩
    rintro ⟨h, hh, hid, c, hc, hconn⟩
    simp only [fourHubs, List.mem_cons, List.not_mem_nil, or_false] at hh
    rcases hh with rfl | rfl | rfl | rfl
    · exact absurd hid (by decide)
    · exact absurd hid (by decide)
    · rw [← Option.some.inj hc] at hconn
      exact absurd hconn (by decide)
    · cases hc
  · obtain ⟨sent, hdone, hiff⟩ := @relay_law_iff fourHubs (broadcastOf "a") hclients rfl fun _ _ => rfl
    exact ⟨sent, hdone, fun hlaw => hiff.mp hlaw ⟨_, List.mem_cons_self .., rfl, 1, rfl, rfl⟩⟩

/-- **The source gets its broadcast back.** -/
theorem broadcast_comes_back :
    ¬ ∀ (g : GatewayManager) (msg : BroadcastMessage), (g.connections.map HubInfo.id).Nodup →
      (g.connections.filterMap HubInfo.client).Nodup → msg.to = some "HUB" →
      (∀ c ∈ g.liveClients g.connections, g.writeFails c = false) →
      ∃ sent, processBroadcast msg g = .done (g.log sent) ∧ RelayLaw msg g sent := by
  intro hall
  obtain ⟨sent, hdone, law⟩ := hall fourHubs (broadcastOf "a") (by decide) (by decide) rfl (fun _ _ => rfl)
  have hsent : sent = [.tcp 1 (.broadcast (broadcastOf "a")), .tcp 2 (.broadcast (broadcastOf "a"))] :=
    (congrArg (fun o => o.state.sent) hdone).symm
  have := law.source _ (List.mem_cons_self ..) rfl 1 rfl
  rw [hsent] at this
  exact absurd this (by decide)

end Blockcore.Gateway
