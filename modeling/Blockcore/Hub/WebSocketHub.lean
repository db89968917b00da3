import Blockcore.Hub.Handlers

/-!
# What the user of a hub can broadcast

The two methods of `WebSocketHub` that have the hub send a broadcast.  It goes to the gateway
over `SendMessageTCP`, and carries the hub's id twice: as `From` and as `Id`.
-/

namespace Blockcore.Hub.WebSocketHub

open Lib Networking

/-- `MessageModel`. The broadcasts do not read `From`. -/
structure MessageModel where
  «from» : Option String
  content : Option String

section

variable (message : MessageModel) (h : HubManager)

/-- What `BroadcastToHubsRelayed` sends. -/
def broadcastToHubsRelayed : Broadcast where
  «to» := some "HUB"
  «from» := h.localHubInfo.id
  id := h.localHubInfo.id
  content := message.content

/-- What `BroadcastToGateways` sends. -/
def broadcastToGateways : Broadcast where
  «to» := some "GATEWAY"
  «from» := h.localHubInfo.id
  id := h.localHubInfo.id
  content := message.content

end

def Asked (h : HubManager) (m : BroadcastMessage) : Prop :=
  ∃ message, .broadcast m = (broadcastToHubsRelayed message h).toMessage ∨
    .broadcast m = (broadcastToGateways message h).toMessage

theorem Asked.from_eq {h : HubManager} {m : BroadcastMessage} (ha : Asked h m) :
    m.from = h.localHubInfo.id := by
  obtain ⟨message, heq | heq⟩ := ha
  · cases heq
    rfl
  · cases heq
    rfl

end Blockcore.Hub.WebSocketHub
