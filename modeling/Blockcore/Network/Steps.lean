import Blockcore.Lib.Runs
import Blockcore.Gateway.Workers
import Blockcore.Hub.Handlers

/-!
# Hubs and a gateway

Any number of hubs, each with a TCP connection to one gateway.  Messages on a
connection arrive in order, after any delay; datagrams arrive or not.  Every step is
one thread's: a handler runs alone, and a call of `FindReachableEndpoint` is many
steps.

What a step sends is read off what it adds to the sender's log.
-/

namespace Blockcore.Network

open Lib Networking Gateway Hub

/-- The hubs, the gateway, and the messages under way on each connection. -/
structure State (ι : Type) where
  hub : ι → HubManager
  gateway : GatewayManager
  toGateway : ι → List BaseMessage
  toHub : ι → List BaseMessage

/-- What happens: a hub calls `ConnectToClient` on a hub it holds; it sends the
gateway any other message; a call goes on; it receives a datagram; its TCP listener
takes a message; its connection is lost; the gateway's thread for it takes a message;
the gateway receives a datagram, or takes one. -/
inductive Label (ι : Type) where
  | connectToClient (i : ι) (hubInfo : Ref)
  | send (i : ι) (message : BaseMessage)
  | advance (i : ι) (t : Nat)
  | datagram (i : ι) (message : Except Exception (Option BaseMessage)) (source : IPEndPoint)
  | receive (i : ι)
  | lose (i : ι)
  | gatewayReceive (i : ι)
  | gatewayEndpoint (source : IPEndPoint)
  | gatewayDatagram (message : Except Exception (Option BaseMessage))

def sentTCP (acts : List Act) : List BaseMessage :=
  acts.filterMap fun
    | .sendTCP message => some message
    | _ => none

theorem mem_sentTCP {acts : List Act} {m : BaseMessage} : m ∈ sentTCP acts ↔ .sendTCP m ∈ acts := by
  rw [sentTCP, List.mem_filterMap]
  refine ⟨?_, ?_⟩
  · rintro ⟨act, hact, heq⟩
    cases act with
    | sendTCP message => rwa [← Option.some.inj heq]
    | _ => cases heq
  · intro h
    exact ⟨.sendTCP m, h, rfl⟩

def reaction (h h' : HubManager) : List Act := h'.acts.drop h.acts.length

theorem reaction_eq {h h' : HubManager} {new : List Act} (hnew : h'.acts = h.acts ++ new) :
    reaction h h' = new := by
  rw [reaction, hnew, List.drop_left]

section

variable {ι : Type} [DecidableEq ι] (fmt : TextFormat) (client : ι → TcpClient)

namespace State

/-- A step of hub `i` leaves it so. -/
def setHub (s : State ι) (i : ι) (h : HubManager) : State ι :=
  { s with
    hub := Function.update s.hub i h
    toGateway := Function.update s.toGateway i (s.toGateway i ++ sentTCP (reaction (s.hub i) h)) }

def setGateway (s : State ι) (g : GatewayManager) : State ι :=
  { s with
    gateway := g
    toHub := fun i => s.toHub i ++ sentTo (g.sent.drop s.gateway.sent.length) (client i) }

end State

def step (s : State ι) : Label ι → Option (State ι)
  | .connectToClient i r =>
    if r ∈ (s.hub i).connections.connections then some (s.setHub i ((s.hub i).connectToClient r))
    else none
  | .send i message => some (s.setHub i ((s.hub i).sendMessageTCP message))
  | .advance i t => ((s.hub i).advance t).map (s.setHub i)
  | .datagram i message source =>
    if (s.hub i).listening .Udp then
      some (s.setHub i ((s.hub i).listen fmt message .Udp (some source)))
    else none
  | .receive i =>
    match s.toHub i with
    | [] => none
    | message :: rest =>
      if (s.hub i).listening .Tcp then
        let s := { s with toHub := Function.update s.toHub i rest }
        some (s.setHub i ((s.hub i).listen fmt (.ok (some message)) .Tcp none))
      else none
  | .lose i => some (s.setHub i { s.hub i with connected := false })
  | .gatewayReceive i =>
    match s.toGateway i with
    | [] => none
    | message :: rest =>
      let s := { s with toGateway := Function.update s.toGateway i rest }
      some (s.setGateway client (Gateway.step fmt s.gateway (.tcp (client i) (.ok (some message)))))
  | .gatewayEndpoint source =>
    some (s.setGateway client (Gateway.step fmt s.gateway (.receive source)))
  | .gatewayDatagram message =>
    some (s.setGateway client (Gateway.step fmt s.gateway (.udp message)))

end

structure Quiet {ι : Type} (s : State ι) : Prop where
  acts : ∀ i, (s.hub i).acts = []
  toGateway : ∀ i, s.toGateway i = []
  toHub : ∀ i, s.toHub i = []

/-! ### What the gateway sends -/

/-- The gateway went on from one state to the other, and what it sent over TCP is
this. -/
def Sends (P : BaseMessage → Prop) (g g' : GatewayManager) : Prop :=
  ∃ new, g'.sent = g.sent ++ new ∧ ∀ c m, Sent.tcp c m ∈ new → P m

variable {P : BaseMessage → Prop} {g g' g'' : GatewayManager}

theorem Sends.refl (g : GatewayManager) : Sends P g g := ⟨[], by simp, fun c m hm => by cases hm⟩

theorem Sends.mono {Q : BaseMessage → Prop} (h : Sends P g g') (hPQ : ∀ m, P m → Q m) : Sends Q g g' := by
  obtain ⟨new, hnew, hP⟩ := h
  exact ⟨new, hnew, fun c m hm => hPQ m (hP c m hm)⟩

theorem Sends.silent (h : Sends P g g') (he : g''.sent = g'.sent) : Sends P g g'' := by
  obtain ⟨new, hnew, hP⟩ := h
  exact ⟨new, he.trans hnew, hP⟩

theorem Sends.log (h : Sends P g g') {sent : List Sent} (hs : ∀ c m, Sent.tcp c m ∈ sent → P m) :
    Sends P g (g'.log sent) := by
  obtain ⟨new, hnew, hP⟩ := h
  refine ⟨new ++ sent, by rw [GatewayManager.log_sent, hnew, List.append_assoc], fun c m hm => ?_⟩
  rcases List.mem_append.mp hm with hm | hm
  · exact hP c m hm
  · exact hs c m hm

theorem Sends.disconnect (h : Sends P g g') (hP : ∀ n, P (.notification n)) (client : TcpClient) :
    Sends P g (g'.disconnect client).state := by
  unfold GatewayManager.disconnect
  split
  · exact h
  · dsimp only
    split
    · exact h.silent rfl
    · rw [GatewayManager.broadcastTCP_state]
      refine Sends.log (h.silent rfl) fun c m hm => ?_
      obtain ⟨_, _, heq⟩ := List.mem_map.mp hm
      cases heq
      exact hP _

/-- **A hub's message** makes the gateway send hubs and texts. -/
theorem Sends.processInfo (h : Sends P g g') (hinfo : ∀ m, P (.info m)) (hmsg : ∀ m, P (.msg m))
    (fmt : TextFormat) (message : HubInfoMessage) (protocol : ProtocolType)
    (endpoint : Option IPEndPoint) (client : Option TcpClient) :
    Sends P g (Gateway.processInfo fmt message protocol endpoint client g').state := by
  refine processInfo_inv (P := Sends P g) (fun g₁ sent h₁ hs => h₁.log fun c m hm => ?_)
    (fun g₁ connections h₁ => h₁.silent rfl) h
  obtain ⟨x, hx⟩ := hs _ hm
  cases hx with
  | hub _ => exact hinfo _
  | tcpTest _ text => exact hmsg _

end Blockcore.Network
