import Blockcore.Network.Steps
import Blockcore.Hub.Events

/-!
# Hubs that come and go

Any number of hubs and one gateway, as in `Network.Steps`.  Here a hub may connect
again and again, each time over a `TcpClient` of its own, and lose the last one at any
time; and the datagrams are under way, too: each may be received once, by whoever is at
the endpoint it was sent to, after any delay and any others, or never.

A message stays under way on the client it was sent over, also when the hub has another
one by then.

The gateway's handlers and its `Disconnect` are one step each.  What they do to each other when
they run at the same time is in `Gateway.Concurrency` and `Gateway.Enumeration`.
-/

namespace Blockcore.Network.Links

open Lib Networking Gateway Hub

structure Datagram where
  source : IPEndPoint
  target : IPEndPoint
  message : BaseMessage
  deriving DecidableEq

/-- The hubs and the gateway; which hub opened each client, they are numbered as they are
opened, and which one each hub has; what is under way; and the datagram the gateway's UDP
worker has received and not handled. -/
structure State (ι : Type) where
  hub : ι → HubManager
  gateway : GatewayManager
  opened : List ι
  link : ι → Option TcpClient
  toGateway : TcpClient → List BaseMessage
  toHub : TcpClient → List BaseMessage
  datagrams : List Datagram
  taken : Option BaseMessage

/-- What happens: a hub connects to the gateway; it does something of its own; it sends
any other message; its TCP listener takes a message, its UDP listener a datagram; a
datagram is lost; sockets of the gateway's are lost, or fail; its UDP worker receives a
datagram, and handles it; its thread for a client takes a message, or cannot. -/
inductive Label (ι : Type) where
  | connect (i : ι) (localEndPoint : Option IPEndPoint)
  | act (i : ι) (s : Events.Step)
  | send (i : ι) (message : BaseMessage)
  | receive (i : ι)
  | datagram (i : ι) (k : Nat)
  | lose (k : Nat)
  | network (lost writeFails : TcpClient → Bool)
  | gatewayDatagram (k : Nat)
  | gatewayHandle
  | gatewayReceive (c : TcpClient)
  | gatewayEnd (c : TcpClient) (e : Exception)

def hubDatagrams (source : IPEndPoint) (acts : List Act) : List Datagram :=
  acts.filterMap fun
    | .sendUDP message endpoint => some ⟨source, endpoint, message⟩
    | _ => none

def gatewayDatagrams (source : IPEndPoint) (sent : List Sent) : List Datagram :=
  sent.filterMap fun
    | .udp endPoint message => some ⟨source, endPoint, message⟩
    | _ => none

/-- What a hub does on its own: it takes no message, and opens no client. -/
def ownStep : Events.Step → Bool
  | .receive .. => false
  | .connectGateway .. => false
  | _ => true

section

variable {ι : Type} [DecidableEq ι] (fmt : TextFormat) (address : ι → IPEndPoint) (server : IPEndPoint)

namespace State

/-- A step of hub `i` leaves it so. -/
def setHub (s : State ι) (i : ι) (h : HubManager) : State ι :=
  { s with
    hub := Function.update s.hub i h
    toGateway := fun c =>
      if s.link i = some c then s.toGateway c ++ sentTCP (reaction (s.hub i) h) else s.toGateway c
    datagrams := s.datagrams ++ hubDatagrams (address i) (reaction (s.hub i) h) }

def setGateway (s : State ι) (g : GatewayManager) : State ι :=
  { s with
    gateway := g
    toHub := fun c => s.toHub c ++ sentTo (g.sent.drop s.gateway.sent.length) c
    datagrams := s.datagrams ++ gatewayDatagrams server (g.sent.drop s.gateway.sent.length) }

/-- Hub `i` has a new client, which the gateway accepts. -/
def accept (s : State ι) (i : ι) : State ι :=
  { s with
    opened := s.opened ++ [i]
    link := Function.update s.link i (some s.opened.length)
    gateway := { s.gateway with
      socket := Function.update s.gateway.socket s.opened.length .connected } }

end State

def step (s : State ι) : Label ι → Option (State ι)
  | .connect i localEndPoint =>
    some ((s.accept i).setHub address i ((s.hub i).connectGateway fmt server localEndPoint))
  | .act i a =>
    if ownStep a then some (s.setHub address i (Events.step fmt (s.hub i) a)) else none
  | .send i message =>
    if message.getType = .HubInfoMessage then none
    else some (s.setHub address i ((s.hub i).sendMessageTCP message))
  | .receive i =>
    match s.link i with
    | none => none
    | some c =>
      match s.toHub c with
      | [] => none
      | message :: rest =>
        if (s.hub i).listening .Tcp then
          let s := { s with toHub := Function.update s.toHub c rest }
          some (s.setHub address i ((s.hub i).listen fmt (.ok (some message)) .Tcp none))
        else none
  | .datagram i k =>
    match s.datagrams[k]? with
    | none => none
    | some d =>
      if d.target = address i ∧ (s.hub i).listening .Udp then
        let s := { s with datagrams := s.datagrams.eraseIdx k }
        some (s.setHub address i ((s.hub i).listen fmt (.ok (some d.message)) .Udp (some d.source)))
      else none
  | .lose k => some { s with datagrams := s.datagrams.eraseIdx k }
  | .network lost writeFails =>
    let socket c := if lost c && s.gateway.connected c then .lost else s.gateway.socket c
    some { s with gateway := { s.gateway with socket := socket, writeFails := writeFails } }
  | .gatewayDatagram k =>
    match s.datagrams[k]? with
    | none => none
    | some d =>
      if d.target = server ∧ s.taken.isNone then
        let s := { s with datagrams := s.datagrams.eraseIdx k, taken := some d.message }
        some (s.setGateway server (Gateway.step fmt s.gateway (.receive d.source)))
      else none
  | .gatewayHandle =>
    match s.taken with
    | none => none
    | some message =>
      let s := { s with taken := none }
      some (s.setGateway server (Gateway.step fmt s.gateway (.udp (.ok (some message)))))
  | .gatewayReceive c =>
    match s.toGateway c with
    | [] => none
    | message :: rest =>
      if s.gateway.connected c then
        let s := { s with toGateway := Function.update s.toGateway c rest }
        some (s.setGateway server (Gateway.step fmt s.gateway (.tcp c (.ok (some message)))))
      else none
  | .gatewayEnd c e => some (s.setGateway server (Gateway.step fmt s.gateway (.tcp c (.error e))))

end

structure Fresh {ι : Type} (s : State ι) : Prop where
  named : ∀ i, (s.hub i).localHubInfo.id.isSome = true
  empty : ∀ i, (s.hub i).connections = .empty
  connections : s.gateway.connections = []
  opened : s.opened = []
  link : ∀ i, s.link i = none
  toGateway : ∀ c, s.toGateway c = []
  toHub : ∀ c, s.toHub c = []
  datagrams : s.datagrams = []
  taken : s.taken = none

structure Quiet {ι : Type} (s : State ι) : Prop where
  links : ∀ c < s.opened.length, s.toGateway c = [] ∧ s.toHub c = []
  datagrams : s.datagrams = []
  taken : s.taken = none

def registered {ι : Type} (s : State ι) : List (Option String) := s.gateway.connections.map HubInfo.id

end Blockcore.Network.Links
