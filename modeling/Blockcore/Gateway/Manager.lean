import Blockcore.Lib.Registry
import Blockcore.Networking.Entities

/-!
# The gateway's state

`GatewayManager` with its `ConnectionManager`: the registered hubs, the source of
the last datagram, and the sockets.  A handler runs alone here, so a reference
to a `HubInfo` is its place in the list.

What is sent is kept in `sent`, in order.  It holds messages: that the bytes of
one decode to it again is the wire format's business.  `Write` throws on the
clients in `writeFails`, however connected they say they are; a datagram is
always handed over.

`sendAll_eq` is what a loop of sends does: every live client before the first
dead one gets the message, and the loop throws if there is a dead one.
-/

namespace Blockcore.Gateway

open Lib Networking

/-- The socket of a `TcpClient`: `Connected` says it is the first, and only a
closed one is disposed of. -/
inductive SocketState where
  | connected
  | lost
  | closed
  deriving DecidableEq

inductive Sent where
  | tcp (client : TcpClient) (message : BaseMessage)
  | udp (endPoint : IPEndPoint) (message : BaseMessage)
  deriving DecidableEq

/-- `GatewayManager`. -/
structure GatewayManager where
  connections : List HubInfo
  udpEndpoint : IPEndPoint
  socket : TcpClient → SocketState
  writeFails : TcpClient → Bool
  sent : List Sent

def anyEndPoint : IPEndPoint := ⟨⟨[0, 0, 0, 0], Or.inl rfl⟩, 6610⟩

namespace GatewayManager

/-- `client.Connected`. -/
def connected (g : GatewayManager) (client : TcpClient) : Bool := g.socket client == .connected

/-- `client.Close()`. -/
def close (g : GatewayManager) (client : TcpClient) : GatewayManager :=
  { g with socket := Function.update g.socket client .closed }

def log (g : GatewayManager) (sent : List Sent) : GatewayManager := { g with sent := g.sent ++ sent }

@[simp] theorem log_connections (g : GatewayManager) (s : List Sent) :
    (g.log s).connections = g.connections := rfl
@[simp] theorem log_udpEndpoint (g : GatewayManager) (s : List Sent) :
    (g.log s).udpEndpoint = g.udpEndpoint := rfl
@[simp] theorem log_socket (g : GatewayManager) (s : List Sent) : (g.log s).socket = g.socket := rfl
@[simp] theorem log_writeFails (g : GatewayManager) (s : List Sent) :
    (g.log s).writeFails = g.writeFails := rfl
@[simp] theorem log_sent (g : GatewayManager) (s : List Sent) : (g.log s).sent = g.sent ++ s := rfl
@[simp] theorem log_connected (g : GatewayManager) (s : List Sent) :
    (g.log s).connected = g.connected := rfl
@[simp] theorem log_nil (g : GatewayManager) : g.log [] = g := by simp [log]
@[simp] theorem log_log (g : GatewayManager) (s t : List Sent) :
    (g.log s).log t = g.log (s ++ t) := by simp [log]
@[simp] theorem close_connections (g : GatewayManager) (c : TcpClient) :
    (g.close c).connections = g.connections := rfl
@[simp] theorem close_writeFails (g : GatewayManager) (c : TcpClient) :
    (g.close c).writeFails = g.writeFails := rfl
@[simp] theorem close_sent (g : GatewayManager) (c : TcpClient) : (g.close c).sent = g.sent := rfl

theorem close_connected (g : GatewayManager) (c d : TcpClient) :
    (g.close c).connected d = (decide (d ≠ c) && g.connected d) := by
  by_cases h : d = c
  · subst h
    simp [connected, close]
  · simp [connected, close, h]

theorem connected_ne_closed {g : GatewayManager} {c : TcpClient} (h : g.connected c = true) :
    g.socket c ≠ .closed := by
  intro hc
  rw [connected, hc] at h
  cases h

theorem open_of_connected {g : GatewayManager} {c : TcpClient} (h : g.connected c = true) :
    ∀ d ∈ some c, g.socket d ≠ .closed := by
  intro d hd
  rw [← Option.some.inj hd]
  exact connected_ne_closed h

/-! ### `ConnectionManager` -/

/-- `GetConnection(string)`. -/
def getConnection (g : GatewayManager) (id : Option String) : Option (HubInfo × Nat) :=
  firstMatch (fun x => x.id == id) g.connections

/-- `GetConnection(TcpClient)`. -/
def getConnectionOf (g : GatewayManager) (client : TcpClient) : Option (HubInfo × Nat) :=
  firstMatch (fun x => x.client == some client) g.connections

/-- `AddConnection`. -/
def addConnection (g : GatewayManager) (hubInfo : HubInfo) : GatewayManager :=
  { g with connections := g.connections ++ [hubInfo] }

/-- `RemoveConnection` of the object at this place. -/
def removeConnection (g : GatewayManager) (i : Nat) : GatewayManager :=
  { g with connections := g.connections.eraseIdx i }

/-- An assignment to the fields of the object at this place. -/
def store (g : GatewayManager) (i : Nat) (hubInfo : HubInfo) : GatewayManager :=
  { g with connections := g.connections.set i hubInfo }

/-- `GetBroadcastConnections`. -/
def getBroadcastConnections (g : GatewayManager) (isTcp : Bool) : List HubInfo :=
  if isTcp then g.connections.filter (fun x => x.client.isSome) else g.connections

/-! ### Sending -/

/-- `SendTCP`, of an entity's message. -/
def sendTCP (message : BaseMessage) (client : Option TcpClient) (g : GatewayManager) :
    Outcome Exception GatewayManager :=
  match client with
  | none => .done g
  | some client =>
    if g.connected client then
      if g.writeFails client then .thrown .io g else .done (g.log [.tcp client message])
    else .done g

/-- `SendUDP`: the endpoint it is given is not the one it sends to. -/
def sendUDP (message : BaseMessage) (_EP : Option IPEndPoint) (g : GatewayManager) : GatewayManager :=
  g.log [.udp g.udpEndpoint message]

/-- The loop that sends a message to the clients of these hubs. -/
def sendAll (message : BaseMessage) (connections : List HubInfo) (g : GatewayManager) :
    Outcome Exception GatewayManager :=
  Outcome.forEach (fun connection => sendTCP message connection.client) connections g

/-- `BroadcastTCP`. -/
def broadcastTCP (message : BaseMessage) (g : GatewayManager) : Outcome Exception GatewayManager :=
  sendAll message (g.getBroadcastConnections true) g

/-- `Disconnect`. The log line asks the socket for its remote endpoint, which a
disposed one refuses. -/
def disconnect (client : TcpClient) (g : GatewayManager) : Outcome Exception GatewayManager :=
  match g.getConnectionOf client with
  | none => .done g
  | some (hubInfo, i) =>
    let g := g.removeConnection i
    if g.socket client = .closed then .thrown .objectDisposed g
    else (g.close client).broadcastTCP (Notification.new .Disconnected hubInfo.id).toMessage

theorem sendTCP_state (message : BaseMessage) (client : Option TcpClient) (g : GatewayManager) :
    ∃ cs : List TcpClient, (g.sendTCP message client).state = g.log (cs.map (.tcp · message)) := by
  have hnone : ∃ cs : List TcpClient, g = g.log (cs.map (.tcp · message)) := ⟨[], (log_nil g).symm⟩
  unfold sendTCP
  split
  · exact hnone
  · next c =>
    split
    · split
      · exact hnone
      · exact ⟨[c], rfl⟩
    · exact hnone

/-! ### What a loop of sends does -/

/-- The connected clients among these hubs, in the order of the hubs. -/
def liveClients (g : GatewayManager) (connections : List HubInfo) : List TcpClient :=
  connections.filterMap (fun connection => connection.client.filter g.connected)

theorem mem_liveClients {g : GatewayManager} {cs : List HubInfo} {c : TcpClient} :
    c ∈ g.liveClients cs ↔ g.connected c = true ∧ ∃ h ∈ cs, h.client = some c := by
  simp only [liveClients, List.mem_filterMap, Option.filter_eq_some_iff]
  refine ⟨?_, ?_⟩
  · rintro ⟨h, hh, hc, hl⟩
    exact ⟨hl, h, hh, hc⟩
  · rintro ⟨hl, h, hh, hc⟩
    exact ⟨h, hh, hc, hl⟩

theorem liveClients_cons_none {g : GatewayManager} {h : HubInfo} {cs : List HubInfo}
    (hl : h.client.filter g.connected = none) : g.liveClients (h :: cs) = g.liveClients cs := by
  rw [liveClients, List.filterMap_cons, hl]
  rfl

theorem liveClients_cons_some {g : GatewayManager} {h : HubInfo} {cs : List HubInfo} {c : TcpClient}
    (hl : h.client.filter g.connected = some c) :
    g.liveClients (h :: cs) = c :: g.liveClients cs := by
  rw [liveClients, List.filterMap_cons, hl]
  rfl

theorem liveClients_broadcast (g : GatewayManager) (isTcp : Bool) :
    g.liveClients (g.getBroadcastConnections isTcp) = g.liveClients g.connections := by
  rw [getBroadcastConnections]
  split
  · rw [liveClients, List.filterMap_filter, liveClients]
    refine congrArg (List.filterMap · g.connections) (funext fun h => ?_)
    cases h.client <;> rfl
  · rfl

/-- The clients before the first on which a write throws. -/
def reached (g : GatewayManager) (clients : List TcpClient) : List TcpClient :=
  clients.takeWhile (fun c => !g.writeFails c)

/-- **A loop of sends** reaches the live clients before the first dead one, and
throws exactly when there is a dead one among them. -/
theorem sendAll_eq (message : BaseMessage) : ∀ (cs : List HubInfo) (g : GatewayManager),
    sendAll message cs g =
      if (g.liveClients cs).all (fun c => !g.writeFails c) then
        .done (g.log ((g.liveClients cs).map (.tcp · message)))
      else .thrown .io (g.log ((g.reached (g.liveClients cs)).map (.tcp · message))) := by
  intro cs
  induction cs with
  | nil => intro g; simp [sendAll, liveClients]
  | cons h cs ih =>
    intro g
    have hskip : sendTCP message h.client g = .done g → h.client.filter g.connected = none →
        sendAll message (h :: cs) g = sendAll message cs g ∧
          g.liveClients (h :: cs) = g.liveClients cs := by
      intro hs hl
      refine ⟨?_, liveClients_cons_none hl⟩
      rw [sendAll, Outcome.forEach_cons, hs, Outcome.done_andThen, sendAll]
    cases hc : h.client with
    | none =>
      obtain ⟨h1, h2⟩ := hskip (by rw [hc, sendTCP]) (by rw [hc]; rfl)
      rw [h1, h2, ih]
    | some c =>
      by_cases hl : g.connected c = true
      · rw [liveClients_cons_some (c := c) (by simp [hc, hl])]
        by_cases hw : g.writeFails c = true
        · rw [sendAll, Outcome.forEach_cons, hc, sendTCP]
          simp [hl, hw, reached]
        · -- the message is sent to the head; the rest runs on the longer log
          have hw : g.writeFails c = false := by simpa using hw
          have hrest := ih (g.log [.tcp c message])
          simp only [sendAll] at hrest
          rw [sendAll, Outcome.forEach_cons, hc, sendTCP]
          simp only [hl, hw, if_true, Bool.false_eq_true, if_false, Outcome.done_andThen, hrest]
          have hlog : (g.log [.tcp c message]).liveClients cs = g.liveClients cs := rfl
          rw [hlog, reached, reached, List.takeWhile_cons_of_pos (by simp [hw])]
          simp [hw]
      · obtain ⟨h1, h2⟩ := hskip (by rw [hc, sendTCP, if_neg hl]) (by simp [hc, hl])
        rw [h1, h2, ih]

theorem sendAll_alive {g : GatewayManager} {cs : List HubInfo} (message : BaseMessage)
    (h : ∀ c ∈ g.liveClients cs, g.writeFails c = false) :
    sendAll message cs g = .done (g.log ((g.liveClients cs).map (.tcp · message))) := by
  rw [sendAll_eq, if_pos (List.all_eq_true.mpr fun c hc => by rw [h c hc]; rfl)]

theorem sendAll_dead {g : GatewayManager} {cs : List HubInfo} (message : BaseMessage)
    (h : ∃ c ∈ g.liveClients cs, g.writeFails c = true) :
    sendAll message cs g =
      .thrown .io (g.log ((g.reached (g.liveClients cs)).map (.tcp · message))) := by
  obtain ⟨c, hc, hf⟩ := h
  rw [sendAll_eq, if_neg]
  intro hall
  have := List.all_eq_true.mp hall c hc
  simp [hf] at this

theorem reached_alive {g : GatewayManager} {cs : List TcpClient}
    (h : ∀ c ∈ cs, g.writeFails c = false) : g.reached cs = cs :=
  List.takeWhile_eq_self_iff.mpr fun c hc => by rw [h c hc]; rfl

theorem sendAll_state (message : BaseMessage) (cs : List HubInfo) (g : GatewayManager) :
    (sendAll message cs g).state = g.log ((g.reached (g.liveClients cs)).map (.tcp · message)) := by
  rw [sendAll_eq]
  split
  · next h =>
    rw [reached_alive (fun c hc => by simpa using List.all_eq_true.mp h c hc)]
    rfl
  · rfl

/-- **A broadcast among live clients** reaches every one of them. -/
theorem broadcastTCP_alive {g : GatewayManager} (message : BaseMessage)
    (h : ∀ c ∈ g.liveClients g.connections, g.writeFails c = false) :
    g.broadcastTCP message =
      .done (g.log ((g.liveClients g.connections).map (.tcp · message))) := by
  rw [broadcastTCP, sendAll_alive message (by rwa [liveClients_broadcast]), liveClients_broadcast]

/-- **A broadcast with a dead client among them** throws at the first. -/
theorem broadcastTCP_dead {g : GatewayManager} (message : BaseMessage)
    (h : ∃ c ∈ g.liveClients g.connections, g.writeFails c = true) :
    g.broadcastTCP message =
      .thrown .io (g.log ((g.reached (g.liveClients g.connections)).map (.tcp · message))) := by
  rw [broadcastTCP, sendAll_dead message (by rwa [liveClients_broadcast]), liveClients_broadcast]

theorem broadcastTCP_state (message : BaseMessage) (g : GatewayManager) :
    (g.broadcastTCP message).state =
      g.log ((g.reached (g.liveClients g.connections)).map (.tcp · message)) := by
  rw [broadcastTCP, sendAll_state, liveClients_broadcast]

theorem liveClients_eq_filter (g : GatewayManager) (cs : List HubInfo) :
    g.liveClients cs = (cs.filterMap HubInfo.client).filter g.connected := by
  induction cs with
  | nil => rfl
  | cons h cs ih =>
    rw [List.filterMap_cons]
    cases hc : h.client with
    | none => rw [liveClients_cons_none (by simp [hc]), ih]
    | some c =>
      by_cases hl : g.connected c = true
      · rw [liveClients_cons_some (c := c) (by simp [hc, hl]), List.filter_cons_of_pos hl, ih]
      · rw [liveClients_cons_none (by simp [hc, hl]), List.filter_cons_of_neg hl, ih]

end GatewayManager

/-! ### What one client was sent -/

/-- The messages among those sent that went to this client, in order. -/
def sentTo (sent : List Sent) (client : TcpClient) : List BaseMessage :=
  sent.filterMap fun s =>
    match s with
    | .tcp c message => if c = client then some message else none
    | .udp _ _ => none

theorem sentTo_append (s t : List Sent) (c : TcpClient) :
    sentTo (s ++ t) c = sentTo s c ++ sentTo t c := List.filterMap_append

theorem mem_sentTo {sent : List Sent} {c : TcpClient} {m : BaseMessage} :
    m ∈ sentTo sent c ↔ .tcp c m ∈ sent := by
  rw [sentTo, List.mem_filterMap]
  refine ⟨?_, ?_⟩
  · rintro ⟨s, hs, hm⟩
    cases s with
    | tcp d message =>
      simp only at hm
      split at hm
      · next heq =>
        rw [← Option.some.inj hm, ← heq]
        exact hs
      · cases hm
    | udp _ _ => cases hm
  · intro h
    exact ⟨_, h, by simp⟩

theorem sentTo_map_tcp (cs : List TcpClient) (message : BaseMessage) (c : TcpClient) :
    sentTo (cs.map (.tcp · message)) c = List.replicate (cs.count c) message := by
  induction cs with
  | nil => rfl
  | cons d cs ih =>
    rw [sentTo] at ih
    rw [sentTo, List.map_cons, List.filterMap_cons, List.count_cons, ih]
    by_cases h : d = c
    · simp [h, List.replicate_succ]
    · simp [h]

theorem sentTo_map_udp {α : Type} (as : List α) (e : IPEndPoint) (f : α → BaseMessage)
    (c : TcpClient) : sentTo (as.map (fun a => .udp e (f a))) c = [] := by
  simp [sentTo]

end Blockcore.Gateway
