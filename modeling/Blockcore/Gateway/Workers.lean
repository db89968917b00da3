import Blockcore.Gateway.Handlers
import Blockcore.Networking.MessageSerializer

/-!
# The gateway's workers

One thread a client reads its stream and one reads the datagrams.  Both hand a
message on and catch what comes back: the UDP worker logs it, the thread of a
client calls `Disconnect`, and calls it once more when its loop is over.

`disconnect_eq` cuts the registry at the client.  The frame lemmas say what no
handler touches: the sockets and the failing writes (`attempt_sameSockets`).
-/

namespace Blockcore.Gateway

open Lib Networking

section

variable (fmt : TextFormat)

/-- A message on its way to the handlers; the workers read its `Command` first. -/
def dispatch (message : Option BaseMessage) (protocol : ProtocolType) (endpoint : Option IPEndPoint)
    (client : Option TcpClient) (g : GatewayManager) : Outcome Exception GatewayManager :=
  match message with
  | none => .thrown .nullReference g
  | some message => process (gatewayMaps fmt) (some ⟨message, protocol, endpoint, client⟩) g

/-- The body of a `try`: what `Deserialize` returned, or its exception. -/
def attempt (message : Except Exception (Option BaseMessage)) (protocol : ProtocolType)
    (endpoint : Option IPEndPoint) (client : Option TcpClient) (g : GatewayManager) :
    Outcome Exception GatewayManager :=
  match message with
  | .error e => .thrown e g
  | .ok message => dispatch fmt message protocol endpoint client g

theorem attempt_info (m : HubInfoMessage) (protocol : ProtocolType) (endpoint : Option IPEndPoint)
    (client : Option TcpClient) (g : GatewayManager) :
    attempt fmt (.ok (some (.info m))) protocol endpoint client g =
      processInfo fmt m protocol endpoint client g :=
  process_gatewayMaps fmt ⟨.info m, protocol, endpoint, client⟩ g

/-- `Udp.Receive(ref udpEndpoint)`. -/
def receive (source : IPEndPoint) (g : GatewayManager) : GatewayManager :=
  { g with udpEndpoint := source }

/-- What the UDP worker does with what a datagram decodes to. -/
def udpRound (message : Except Exception (Option BaseMessage)) (g : GatewayManager) :
    GatewayManager :=
  ((attempt fmt message .Udp (some g.udpEndpoint) none g).handle (fun _ g => .done g)).state

/-- What the thread of a client does with what its stream decodes to. -/
def tcpRound (client : TcpClient) (message : Except Exception (Option BaseMessage))
    (g : GatewayManager) : Outcome Exception GatewayManager :=
  (attempt fmt message .Tcp none (some client) g).handle (fun _ g => g.disconnect client)

/-- The thread of a client: `while (client.Connected)`, and `Disconnect`. `none`
is a thread that has not ended after so many iterations; an exception in the
`catch` ends it too. -/
def tcpLoop (pack : MessagePack BaseMessage MessageType) (client : TcpClient) :
    Nat → ByteStream → GatewayManager → Option (Outcome Exception GatewayManager)
  | 0, _, _ => none
  | n + 1, s, g =>
    if g.connected client then
      match tcpRound fmt client (deserialize pack (gatewayMaps fmt) s).1 g with
      | .thrown e g => some (.thrown e g)
      | .done g => tcpLoop pack client n (deserialize pack (gatewayMaps fmt) s).2 g
    else some (g.disconnect client)

/-! ### Runs -/

/-- What happens at a gateway: a datagram is received; the UDP worker goes
through with what it decodes to; the thread of a client goes through one
iteration. -/
inductive Event where
  | receive (source : IPEndPoint)
  | udp (message : Except Exception (Option BaseMessage))
  | tcp (client : TcpClient) (message : Except Exception (Option BaseMessage))

/-- The gateway after the event. A thread whose client is not connected is
through with its loop. -/
def step (g : GatewayManager) : Event → GatewayManager
  | .receive source => receive source g
  | .udp message => udpRound fmt message g
  | .tcp client message =>
    if g.connected client then (tcpRound fmt client message g).state else (g.disconnect client).state

theorem step_udp (message : Except Exception (Option BaseMessage)) (g : GatewayManager) :
    step fmt g (.udp message) = (attempt fmt message .Udp (some g.udpEndpoint) none g).state :=
  Outcome.state_handle_done _

theorem step_tcp_error (client : TcpClient) (e : Exception) (g : GatewayManager) :
    step fmt g (.tcp client (.error e)) = (g.disconnect client).state := by
  rw [step]
  split <;> rfl

/-- **What an iteration of a client's thread keeps**: what the message and `Disconnect` keep. -/
theorem step_tcp_inv {P : GatewayManager → Prop} {message : Except Exception (Option BaseMessage)}
    {client : TcpClient} {g : GatewayManager}
    (hmessage : g.connected client = true → P (attempt fmt message .Tcp none (some client) g).state)
    (hdisconnect : ∀ g, P g → P (g.disconnect client).state) (h : P g) :
    P (step fmt g (.tcp client message)) := by
  rw [step]
  split
  · next hconn =>
    have hattempt := hmessage hconn
    rw [tcpRound]
    cases ha : attempt fmt message .Tcp none (some client) g with
    | done g₁ =>
      rw [ha] at hattempt
      exact hattempt
    | thrown e g₁ =>
      rw [ha] at hattempt
      exact hdisconnect g₁ hattempt
  · exact hdisconnect g h

def run (g : GatewayManager) (events : List Event) : GatewayManager := events.foldl (step fmt) g

end

/-- A gateway as it starts, no send of which fails. -/
def GatewayManager.start (udpEndpoint : IPEndPoint) (socket : TcpClient → SocketState) :
    GatewayManager where
  connections := []
  udpEndpoint := udpEndpoint
  socket := socket
  writeFails _ := false
  sent := []

/-! ### `Disconnect` -/

section

variable {g : GatewayManager} {c : TcpClient}

def Registered (g : GatewayManager) (c : TcpClient) : Prop := ∃ h ∈ g.connections, h.client = some c

theorem registered_iff_mem_map :
    Registered g c ↔ some c ∈ g.connections.map HubInfo.client := by
  rw [Registered, List.mem_map]

@[simp] theorem registered_log (s : List Sent) : Registered (g.log s) c ↔ Registered g c := Iff.rfl

def disconnected (hubInfo : HubInfo) : BaseMessage :=
  (Notification.new .Disconnected hubInfo.id).toMessage

theorem disconnect_unregistered (h : ¬ Registered g c) : g.disconnect c = .done g := by
  have hnone : g.getConnectionOf c = none := by
    refine firstMatch_eq_none_iff.mpr fun x hx => ?_
    rw [beq_eq_false_iff_ne]
    exact fun hc => h ⟨x, hx, hc⟩
  rw [GatewayManager.disconnect, hnone]

/-- The gateway after it dropped the object after `as` and closed the client. -/
def dropped (g : GatewayManager) (c : TcpClient) (as bs : List HubInfo) : GatewayManager :=
  { g with connections := as ++ bs }.close c

@[simp] theorem dropped_connections (g : GatewayManager) (c : TcpClient) (as bs : List HubInfo) :
    (dropped g c as bs).connections = as ++ bs := rfl
@[simp] theorem dropped_writeFails (g : GatewayManager) (c : TcpClient) (as bs : List HubInfo) :
    (dropped g c as bs).writeFails = g.writeFails := rfl
@[simp] theorem dropped_sent (g : GatewayManager) (c : TcpClient) (as bs : List HubInfo) :
    (dropped g c as bs).sent = g.sent := rfl

/-- **`Disconnect` of a registered client** drops the first hub registered under
it and, if the socket is not disposed of yet, closes it and tells the rest. -/
theorem disconnect_eq (h : Registered g c) :
    ∃ as hubInfo bs, CutAt (fun x => x.client == some c) g.connections as (some hubInfo) bs ∧
      g.disconnect c =
        if g.socket c = .closed then .thrown .objectDisposed { g with connections := as ++ bs }
        else (dropped g c as bs).broadcastTCP (disconnected hubInfo) := by
  rw [GatewayManager.disconnect, GatewayManager.getConnectionOf]
  cases hf : firstMatch (fun x => x.client == some c) g.connections with
  | none =>
    obtain ⟨x, hx, hc⟩ := h
    have := firstMatch_eq_none_iff.mp hf x hx
    simp [hc] at this
  | some x =>
    obtain ⟨hubInfo, i⟩ := x
    obtain ⟨as, bs, hcut, rfl⟩ := cutAt_of_some hf
    have hl : g.connections = as ++ hubInfo :: bs := hcut.eq
    refine ⟨as, hubInfo, bs, hcut, ?_⟩
    simp only [GatewayManager.removeConnection, hl, eraseIdx_cut]
    rfl

theorem disconnect_closes (h : Registered g c) : (g.disconnect c).state.connected c = false := by
  obtain ⟨as, hubInfo, bs, _, hd⟩ := disconnect_eq h
  rw [hd]
  split
  · next hc => simp [GatewayManager.connected, hc]
  · rw [GatewayManager.broadcastTCP_state, GatewayManager.log_connected, dropped,
      GatewayManager.close_connected]
    simp

/-! ### What handlers leave alone -/

/-- The sockets and the failing writes are as they were. -/
def SameSockets (g g' : GatewayManager) : Prop :=
  g'.socket = g.socket ∧ g'.writeFails = g.writeFails

theorem processInfo_sameSockets (fmt : TextFormat) (message : HubInfoMessage) (protocol : ProtocolType)
    (endpoint : Option IPEndPoint) (client : Option TcpClient) (g : GatewayManager) :
    SameSockets g (processInfo fmt message protocol endpoint client g).state :=
  processInfo_inv (P := SameSockets g) (fun _ _ h _ => h) (fun _ _ h => h) ⟨rfl, rfl⟩

/-- **Any other message** is relayed as it is, over TCP, or nothing is sent. -/
theorem attempt_relays (fmt : TextFormat) {message : Except Exception (Option BaseMessage)}
    (hno : ¬ ∃ m, message = .ok (some (.info m))) (protocol : ProtocolType)
    (endpoint : Option IPEndPoint) (client : Option TcpClient) (g : GatewayManager) :
    ∃ sent, (attempt fmt message protocol endpoint client g).state = g.log sent ∧
      ∀ s ∈ sent, ∃ c m, message = .ok (some m) ∧ s = .tcp c m := by
  have hnone : ∃ sent, g = g.log sent ∧ ∀ s ∈ sent, ∃ c m, message = .ok (some m) ∧ s = .tcp c m :=
    ⟨[], (GatewayManager.log_nil g).symm, fun s hs => by cases hs⟩
  have hcopies : ∀ m (cs : List TcpClient), message = .ok (some m) →
      ∀ s ∈ cs.map (Sent.tcp · m), ∃ c m, message = .ok (some m) ∧ s = .tcp c m := by
    intro m cs hm s hs
    obtain ⟨c, _, rfl⟩ := List.mem_map.mp hs
    exact ⟨c, m, hm, rfl⟩
  rcases message with e | _ | message
  · exact hnone
  · exact hnone
  · rw [attempt, dispatch, process_gatewayMaps]
    cases message with
    | info m => exact absurd ⟨m, rfl⟩ hno
    | broadcast m =>
      simp only [processBroadcast]
      split
      · exact ⟨_, GatewayManager.sendAll_state .., hcopies _ _ rfl⟩
      · exact hnone
    | req m =>
      simp only [processReq]
      split
      · exact hnone
      · next x _ _ =>
        obtain ⟨cs, hcs⟩ := GatewayManager.sendTCP_state (Req.ofMessage m).toMessage x.client g
        exact ⟨_, hcs, hcopies _ cs rfl⟩
    | msg m =>
      simp only [logPeer_state]
      exact hnone
    | _ => exact hnone

/-- **Only a hub's message touches the registry.** -/
theorem attempt_connections (fmt : TextFormat) {message : Except Exception (Option BaseMessage)}
    (hno : ¬ ∃ m, message = .ok (some (.info m))) (protocol : ProtocolType)
    (endpoint : Option IPEndPoint) (client : Option TcpClient) (g : GatewayManager) :
    (attempt fmt message protocol endpoint client g).state.connections = g.connections := by
  obtain ⟨sent, hstate, _⟩ := attempt_relays fmt hno protocol endpoint client g
  rw [hstate]
  rfl

theorem attempt_sameSockets (fmt : TextFormat) (message : Except Exception (Option BaseMessage))
    (protocol : ProtocolType) (endpoint : Option IPEndPoint) (client : Option TcpClient)
    (g : GatewayManager) : SameSockets g (attempt fmt message protocol endpoint client g).state := by
  by_cases hinfo : ∃ m, message = .ok (some (.info m))
  · obtain ⟨m, rfl⟩ := hinfo
    rw [attempt_info]
    exact processInfo_sameSockets fmt m protocol endpoint client g
  · obtain ⟨sent, hstate, _⟩ := attempt_relays fmt hinfo protocol endpoint client g
    rw [hstate]
    exact ⟨rfl, rfl⟩

theorem disconnect_sublist (c : TcpClient) (g : GatewayManager) :
    (g.disconnect c).state.connections.Sublist g.connections := by
  by_cases h : Registered g c
  · obtain ⟨as, hubInfo, bs, hcut, hd⟩ := disconnect_eq h
    rw [hd]
    split
    · exact hcut.sublist
    · rw [GatewayManager.broadcastTCP_state]
      exact hcut.sublist
  · rw [disconnect_unregistered h]
    exact .refl _

theorem disconnect_writeFails (c : TcpClient) (g : GatewayManager) :
    (g.disconnect c).state.writeFails = g.writeFails := by
  by_cases h : Registered g c
  · obtain ⟨as, hubInfo, bs, _, hd⟩ := disconnect_eq h
    rw [hd]
    split
    · rfl
    · rw [GatewayManager.broadcastTCP_state]
      rfl
  · rw [disconnect_unregistered h]
    rfl

theorem step_writeFails (fmt : TextFormat) (e : Event) (g : GatewayManager) :
    (step fmt g e).writeFails = g.writeFails := by
  cases e with
  | receive source => rfl
  | udp message =>
    rw [step_udp]
    exact (attempt_sameSockets fmt message .Udp (some g.udpEndpoint) none g).2
  | tcp client message =>
    refine step_tcp_inv (P := fun g' => g'.writeFails = g.writeFails) fmt
      (fun _ => (attempt_sameSockets fmt message .Tcp none (some client) g).2) (fun g' h => ?_) rfl
    exact (disconnect_writeFails client g').trans h

theorem run_writeFails (fmt : TextFormat) (events : List Event) (g : GatewayManager) :
    (run fmt g events).writeFails = g.writeFails := by
  induction events generalizing g with
  | nil => rfl
  | cons e events ih => exact (ih (step fmt g e)).trans (step_writeFails fmt e g)

theorem SameSockets.connected {g g' : GatewayManager} (h : SameSockets g g') :
    g'.connected = g.connected := by
  funext c
  rw [GatewayManager.connected, h.1]
  rfl

end

end Blockcore.Gateway
