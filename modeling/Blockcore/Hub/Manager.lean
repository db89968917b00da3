import Blockcore.Networking.ConnectionManager

/-!
# The hub's state

`HubManager` with its `HubConnectionManager`.  What a hub does to the outside (the
events it publishes, the messages it sends, the calls of `FindReachableEndpoint` it
begins) is kept in `acts`, in order.

`FindReachableEndpoint` sleeps after every probe while the other threads go on, so
a call is under way for many steps, and several are at a time.  `calls` holds them
all and where each one is; `advance` is the next step of one.
-/

namespace Blockcore.Hub

open Lib Networking

/-- What the hub publishes; `data` is the object as it is then. -/
inductive BaseEvent where
  | connectionAdded (data : HubInfo)
  | connectionRemoved (data : HubInfo)
  | connectionStarting (data : HubInfo)
  | connectionStarted (data : HubInfo) (endpoint : IPEndPoint)
  | connectionUpdated (data : HubInfo)
  | gatewayConnected
  | gatewayShutdown
  | gatewayError (message : String)
  | messageReceived (data : Message)
  deriving DecidableEq

/-- What a hub does to the outside. -/
inductive Act where
  | publish (event : BaseEvent)
  | sendTCP (message : BaseMessage)
  | sendUDP (message : BaseMessage) (endpoint : IPEndPoint)
  | findReachableEndpoint (hubInfo : HubInfo)
  deriving DecidableEq

/-- Who called `FindReachableEndpoint` and waits for it: a thread of
`ConnectToClient`'s own, or the listener that took a `ReqMessage`. -/
inductive Caller where
  | connectToClient
  | reqMessageHandler (protocol : ProtocolType)
  deriving DecidableEq

/-- Where a call of `FindReachableEndpoint` is. -/
inductive CallPc where
  /-- Before the test of the loop over the internal addresses. -/
  | lan (ip : Nat)
  /-- Before the test of the loop over the attempts. -/
  | lanTry (ip : Nat) (endpoint : IPEndPoint) (i : Nat)
  /-- In `Thread.Sleep(200)`. -/
  | lanSleep (ip : Nat) (endpoint : IPEndPoint) (i : Nat)
  /-- With a response in hand. -/
  | lanReceived (endpoint : IPEndPoint) (response : Nat)
  /-- Before the test of the external endpoint. -/
  | wan
  /-- Before the test of the loop over the attempts. -/
  | wanTry (i : Nat)
  /-- In `Thread.Sleep(300)`. -/
  | wanSleep (i : Nat)
  /-- With a response in hand. -/
  | wanReceived (response : Nat)
  | returned (endpoint : Option IPEndPoint)
  | threw (e : Exception)
  /-- The caller has gone on, too. -/
  | ended
  deriving DecidableEq

/-- A call of `FindReachableEndpoint`. -/
structure Call where
  caller : Caller
  hubInfo : Ref
  pc : CallPc
  deriving DecidableEq

def Call.over (call : Call) : Bool :=
  match call.pc with
  | .threw _ => true
  | .ended => true
  | _ => false

/-- `HubManager`. The acknowledgements are objects, told apart by a number. `Write`
to the gateway throws if `writeFails`, however connected the client says it is. -/
structure HubManager where
  localHubInfo : HubInfo
  connections : ConnectionManager
  ackResponces : List (Nat × Ack)
  nextAck : Nat
  connected : Bool
  writeFails : Bool
  tcpListen : Bool
  udpListen : Bool
  calls : List Call
  acts : List Act

namespace HubManager

def log (h : HubManager) (acts : List Act) : HubManager := { h with acts := h.acts ++ acts }

def hubInfo (h : HubManager) (r : Ref) : HubInfo := h.connections.heap r

def store (h : HubManager) (r : Ref) (hubInfo : HubInfo) : HubManager :=
  { h with connections := h.connections.store r hubInfo }

/-- `SendMessageTCP`, of an entity's message. What `Write` throws is caught. -/
def sendMessageTCP (message : BaseMessage) (h : HubManager) : HubManager :=
  if h.connected && !h.writeFails then h.log [.sendTCP message] else h

/-- `SendMessageUDP`, with what becomes of the entity. What `Send` throws is caught; then the
datagram is lost. -/
def sendMessageUDP (entity : Entity) (endpoint : IPEndPoint) (h : HubManager) : HubManager × Entity :=
  let msg := entity.toMessage
  let entity := entity.setId h.localHubInfo.id
  (h.log [.sendUDP msg endpoint], entity)

/-- A call of `FindReachableEndpoint` begins. -/
def findReachableEndpoint (caller : Caller) (r : Ref) (h : HubManager) : HubManager :=
  { h with calls := h.calls ++ [Call.mk caller r (.lan 0)] }.log
    [.findReachableEndpoint (h.hubInfo r)]

/-- `ConnectToClient(HubInfo)`. -/
def connectToClient (r : Ref) (h : HubManager) : HubManager :=
  (h.sendMessageTCP (Req.new h.localHubInfo.id (h.hubInfo r).id).toMessage).findReachableEndpoint
    .connectToClient r

/-- `hub.Publish`, of an event whose subscribers only pass it on. -/
def publish (event : BaseEvent) (h : HubManager) : HubManager := h.log [.publish event]

/-- `hub.Publish` of a `ConnectionUpdatedEvent`: a subscriber connects to discovered
hubs. -/
def publishUpdated (r : Ref) (h : HubManager) : HubManager :=
  let h := h.publish (.connectionUpdated (h.hubInfo r))
  if h.localHubInfo.id ≠ (h.hubInfo r).id then h.connectToClient r else h

theorem sendMessageTCP_connections (message : BaseMessage) (h : HubManager) :
    (h.sendMessageTCP message).connections = h.connections := by
  rw [sendMessageTCP]
  split <;> rfl

theorem sendMessageTCP_localHubInfo (message : BaseMessage) (h : HubManager) :
    (h.sendMessageTCP message).localHubInfo = h.localHubInfo := by
  rw [sendMessageTCP]
  split <;> rfl

theorem publishUpdated_connections (h : HubManager) (r : Ref) :
    (h.publishUpdated r).connections = h.connections := by
  rw [publishUpdated]
  split
  · exact sendMessageTCP_connections ..
  · rfl

theorem publishUpdated_localHubInfo (h : HubManager) (r : Ref) :
    (h.publishUpdated r).localHubInfo = h.localHubInfo := by
  rw [publishUpdated]
  split
  · exact sendMessageTCP_localHubInfo ..
  · rfl

theorem connectToClient_acts (h : HubManager) (r : Ref) : ∃ told, (h.connectToClient r).acts =
    h.acts ++ told ∧ ∀ act ∈ told, (∃ message, act = .sendTCP message) ∨
      ∃ hubInfo, act = .findReachableEndpoint hubInfo := by
  rw [connectToClient, sendMessageTCP]
  split
  · refine ⟨[.sendTCP (Req.new h.localHubInfo.id (h.hubInfo r).id).toMessage,
      .findReachableEndpoint (h.hubInfo r)], by simp [findReachableEndpoint, log]; rfl, ?_⟩
    simp
  · exact ⟨[.findReachableEndpoint (h.hubInfo r)], rfl, by simp⟩

/-- **Publishing that a hub was updated**, and what the subscriber does. -/
theorem publishUpdated_acts (h : HubManager) (r : Ref) : ∃ told, (h.publishUpdated r).acts =
    h.acts ++ .publish (.connectionUpdated (h.hubInfo r)) :: told ∧
      ∀ act ∈ told, (∃ message, act = .sendTCP message) ∨ ∃ hubInfo, act = .findReachableEndpoint hubInfo := by
  rw [publishUpdated]
  split
  · obtain ⟨told, hacts, htold⟩ := (h.publish (.connectionUpdated (h.hubInfo r))).connectToClient_acts r
    exact ⟨told, by rw [hacts]; simp [publish, log], htold⟩
  · exact ⟨[], rfl, by simp⟩

/-! ### The connection to the gateway -/

/-- `ConnectGateway`, up to its pause: the client has connected. `LocalEndPoint` is null if nothing
could be sent. -/
def connectGateway (fmt : TextFormat) (serverEndpoint : IPEndPoint) (localEndPoint : Option IPEndPoint)
    (h : HubManager) : HubManager :=
  let h := { h with connected := true, udpListen := true, tcpListen := true }
  let h := (h.sendMessageUDP (.hubInfo fmt h.localHubInfo.simplified) serverEndpoint).1
  { h with localHubInfo := { h.localHubInfo with internalEndpoint := localEndPoint } }

/-- `ConnectGateway` after its pause. -/
def connectedGateway (fmt : TextFormat) (h : HubManager) : HubManager :=
  (h.sendMessageTCP (h.localHubInfo.toMessage fmt)).publish .gatewayConnected

/-- `ConnectGateway` if the client cannot connect. -/
def refusedGateway (fmt : TextFormat) (serverEndpoint : IPEndPoint) (h : HubManager) : HubManager :=
  h.publish (.gatewayError s!"Error when connecting to gateway {fmt.endPointToString serverEndpoint}. Will retry again soon...")

/-- `DisconnectedGateway`. -/
def disconnectedGateway (h : HubManager) : Outcome Exception HubManager :=
  if h.connected then
    .done { h with connected := false, udpListen := false, tcpListen := false,
                   connections := h.connections.clearConnections }
  else .thrown .socket h

/-! ### `FindReachableEndpoint` -/

/-- `AckResponces.FirstOrDefault(a => a.RecipientId == id)`. -/
def getAck (id : Option String) (h : HubManager) : Option (Nat × Ack) :=
  h.ackResponces.find? (fun a => a.2.recipientId == id)

/-- `AckResponces.Remove(response)`. -/
def removeAck (response : Nat) (h : HubManager) : HubManager :=
  { h with ackResponces := h.ackResponces.eraseP (fun a => a.1 == response) }

def goto (t : Nat) (pc : CallPc) (h : HubManager) : HubManager :=
  { h with calls := h.calls.modify t (fun call => { call with pc := pc }) }

def sendAck (endpoint : IPEndPoint) (h : HubManager) : HubManager :=
  (h.sendMessageUDP (.ack (Ack.new h.localHubInfo.id)) endpoint).1

def accept (r : Ref) (type : ConnectionTypes) (response : Nat) (h : HubManager) : HubManager :=
  (h.store r { h.hubInfo r with connectionType := type }).removeAck response

/-- What a caller does with the endpoint it was waiting for. -/
def resume (call : Call) (endpoint : IPEndPoint) (h : HubManager) : HubManager :=
  match call.caller with
  | .connectToClient => h.publish (.connectionStarted (h.hubInfo call.hubInfo) endpoint)
  | .reqMessageHandler _ =>
    (h.publish (.connectionStarted (h.hubInfo call.hubInfo) endpoint)).publishUpdated call.hubInfo

/-- The next step of a call, if it is not over. -/
def advance (t : Nat) (h : HubManager) : Option HubManager :=
  match h.calls[t]? with
  | none => none
  | some call =>
    let hubInfo := h.hubInfo call.hubInfo
    match call.pc with
    | .lan ip =>
      match hubInfo.internalAddresses[ip]? with
      | none => some (h.goto t .wan)
      | some IP =>
        if h.connected then
          match hubInfo.internalEndpoint with
          | none => some (h.goto t (.threw .nullReference))
          | some endpoint => some (h.goto t (.lanTry ip ⟨IP, endpoint.port⟩ 1))
        else some (h.goto t .wan)
    | .lanTry ip endpoint i =>
      if i < 4 ∧ h.connected then some ((h.sendAck endpoint).goto t (.lanSleep ip endpoint i))
      else some (h.goto t (.lan (ip + 1)))
    | .lanSleep ip endpoint i =>
      match h.getAck hubInfo.id with
      | none => some (h.goto t (.lanTry ip endpoint (i + 1)))
      | some response => some (h.goto t (.lanReceived endpoint response.1))
    | .lanReceived endpoint response =>
      some ((h.accept call.hubInfo .LAN response).goto t (.returned (some endpoint)))
    | .wan =>
      if hubInfo.externalEndpoint.isSome then some (h.goto t (.wanTry 1))
      else some (h.goto t (.returned none))
    | .wanTry i =>
      if i < 100 ∧ h.connected then
        match hubInfo.externalEndpoint with
        | none => some (h.goto t (.wanSleep i))
        | some endpoint => some ((h.sendAck endpoint).goto t (.wanSleep i))
      else some (h.goto t (.returned none))
    | .wanSleep i =>
      match h.getAck hubInfo.id with
      | none => some (h.goto t (.wanTry (i + 1)))
      | some response => some (h.goto t (.wanReceived response.1))
    | .wanReceived response =>
      match hubInfo.externalEndpoint with
      | none => some (h.goto t (.threw .nullReference))
      | some endpoint => some ((h.accept call.hubInfo .WAN response).goto t (.returned (some endpoint)))
    | .returned none => some (h.goto t .ended)
    | .returned (some endpoint) => some ((h.resume call endpoint).goto t .ended)
    | .threw _ => none
    | .ended => none

/-- **What a step of a call can do**, besides moving the call: nothing, send a probe,
accept a response, or go on with its caller. -/
theorem advance_effects {h h' : HubManager} {t : Nat} (hs : h.advance t = some h') :
    ∃ pc, h' = h.goto t pc ∨ (∃ endpoint, h' = (h.sendAck endpoint).goto t pc) ∨
      (∃ r type response, h' = (h.accept r type response).goto t pc) ∨
      (∃ call endpoint, call ∈ h.calls ∧ h' = (h.resume call endpoint).goto t pc) := by
  cases hc : h.calls[t]? with
  | none => simp [advance, hc] at hs
  | some call =>
    obtain ⟨caller, r, pc⟩ := call
    cases pc with
    | lan ip =>
      simp only [advance, hc] at hs
      split at hs
      · exact ⟨_, Or.inl (Option.some.inj hs).symm⟩
      · split at hs
        · split at hs
          · exact ⟨_, Or.inl (Option.some.inj hs).symm⟩
          · exact ⟨_, Or.inl (Option.some.inj hs).symm⟩
        · exact ⟨_, Or.inl (Option.some.inj hs).symm⟩
    | lanTry ip endpoint i =>
      simp only [advance, hc] at hs
      split at hs
      · exact ⟨_, Or.inr (Or.inl ⟨endpoint, (Option.some.inj hs).symm⟩)⟩
      · exact ⟨_, Or.inl (Option.some.inj hs).symm⟩
    | lanSleep ip endpoint i =>
      simp only [advance, hc] at hs
      split at hs
      · exact ⟨_, Or.inl (Option.some.inj hs).symm⟩
      · exact ⟨_, Or.inl (Option.some.inj hs).symm⟩
    | lanReceived endpoint response =>
      simp only [advance, hc] at hs
      exact ⟨_, Or.inr (Or.inr (Or.inl ⟨r, .LAN, response, (Option.some.inj hs).symm⟩))⟩
    | wan =>
      simp only [advance, hc] at hs
      split at hs
      · exact ⟨_, Or.inl (Option.some.inj hs).symm⟩
      · exact ⟨_, Or.inl (Option.some.inj hs).symm⟩
    | wanTry i =>
      simp only [advance, hc] at hs
      split at hs
      · split at hs
        · exact ⟨_, Or.inl (Option.some.inj hs).symm⟩
        · next endpoint _ => exact ⟨_, Or.inr (Or.inl ⟨endpoint, (Option.some.inj hs).symm⟩)⟩
      · exact ⟨_, Or.inl (Option.some.inj hs).symm⟩
    | wanSleep i =>
      simp only [advance, hc] at hs
      split at hs
      · exact ⟨_, Or.inl (Option.some.inj hs).symm⟩
      · exact ⟨_, Or.inl (Option.some.inj hs).symm⟩
    | wanReceived response =>
      simp only [advance, hc] at hs
      split at hs
      · exact ⟨_, Or.inl (Option.some.inj hs).symm⟩
      · exact ⟨_, Or.inr (Or.inr (Or.inl ⟨r, .WAN, response, (Option.some.inj hs).symm⟩))⟩
    | returned endpoint =>
      cases endpoint with
      | none =>
        simp only [advance, hc] at hs
        exact ⟨_, Or.inl (Option.some.inj hs).symm⟩
      | some endpoint =>
        simp only [advance, hc] at hs
        exact ⟨_, Or.inr (Or.inr (Or.inr ⟨⟨caller, r, .returned (some endpoint)⟩, endpoint,
          List.mem_of_getElem? hc, (Option.some.inj hs).symm⟩))⟩
    | threw e => simp [advance, hc] at hs
    | ended => simp [advance, hc] at hs

end HubManager

end Blockcore.Hub
