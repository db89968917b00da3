import Blockcore.Hub.Manager

/-!
# The hub's handlers

`Handlers/HubHandlers`, the dispatch to them, and the two listeners.

The handler of a `ReqMessage` calls `FindReachableEndpoint` and goes on when that
returns; so what it does here ends with the beginning of the call, and the rest is
the last step of the call (`HubManager.resume`).  Until then its listener takes
nothing (`busy`).
-/

namespace Blockcore.Hub

open Lib Networking

section

variable (fmt : TextFormat)

/-! ### The handlers -/

/-- `AckMessageHandler.Process`: a response is kept for whoever waits for it. -/
def keepResponse (msg : AckMessage) (h : HubManager) : HubManager :=
  { h with ackResponces := h.ackResponces ++ [(h.nextAck, Ack.ofMessage msg)],
           nextAck := h.nextAck + 1 }

def learnPort (r : Ref) (known source : IPEndPoint) (h : HubManager) : HubManager :=
  if known.address = source.address ∧ known.port ≠ source.port then
    (h.store r { h.hubInfo r with
      externalEndpoint := some { known with port := source.port } }).publishUpdated r
  else h

def learnAddress (r : Ref) (known source : IPEndPoint) (h : HubManager) : HubManager :=
  let IPs := (h.hubInfo r).internalAddresses.map fmt.addressToString
  if known.address ≠ source.address ∧ fmt.addressToString source.address ∉ IPs then
    h.store r { h.hubInfo r with
      internalAddresses := (h.hubInfo r).internalAddresses ++ [source.address] }
  else h

/-- `AckMessageHandler.Process`, of an `AckMessage`. -/
def processAck (msg : AckMessage) (endpoint : Option IPEndPoint) (h : HubManager) :
    Outcome Exception HubManager :=
  if msg.response then .done (keepResponse msg h)
  else
    match h.connections.getConnection msg.id with
    | none => .thrown .nullReference h
    | some r =>
      match (h.hubInfo r).externalEndpoint, endpoint with
      | some known, some source =>
        let h := learnAddress fmt r known source (learnPort r known source h)
        let msg := { msg with response := true, recipientId := h.localHubInfo.id }
        .done (h.sendMessageUDP (.ack (Ack.ofMessage msg)) source).1
      | _, _ => .thrown .nullReference h

/-- `InfoMessageHandler.Process`, of a `HubInfoMessage`. -/
def processInfo (msg : HubInfoMessage) (h : HubManager) : Outcome Exception HubManager :=
  match h.connections.getConnection msg.id with
  | none =>
    match HubInfo.ofMessage fmt msg with
    | .error e => .thrown e h
    | .ok hubInfo =>
      .done ({ h with connections := h.connections.addConnection hubInfo }.publish
        (.connectionAdded hubInfo))
  | some r =>
    match (h.hubInfo r).update fmt msg with
    | .thrown e hubInfo => .thrown e (h.store r hubInfo)
    | .done hubInfo => .done ((h.store r hubInfo).publishUpdated r)

/-- `MessageMessageHandler.Process`, of a `MessageMessage`. -/
def processMessage (msg : MessageMessage) (endpoint : Option IPEndPoint) (client : Option TcpClient)
    (h : HubManager) : HubManager :=
  if msg.id = some "" ∨ msg.id = some "00000000-0000-0000-0000-000000000000" then
    h.publish (.messageReceived (Message.ofMessage msg))
  else if endpoint.isSome && client.isSome then
    h.publish (.messageReceived (Message.ofMessage msg))
  else h

/-- `NotificationMessageHandler.Process`, of a `NotificationMessage`. -/
def processNotification (item : NotificationMessage) (h : HubManager) :
    Outcome Exception HubManager :=
  match item.type with
  | .Disconnected =>
    match item.tag with
    | none => .thrown .nullReference h
    | some tag =>
      match h.connections.getConnection (some tag) with
      | none => .done h
      | some r =>
        .done ({ h with connections := h.connections.removeConnection r }.publish
          (.connectionRemoved (h.hubInfo r)))
  | .ServerShutdown => h.disconnectedGateway.andThen fun h => .done (h.publish .gatewayShutdown)

/-- `ReqMessageHandler.Process`, of a `ReqMessage`, up to the call. -/
def processReq (msg : ReqMessage) (protocol : ProtocolType) (h : HubManager) : HubManager :=
  match h.connections.getConnection msg.recipientId with
  | none => h
  | some r =>
    (h.publish (.connectionStarting (h.hubInfo r))).findReachableEndpoint
      (.reqMessageHandler protocol) r

end

/-! ### Dispatch -/

abbrev HubMessageHandler := Handler Received MessageType Exception HubManager

/-- A handler of a class; `body` answers for the messages of that class only. -/
def handlerOf (type : MessageType)
    (body : Received → Option (HubManager → Outcome Exception HubManager)) :
    HubMessageHandler where
  handles := type
  process r h :=
    match body r with
    | none => .thrown .invalidCast h
    | some process => process h

/-- `AckMessageHandler`. -/
def ackMessageHandler (fmt : TextFormat) : HubMessageHandler :=
  handlerOf .AckMessage fun r =>
    match r.message with
    | .ack msg => some (processAck fmt msg r.endpoint)
    | _ => none

/-- `BroadcastMessageHandler` writes to the console. -/
def broadcastMessageHandler : HubMessageHandler :=
  handlerOf .BroadcastMessage fun r =>
    match r.message with
    | .broadcast _ => some .done
    | _ => none

/-- `InfoMessageHandler`. -/
def infoMessageHandler (fmt : TextFormat) : HubMessageHandler :=
  handlerOf .HubInfoMessage fun r =>
    match r.message with
    | .info msg => some (processInfo fmt msg)
    | _ => none

/-- `KeepAliveMessageHandler` does nothing. -/
def keepAliveMessageHandler : HubMessageHandler :=
  handlerOf .KeepAliveMessage fun r =>
    match r.message with
    | .keepAlive _ => some .done
    | _ => none

/-- `MessageMessageHandler`. -/
def messageMessageHandler : HubMessageHandler :=
  handlerOf .MessageMessage fun r =>
    match r.message with
    | .msg msg => some fun h => .done (processMessage msg r.endpoint r.client h)
    | _ => none

/-- `NotificationMessageHandler`. -/
def notificationMessageHandler : HubMessageHandler :=
  handlerOf .NotificationMessage fun r =>
    match r.message with
    | .notification item => some (processNotification item)
    | _ => none

/-- `ReqMessageHandler`. -/
def reqMessageHandler : HubMessageHandler :=
  handlerOf .ReqMessage fun r =>
    match r.message with
    | .req msg => some fun h => .done (processReq msg r.protocol h)
    | _ => none

/-- `TestMessageHandler` does nothing, and casts nothing. -/
def testMessageHandler : HubMessageHandler := handlerOf .TestMessage fun _ => some .done

def hubHandlers (fmt : TextFormat) : List HubMessageHandler :=
  [ackMessageHandler fmt, broadcastMessageHandler, infoMessageHandler fmt, keepAliveMessageHandler,
    messageMessageHandler, notificationMessageHandler, reqMessageHandler, testMessageHandler]

/-- The maps `Build` makes of them. -/
def hubMaps (fmt : TextFormat) : MessageMaps MessageType HubMessageHandler :=
  .ofHandlers (hubHandlers fmt)

theorem build_hubHandlers (fmt : TextFormat) : build (hubHandlers fmt) = .ok (hubMaps fmt) :=
  build_of_nodup (show ([0, 6, 2, 3, 1, 4, 5, 999] : List UInt16).Nodup by decide)

/-- **Dispatch**: every class has its one handler. -/
theorem process_hubMaps (fmt : TextFormat) (r : Received) (h : HubManager) :
    process (hubMaps fmt) (some r) h =
      match r.message with
      | .ack msg => processAck fmt msg r.endpoint h
      | .info msg => processInfo fmt msg h
      | .msg msg => .done (processMessage msg r.endpoint r.client h)
      | .notification item => processNotification item h
      | .req msg => .done (processReq msg r.protocol h)
      | _ => .done h := by
  rw [hubMaps, process_ofHandlers]
  obtain ⟨message, protocol, endpoint, client⟩ := r
  cases message <;> rfl

/-! ### The listeners -/

namespace HubManager

/-- The listener waits for a call of `FindReachableEndpoint`. -/
def busy (protocol : ProtocolType) (h : HubManager) : Bool :=
  h.calls.any fun call => call.caller == .reqMessageHandler protocol && !call.over

/-- The listener is between two messages. The UDP listener waits for the hub's own
endpoint to be known. -/
def listening (protocol : ProtocolType) (h : HubManager) : Bool :=
  (match protocol with
    | .Tcp => h.tcpListen
    | .Udp => h.udpListen && h.localHubInfo.internalEndpoint.isSome) && !h.busy protocol

/-- One round of `ListenTCP` or `ListenUDP`, with what the bytes decode to. What is
thrown is caught. -/
def listen (fmt : TextFormat) (message : Except Exception (Option BaseMessage))
    (protocol : ProtocolType) (endpoint : Option IPEndPoint) (h : HubManager) : HubManager :=
  match message with
  | .error _ => h
  | .ok message =>
    (process (hubMaps fmt) (message.map fun m => ⟨m, protocol, endpoint, none⟩) h).state

theorem listen_some (fmt : TextFormat) (m : BaseMessage) (protocol : ProtocolType)
    (endpoint : Option IPEndPoint) (h : HubManager) :
    h.listen fmt (.ok (some m)) protocol endpoint =
      (process (hubMaps fmt) (some ⟨m, protocol, endpoint, none⟩) h).state := rfl

end HubManager

end Blockcore.Hub
