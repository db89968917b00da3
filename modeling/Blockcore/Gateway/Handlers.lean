import Blockcore.Gateway.Manager

/-!
# The gateway's handlers

`Handlers/GatewayHandlers`, and the dispatch to them.

`infoMessageGatewayHandler` is the one that changes the registry.  It enters the
message (a new object, or an update of the one with that id) and sets where the
hub was heard from; then it announces the hub.  `processInfo_of_parses` says what it does
with a message whose texts parse, `processInfo_refused` with any other: nobody is
told, and every hub stays the hub it is.
-/

namespace Blockcore.Gateway

open Lib Networking

section

variable (fmt : TextFormat)

/-! ### `InfoMessageGatewayHandler` -/

/-- The text the gateway sends to a hub to try a protocol. -/
def testMessage (name : Option String) (text : String) : BaseMessage :=
  (Message.new (some "Server") name (some text)).toMessage

def tryUdp (protocol : ProtocolType) (hubInfo : HubInfo) (g : GatewayManager) : GatewayManager :=
  if hubInfo.externalEndpoint.isSome && protocol == .Udp then
    g.sendUDP (testMessage hubInfo.name "UDP Communication Test") hubInfo.externalEndpoint
  else g

def tryTcp (protocol : ProtocolType) (hubInfo : HubInfo) (g : GatewayManager) :
    Outcome Exception GatewayManager :=
  if hubInfo.client.isSome && protocol == .Tcp then
    g.sendTCP (testMessage hubInfo.name "TCP Communication Test") hubInfo.client
  else .done g

/-- A hub both of whose channels are known is sent every hub, once. -/
def introduce (hubInfo : HubInfo) (i : Nat) (g : GatewayManager) : Outcome Exception GatewayManager :=
  if hubInfo.client.isSome && hubInfo.externalEndpoint.isSome then
    (Outcome.forEach (fun ci g => .done (g.sendUDP (ci.toMessage fmt) hubInfo.externalEndpoint))
      (g.getBroadcastConnections false) g).andThen fun g =>
    .done (g.store i { hubInfo with initialized := true })
  else .done g

/-- `Process` from `manager.BroadcastTCP(hubInfo)` on, `hubInfo` being the object
at place `i`. -/
def announce (protocol : ProtocolType) (hubInfo : HubInfo) (i : Nat) (g : GatewayManager) :
    Outcome Exception GatewayManager :=
  (g.broadcastTCP (hubInfo.toMessage fmt)).andThen fun g =>
  if hubInfo.initialized then .done g
  else (tryTcp protocol hubInfo (tryUdp protocol hubInfo g)).andThen (introduce fmt hubInfo i)

/-- The log line names the endpoint the message came from, or else asks the
client's socket for it. -/
def logPeer (endpoint : Option IPEndPoint) (client : Option TcpClient) (g : GatewayManager) :
    Outcome Exception GatewayManager :=
  match endpoint, client with
  | none, some c => if g.socket c = .closed then .thrown .objectDisposed g else .done g
  | _, _ => .done g

def heardFrom (endpoint : Option IPEndPoint) (client : Option TcpClient) (hubInfo : HubInfo) :
    HubInfo :=
  { hubInfo with
    externalEndpoint := endpoint <|> hubInfo.externalEndpoint
    client := client <|> hubInfo.client }

/-- `Process` from the log line on. -/
def entered (protocol : ProtocolType) (endpoint : Option IPEndPoint) (client : Option TcpClient)
    (hubInfo : HubInfo) (i : Nat) (g : GatewayManager) : Outcome Exception GatewayManager :=
  (logPeer endpoint client g).andThen fun g =>
  announce fmt protocol (heardFrom endpoint client hubInfo) i
    (g.store i (heardFrom endpoint client hubInfo))

/-- `InfoMessageGatewayHandler.Process`, of a `HubInfoMessage`. -/
def processInfo (message : HubInfoMessage) (protocol : ProtocolType) (endpoint : Option IPEndPoint)
    (client : Option TcpClient) (g : GatewayManager) : Outcome Exception GatewayManager :=
  match g.getConnection message.id with
  | none =>
    match HubInfo.ofMessage fmt message with
    | .error e => .thrown e g
    | .ok hubInfo =>
      entered fmt protocol endpoint client hubInfo g.connections.length (g.addConnection hubInfo)
  | some (hubInfo, i) =>
    match hubInfo.update fmt message with
    | .thrown e hubInfo => .thrown e (g.store i hubInfo)
    | .done hubInfo => entered fmt protocol endpoint client hubInfo i (g.store i hubInfo)

/-- `InfoMessageGatewayHandler`. -/
def infoMessageGatewayHandler : Handler Received MessageType Exception GatewayManager where
  handles := .HubInfoMessage
  process r g :=
    match r.message with
    | .info message => processInfo fmt message r.protocol r.endpoint r.client g
    | _ => .thrown .invalidCast g

end

/-! ### What announcing a hub does -/

section

variable {fmt : TextFormat} {protocol : ProtocolType} {endpoint : Option IPEndPoint}
  {client : Option TcpClient} {hubInfo : HubInfo} {as bs : List HubInfo} {g : GatewayManager}

def complete (hubInfo : HubInfo) : Bool := hubInfo.client.isSome && hubInfo.externalEndpoint.isSome

def introduced (hubInfo : HubInfo) : HubInfo :=
  if complete hubInfo then { hubInfo with initialized := true } else hubInfo

theorem introduced_of_initialized {hubInfo : HubInfo} (h : hubInfo.initialized = true) :
    introduced hubInfo = hubInfo := by
  rw [introduced]
  split
  · rw [← h]
  · rfl

def tests (protocol : ProtocolType) (hubInfo : HubInfo) (g : GatewayManager) : List Sent :=
  (if hubInfo.externalEndpoint.isSome && protocol == .Udp then
    [.udp g.udpEndpoint (testMessage hubInfo.name "UDP Communication Test")] else []) ++
  (if protocol == .Tcp then (hubInfo.client.filter g.connected).toList.map
    (.tcp · (testMessage hubInfo.name "TCP Communication Test")) else [])

def introductions (fmt : TextFormat) (hubInfo : HubInfo) (g : GatewayManager) : List Sent :=
  if complete hubInfo then g.connections.map (fun ci => .udp g.udpEndpoint (ci.toMessage fmt)) else []

/-- What is sent to announce a hub: itself to every live client; to itself a
test and, the first time it is complete, every hub. -/
def announced (fmt : TextFormat) (protocol : ProtocolType) (hubInfo : HubInfo)
    (g : GatewayManager) : List Sent :=
  (g.liveClients g.connections).map (.tcp · (hubInfo.toMessage fmt)) ++
  if hubInfo.initialized then []
  else tests protocol hubInfo g ++ introductions fmt hubInfo g

theorem tests_log (protocol : ProtocolType) (hubInfo : HubInfo) (g : GatewayManager)
    (s : List Sent) : tests protocol hubInfo (g.log s) = tests protocol hubInfo g := rfl

theorem introductions_log (hubInfo : HubInfo) (g : GatewayManager) (s : List Sent) :
    introductions fmt hubInfo (g.log s) = introductions fmt hubInfo g := rfl

theorem sendTCP_alive {message : BaseMessage}
    (h : ∀ c ∈ client, g.connected c = true → g.writeFails c = false) :
    g.sendTCP message client =
      .done (g.log ((client.filter g.connected).toList.map (.tcp · message))) := by
  cases client with
  | none => simp [GatewayManager.sendTCP]
  | some c =>
    by_cases hc : g.connected c = true
    · simp [GatewayManager.sendTCP, hc, h c rfl hc, Option.filter]
    · simp [GatewayManager.sendTCP, hc, Option.filter]

theorem tests_alive
    (h : ∀ c ∈ hubInfo.client, g.connected c = true → g.writeFails c = false) :
    tryTcp protocol hubInfo (tryUdp protocol hubInfo g) = .done (g.log (tests protocol hubInfo g)) := by
  have hudp : tryUdp protocol hubInfo g = g.log
      (if hubInfo.externalEndpoint.isSome && protocol == .Udp then
        [.udp g.udpEndpoint (testMessage hubInfo.name "UDP Communication Test")] else []) := by
    rw [tryUdp]
    split
    · rfl
    · rw [GatewayManager.log_nil]
  rw [hudp, tests, tryTcp, ← GatewayManager.log_log]
  cases protocol with
  | Udp => simp
  | Tcp =>
    cases hc : hubInfo.client with
    | none => simp
    | some c =>
      rw [hc] at h
      rw [sendTCP_alive (by simpa using h c rfl)]
      simp

theorem forEach_sendUDP (ep : Option IPEndPoint) (cs : List HubInfo) (g : GatewayManager) :
    Outcome.forEach (fun ci g => .done (g.sendUDP (ci.toMessage fmt) ep)) cs g =
      (.done (g.log (cs.map fun ci => .udp g.udpEndpoint (ci.toMessage fmt))) :
        Outcome Exception GatewayManager) := by
  induction cs generalizing g with
  | nil => simp
  | cons ci cs ih =>
    rw [Outcome.forEach_cons, Outcome.done_andThen, ih]
    simp [GatewayManager.sendUDP]

/-- What announcing a hub may send: the hub itself, a test, or a hub there is. -/
inductive Announcement (fmt : TextFormat) (hubInfo : HubInfo) (g : GatewayManager) : Sent → Prop where
  | hub (c : TcpClient) : Announcement fmt hubInfo g (.tcp c (hubInfo.toMessage fmt))
  | tcpTest (c : TcpClient) (text : String) :
    Announcement fmt hubInfo g (.tcp c (testMessage hubInfo.name text))
  | udpTest (text : String) :
    Announcement fmt hubInfo g (.udp g.udpEndpoint (testMessage hubInfo.name text))
  | introduction {ci : HubInfo} (hci : ci ∈ g.connections) :
    Announcement fmt hubInfo g (.udp g.udpEndpoint (ci.toMessage fmt))

/-- **What announcing a hub keeps**: what such sends and making it initialized keep. -/
theorem announce_inv {P : GatewayManager → Prop} {i : Nat}
    (hlog : ∀ g sent, P g → (∀ s ∈ sent, Announcement fmt hubInfo g s) → P (g.log sent))
    (hstore : ∀ g, P g → P (g.store i { hubInfo with initialized := true })) (h : P g) :
    P (announce fmt protocol hubInfo i g).state := by
  have htold : ∀ g (cs : List TcpClient), P g → P (g.log (cs.map (.tcp · (hubInfo.toMessage fmt)))) := by
    intro g cs hg
    refine hlog g _ hg fun s hs => ?_
    obtain ⟨c, _, rfl⟩ := List.mem_map.mp hs
    exact .hub c
  have htested : ∀ g (cs : List TcpClient) text, P g →
      P (g.log (cs.map (.tcp · (testMessage hubInfo.name text)))) := by
    intro g cs text hg
    refine hlog g _ hg fun s hs => ?_
    obtain ⟨c, _, rfl⟩ := List.mem_map.mp hs
    exact .tcpTest c text
  refine Outcome.andThen_inv (P := P) ?_ fun g₁ h₁ => ?_
  · rw [GatewayManager.broadcastTCP_state]
    exact htold g _ h
  · split
    · exact h₁
    · refine Outcome.andThen_inv (P := P) ?_ fun g₂ h₂ => ?_
      · have hudp : P (tryUdp protocol hubInfo g₁) := by
          rw [tryUdp]
          split
          · refine hlog g₁ _ h₁ fun s hs => ?_
            rw [List.mem_singleton.mp hs]
            exact .udpTest _
          · exact h₁
        rw [tryTcp]
        split
        · obtain ⟨cs, hcs⟩ := GatewayManager.sendTCP_state
            (testMessage hubInfo.name "TCP Communication Test") hubInfo.client (tryUdp protocol hubInfo g₁)
          rw [hcs]
          exact htested _ cs _ hudp
        · exact hudp
      · rw [introduce]
        split
        · rw [forEach_sendUDP, Outcome.done_andThen, Outcome.state_done]
          refine hstore _ (hlog g₂ _ h₂ fun s hs => ?_)
          obtain ⟨ci, hci, rfl⟩ := List.mem_map.mp hs
          exact .introduction hci
        · exact h₂

theorem logPeer_state (endpoint : Option IPEndPoint) (client : Option TcpClient)
    (g : GatewayManager) : (logPeer endpoint client g).state = g := by
  unfold logPeer
  split
  · split <;> rfl
  · rfl

/-- **What a hub's message keeps**: what such sends and changes to the registry keep. -/
theorem processInfo_inv {P : GatewayManager → Prop} {message : HubInfoMessage}
    (hlog : ∀ g sent, P g → (∀ s ∈ sent, ∃ x, Announcement fmt x g s) → P (g.log sent))
    (hconnections : ∀ g connections, P g → P { g with connections := connections }) (h : P g) :
    P (processInfo fmt message protocol endpoint client g).state := by
  have hentered : ∀ x i g, P g → P (entered fmt protocol endpoint client x i g).state := by
    intro x i g h
    refine Outcome.andThen_inv (P := P) (by rwa [logPeer_state]) fun g₁ h₁ => ?_
    refine announce_inv (fun g₂ sent h₂ hs => ?_) (fun g₂ h₂ => hconnections g₂ _ h₂) (hconnections g₁ _ h₁)
    exact hlog g₂ sent h₂ fun s hmem => ⟨_, hs s hmem⟩
  rw [processInfo]
  split
  · split
    · exact h
    · exact hentered _ _ _ (hconnections g _ h)
  · split
    · exact hconnections g _ h
    · exact hentered _ _ _ (hconnections g _ h)

theorem introduce_eq (hg : g.connections = as ++ hubInfo :: bs) :
    introduce fmt hubInfo as.length g =
      .done ({ g with connections := as ++ introduced hubInfo :: bs }.log
        (introductions fmt hubInfo g)) := by
  rw [introduce, introductions, introduced]
  show (if complete hubInfo = true then _ else _) = _
  cases complete hubInfo with
  | false =>
    rw [if_neg (by simp), if_neg (by simp), if_neg (by simp), ← hg, GatewayManager.log_nil]
  | true =>
    rw [if_pos rfl, if_pos rfl, if_pos rfl, forEach_sendUDP, Outcome.done_andThen]
    simp [GatewayManager.store, GatewayManager.log, GatewayManager.getBroadcastConnections, hg]

/-- **Announcing a hub among live clients** is done, and makes it initialized
once it is complete. -/
theorem announce_alive (hg : g.connections = as ++ hubInfo :: bs)
    (hw : ∀ c ∈ g.liveClients g.connections, g.writeFails c = false) :
    announce fmt protocol hubInfo as.length g =
      .done ({ g with connections := as ++ introduced hubInfo :: bs }.log
        (announced fmt protocol hubInfo g)) := by
  have hself : ∀ c ∈ hubInfo.client, g.connected c = true → g.writeFails c = false := by
    intro c hc hl
    exact hw c (GatewayManager.mem_liveClients.mpr ⟨hl, hubInfo, by simp [hg], hc⟩)
  rw [announce, GatewayManager.broadcastTCP_alive _ hw, Outcome.done_andThen, announced]
  by_cases hi : hubInfo.initialized = true
  · rw [if_pos hi, if_pos hi, introduced_of_initialized hi, List.append_nil, ← hg]
  · rw [if_neg hi, if_neg hi, tests_alive (by simpa using hself), Outcome.done_andThen,
      introduce_eq (by simpa using hg), tests_log, introductions_log, introductions_log]
    simp [GatewayManager.log]

/-- **Announcing a hub with a dead client among them** ends in the broadcast. -/
theorem announce_dead
    (hw : ∃ c ∈ g.liveClients g.connections, g.writeFails c = true) :
    announce fmt protocol hubInfo as.length g =
      .thrown .io (g.log ((g.reached (g.liveClients g.connections)).map
        (.tcp · (hubInfo.toMessage fmt)))) := by
  rw [announce, GatewayManager.broadcastTCP_dead _ hw, Outcome.thrown_andThen]

/-- **Announcing changes nothing but `Initialized`**, however it ends. -/
theorem announce_map {β : Type} (f : HubInfo → β)
    (hf : ∀ h b, f { h with initialized := b } = f h) (hg : g.connections = as ++ hubInfo :: bs) :
    (announce fmt protocol hubInfo as.length g).state.connections.map f = g.connections.map f := by
  by_cases hw : ∃ c ∈ g.liveClients g.connections, g.writeFails c = true
  · rw [announce_dead hw]
    rfl
  · push Not at hw
    rw [announce_alive hg (fun c hc => by simpa using hw c hc)]
    have hself : f (introduced hubInfo) = f hubInfo := by
      rw [introduced]
      split
      · exact hf ..
      · rfl
    simp [hg, hself]

/-! ### What a hub's message does -/

/-- The object a message that parses is entered as: a new one, or the one found,
updated; with where the hub was heard from. -/
def entry (p : Parsed) (message : HubInfoMessage) (endpoint : Option IPEndPoint)
    (client : Option TcpClient) (found : Option HubInfo) : HubInfo :=
  heardFrom endpoint client (match found with
    | none => p.create message
    | some hubInfo => p.apply message hubInfo)

theorem entry_id {p : Parsed} {message : HubInfoMessage} {found : Option HubInfo}
    (hid : ∀ x ∈ found, x.id = message.id) : (entry p message endpoint client found).id = message.id := by
  cases found with
  | none => rfl
  | some x => exact hid x rfl

theorem entry_client {p : Parsed} {message : HubInfoMessage} {found : Option HubInfo} :
    (entry p message endpoint client found).client = (client <|> found.bind HubInfo.client) := by
  cases found <;> rfl

/-- The gateway once a message that parses is entered, and the object. -/
def enter (p : Parsed) (message : HubInfoMessage) (endpoint : Option IPEndPoint)
    (client : Option TcpClient) (g : GatewayManager) : GatewayManager × HubInfo :=
  match g.getConnection message.id with
  | none => (g.addConnection (entry p message endpoint client none), entry p message endpoint client none)
  | some (hubInfo, i) =>
    (g.store i (entry p message endpoint client (some hubInfo)),
      entry p message endpoint client (some hubInfo))

theorem entered_eq (hpeer : ∀ c ∈ client, g.socket c ≠ .closed)
    (hg : g.connections = as ++ hubInfo :: bs) :
    entered fmt protocol endpoint client hubInfo as.length g =
      announce fmt protocol (heardFrom endpoint client hubInfo) as.length
        { g with connections := as ++ heardFrom endpoint client hubInfo :: bs } := by
  have hlog : logPeer endpoint client g = .done g := by
    unfold logPeer
    split
    · next c => exact if_neg (hpeer c rfl)
    · rfl
  rw [entered, hlog, Outcome.done_andThen, GatewayManager.store, hg, set_cut]

variable (protocol endpoint client) in
/-- **A message that parses** is entered where its id is, or at the end, and
announced. -/
theorem processInfo_of_parses {message : HubInfoMessage} {p : Parsed} (hp : Parses fmt message p)
    (hpeer : ∀ c ∈ client, g.socket c ≠ .closed) :
    ∃ as found bs, CutAt (fun x => x.id == message.id) g.connections as found bs ∧
      enter p message endpoint client g =
        ({ g with connections := as ++ entry p message endpoint client found :: bs },
          entry p message endpoint client found) ∧
      processInfo fmt message protocol endpoint client g =
        announce fmt protocol (entry p message endpoint client found) as.length
          (enter p message endpoint client g).1 := by
  rw [processInfo, enter, GatewayManager.getConnection]
  cases hf : firstMatch (fun x => x.id == message.id) g.connections with
  | none =>
    refine ⟨g.connections, none, [], cutAt_of_none hf, rfl, ?_⟩
    simp only [ofMessage_of_parses hp]
    exact entered_eq (g := g.addConnection (p.create message)) hpeer rfl
  | some x =>
    obtain ⟨hubInfo, i⟩ := x
    obtain ⟨as, bs, hcut, rfl⟩ := cutAt_of_some hf
    have hid : hubInfo.id = message.id := hcut.key_found hubInfo rfl
    have hl : g.connections = as ++ hubInfo :: bs := hcut.eq
    refine ⟨as, some hubInfo, bs, hcut, ?_, ?_⟩
    · simp only [GatewayManager.store, hl, set_cut]
    · simp only [update_of_parses hp hid, GatewayManager.store, hl, set_cut]
      exact entered_eq hpeer rfl

variable (protocol endpoint client) in
/-- **A message that does not parse** is refused; every hub stays the hub it is. -/
theorem processInfo_refused {message : HubInfoMessage} (hp : ¬ ∃ p, Parses fmt message p) :
    ∃ e l, processInfo fmt message protocol endpoint client g =
        .thrown e { g with connections := l } ∧
      List.Forall₂ Carried g.connections l := by
  have hrefl : ∀ l : List HubInfo, List.Forall₂ Carried l l := fun l =>
    List.forall₂_same.mpr fun x _ => .refl x
  rw [processInfo, GatewayManager.getConnection]
  cases hf : firstMatch (fun x => x.id == message.id) g.connections with
  | none =>
    cases hm : HubInfo.ofMessage fmt message with
    | error e => exact ⟨e, g.connections, rfl, hrefl _⟩
    | ok hubInfo => exact absurd (parses_of_ofMessage hm) hp
  | some x =>
    obtain ⟨hubInfo, i⟩ := x
    obtain ⟨as, bs, hcut, rfl⟩ := cutAt_of_some hf
    have hid : hubInfo.id = message.id := hcut.key_found hubInfo rfl
    have hl : g.connections = as ++ hubInfo :: bs := hcut.eq
    cases hu : hubInfo.update fmt message with
    | done h => exact absurd (parses_of_update hid hu) hp
    | thrown e h =>
      have hkeep := update_carried fmt hubInfo message
      rw [hu, Outcome.state_thrown] at hkeep
      refine ⟨e, as ++ h :: bs, ?_, ?_⟩
      · simp only [hu, GatewayManager.store, hl, set_cut]
      · rw [hl]
        exact List.rel_append (hrefl as) (.cons hkeep (hrefl bs))

end

theorem map_eq_of_carried {β : Type} {f : HubInfo → β} (hf : ∀ x x', Carried x x' → f x' = f x)
    {l l' : List HubInfo} (h : List.Forall₂ Carried l l') : l'.map f = l.map f := by
  induction h with
  | nil => rfl
  | cons hx _ ih => rw [List.map_cons, List.map_cons, hf _ _ hx, ih]

/-! ### The other handlers -/

/-- `BroadcastMessageGatewayHandler.Process`, of a `BroadcastMessage`. -/
def processBroadcast (msg : BroadcastMessage) (g : GatewayManager) :
    Outcome Exception GatewayManager :=
  if msg.to = some "HUB" then
    g.sendAll (Broadcast.ofMessage msg).toMessage (g.getBroadcastConnections false)
  else .done g

/-- `BroadcastMessageGatewayHandler`. -/
def broadcastMessageGatewayHandler : Handler Received MessageType Exception GatewayManager where
  handles := .BroadcastMessage
  process r g :=
    match r.message with
    | .broadcast msg => processBroadcast msg g
    | _ => .thrown .invalidCast g

/-- `ReqMessageGatewayHandler.Process`, of a `ReqMessage`. -/
def processReq (req : ReqMessage) (g : GatewayManager) : Outcome Exception GatewayManager :=
  match g.getConnection req.recipientId with
  | none => .done g
  | some (hubInfo, _) => g.sendTCP (Req.ofMessage req).toMessage hubInfo.client

/-- `ReqMessageGatewayHandler`. -/
def reqMessageGatewayHandler : Handler Received MessageType Exception GatewayManager where
  handles := .ReqMessage
  process r g :=
    match r.message with
    | .req req => processReq req g
    | _ => .thrown .invalidCast g

/-- `MessageMessageGatewayHandler` writes to the log. -/
def messageMessageGatewayHandler : Handler Received MessageType Exception GatewayManager where
  handles := .MessageMessage
  process r g :=
    match r.message with
    | .msg _ => logPeer r.endpoint r.client g
    | _ => .thrown .invalidCast g

/-- `KeepAliveMessageGatewayHandler` does nothing. -/
def keepAliveMessageGatewayHandler : Handler Received MessageType Exception GatewayManager where
  handles := .KeepAliveMessage
  process _ g := .done g

/-! ### Dispatch -/

def gatewayHandlers (fmt : TextFormat) :
    List (Handler Received MessageType Exception GatewayManager) :=
  [broadcastMessageGatewayHandler, infoMessageGatewayHandler fmt, keepAliveMessageGatewayHandler,
    messageMessageGatewayHandler, reqMessageGatewayHandler]

/-- The maps `Build` makes of them. -/
def gatewayMaps (fmt : TextFormat) :
    MessageMaps MessageType (Handler Received MessageType Exception GatewayManager) :=
  .ofHandlers (gatewayHandlers fmt)

theorem build_gatewayHandlers (fmt : TextFormat) :
    build (gatewayHandlers fmt) = .ok (gatewayMaps fmt) :=
  build_of_nodup (show ([6, 2, 3, 1, 5] : List UInt16).Nodup by decide)

/-- **Dispatch**: every class has its one handler, and three have none. -/
theorem process_gatewayMaps (fmt : TextFormat) (r : Received) (g : GatewayManager) :
    process (gatewayMaps fmt) (some r) g =
      match r.message with
      | .info message => processInfo fmt message r.protocol r.endpoint r.client g
      | .broadcast msg => processBroadcast msg g
      | .req req => processReq req g
      | .msg _ => logPeer r.endpoint r.client g
      | .keepAlive _ => .done g
      | _ => .thrown (.messageProcessing s!"No handlers for message {command r}") g := by
  rw [gatewayMaps, process_ofHandlers]
  obtain ⟨message, protocol, endpoint, client⟩ := r
  cases message <;> rfl

end Blockcore.Gateway
