import Blockcore.Gateway.Workers
import Blockcore.Networking.DottedText

/-!
# A hub registers

A hub sends its `HubInfo` twice, simplified in a datagram and whole over TCP.
Either may come first and either may come again.  The one that comes first makes
the entry and the others update it; each brings one of the two ways to the hub.

`registration_confluent` says that the order and the number of the copies do not
matter.  `entryAfter` is the entry after some of them, which is the invariant of
the induction: it depends only on which of the two have come.
-/

namespace Blockcore.Gateway

open Lib Networking

/-- A hub that registers: what it is, what it knew of its local endpoint when it
sent the datagram, and where the gateway hears from it. -/
structure NewHub where
  localHubInfo : HubInfo
  internalEndpoint : Option IPEndPoint
  client : TcpClient
  endpoint : IPEndPoint
  no_external : localHubInfo.externalEndpoint = none
  unknown : localHubInfo.connectionType = .Unknown
  internal : internalEndpoint = none ∨ internalEndpoint = localHubInfo.internalEndpoint

/-- A copy of the datagram, or of the TCP message. -/
inductive Copy where
  | udp
  | tcp
  deriving DecidableEq

section

variable (fmt : TextFormat)

namespace NewHub

def simplified (hub : NewHub) : HubInfo :=
  { hub.localHubInfo with internalEndpoint := hub.internalEndpoint }.simplified

def info (hub : NewHub) : Copy → HubInfo
  | .udp => hub.simplified
  | .tcp => hub.localHubInfo

def received (hub : NewHub) : Copy → Received
  | .udp => ⟨(hub.info .udp).toMessage fmt, .Udp, some hub.endpoint, none⟩
  | .tcp => ⟨(hub.info .tcp).toMessage fmt, .Tcp, none, some hub.client⟩

/-- The gateway handles a copy; a datagram is received first. -/
def handle (hub : NewHub) : Copy → GatewayManager → Outcome Exception GatewayManager
  | .udp, g => process (gatewayMaps fmt) (some (hub.received fmt .udp)) (receive hub.endpoint g)
  | .tcp, g => process (gatewayMaps fmt) (some (hub.received fmt .tcp)) g

/-- The gateway handles one copy after another. -/
def handleAll (hub : NewHub) (copies : List Copy) (g : GatewayManager) :
    Outcome Exception GatewayManager :=
  Outcome.forEach (hub.handle fmt) copies g

/-- The entry after copies have come of the datagram, of the TCP message, or of
both. -/
def entryAfter (hub : NewHub) (udp tcp : Bool) : HubInfo where
  id := hub.localHubInfo.id
  name := hub.localHubInfo.name
  externalEndpoint := if udp then some hub.endpoint else none
  internalEndpoint := if tcp then hub.localHubInfo.internalEndpoint else hub.internalEndpoint
  internalAddresses := if tcp then hub.localHubInfo.internalAddresses else []
  client := if tcp then some hub.client else none
  initialized := udp && tcp

def registered (hub : NewHub) : HubInfo :=
  { id := hub.localHubInfo.id
    name := hub.localHubInfo.name
    externalEndpoint := some hub.endpoint
    internalEndpoint := hub.localHubInfo.internalEndpoint
    internalAddresses := hub.localHubInfo.internalAddresses
    client := some hub.client
    initialized := true }

end NewHub

def isPeerInfo : Sent → Bool
  | .udp _ (.info _) => true
  | _ => false

def peerList (endpoint : IPEndPoint) (connections : List HubInfo) : List Sent :=
  connections.map (fun ci => .udp endpoint (ci.toMessage fmt))

end

section

variable {fmt : TextFormat} {g : GatewayManager} {hub : NewHub}

theorem filter_tests (protocol : ProtocolType) (hubInfo : HubInfo) :
    (tests protocol hubInfo g).filter isPeerInfo = [] := by
  rw [List.filter_eq_nil_iff]
  intro s hs
  rw [tests, List.mem_append] at hs
  rcases hs with hs | hs
  · split at hs
    · rw [List.mem_singleton.mp hs]
      simp [isPeerInfo, testMessage, Message.toMessage]
    · cases hs
  · split at hs
    · obtain ⟨c, -, rfl⟩ := List.mem_map.mp hs
      simp [isPeerInfo]
    · cases hs

theorem filter_announced (protocol : ProtocolType) (hubInfo : HubInfo) :
    (announced fmt protocol hubInfo g).filter isPeerInfo =
      if hubInfo.initialized then [] else introductions fmt hubInfo g := by
  have htcp : ((g.liveClients g.connections).map (Sent.tcp · (hubInfo.toMessage fmt))).filter
      isPeerInfo = [] := by
    rw [List.filter_eq_nil_iff]
    intro s hs
    obtain ⟨c, -, rfl⟩ := List.mem_map.mp hs
    simp [isPeerInfo]
  have hintro : (introductions fmt hubInfo g).filter isPeerInfo = introductions fmt hubInfo g := by
    rw [List.filter_eq_self]
    intro s hs
    rw [introductions] at hs
    split at hs
    · obtain ⟨ci, -, rfl⟩ := List.mem_map.mp hs
      rfl
    · cases hs
  rw [announced, List.filter_append, htcp, List.nil_append]
  split
  · rfl
  · rw [List.filter_append, filter_tests, List.nil_append, hintro]

/-! ### One copy -/

variable {udp tcp : Bool}

def found (hub : NewHub) (udp tcp : Bool) : Option HubInfo :=
  if udp || tcp then some (hub.entryAfter udp tcp) else none

theorem internal_or (hub : NewHub) :
    hub.internalEndpoint.or hub.localHubInfo.internalEndpoint = hub.localHubInfo.internalEndpoint := by
  rcases hub.internal with h | h
  · rw [h, Option.none_or]
  · rw [h, Option.or_self]

theorem or_internal (hub : NewHub) :
    hub.localHubInfo.internalEndpoint.or hub.internalEndpoint = hub.localHubInfo.internalEndpoint := by
  rcases hub.internal with h | h
  · rw [h, Option.or_none]
  · rw [h, Option.or_self]

theorem entry_udp : entry (hub.info .udp).parsed ((hub.info .udp).toHubInfoMessage fmt)
    (some hub.endpoint) none (found hub udp tcp) =
      { hub.entryAfter true tcp with initialized := udp && tcp } := by
  cases udp <;> cases tcp <;>
    simp [entry, found, NewHub.entryAfter, NewHub.info, NewHub.simplified, HubInfo.simplified,
      HubInfo.parsed, HubInfo.toHubInfoMessage, Parsed.create, Parsed.apply, heardFrom, internal_or]

theorem entry_tcp : entry (hub.info .tcp).parsed ((hub.info .tcp).toHubInfoMessage fmt)
    none (some hub.client) (found hub udp tcp) =
      { hub.entryAfter udp true with initialized := udp && tcp } := by
  have hext := hub.no_external
  have htype := hub.unknown
  cases udp <;> cases tcp <;>
    simp [entry, found, NewHub.entryAfter, NewHub.info, HubInfo.parsed, HubInfo.toHubInfoMessage,
      Parsed.create, Parsed.apply, heardFrom, hext, htype, or_internal]

/-- The gateway after copies of the datagram, of the TCP message, or of both. -/
structure After (fmt : TextFormat) (hub : NewHub) (g₀ : GatewayManager) (udp tcp : Bool)
    (g : GatewayManager) : Prop where
  connections : g.connections = g₀.connections ++ (found hub udp tcp).toList
  socket : g.socket = g₀.socket
  writeFails : g.writeFails = g₀.writeFails
  endpoint : udp = true → g.udpEndpoint = hub.endpoint
  sent : ∃ new, g.sent = g₀.sent ++ new ∧
    new.filter isPeerInfo = if udp && tcp then peerList fmt hub.endpoint g.connections else []

variable {g₀ : GatewayManager}

theorem After.cut (ha : After fmt hub g₀ udp tcp g)
    (hnew : ∀ x ∈ g₀.connections, x.id ≠ hub.localHubInfo.id) :
    CutAt (fun x => x.id == hub.localHubInfo.id) g.connections g₀.connections (found hub udp tcp) [] where
  eq := by rw [ha.connections, List.append_nil]
  matches_found x hx := by
    rw [found] at hx
    split at hx
    · rw [← Option.some.inj hx]
      simp [NewHub.entryAfter]
    · cases hx
  not_before x hx := by simpa using hnew x hx
  at_end _ := rfl

/-- The entry as it is announced: initialized if it was before. -/
def pending (hub : NewHub) (udp tcp initialized : Bool) : HubInfo :=
  { hub.entryAfter udp tcp with initialized := initialized }

theorem complete_pending (hub : NewHub) (udp tcp initialized : Bool) :
    complete (pending hub udp tcp initialized) = (tcp && udp) := by
  cases udp <;> cases tcp <;> rfl

theorem introduced_pending {udp' tcp' : Bool} (hub : NewHub) (hudp : udp = true → udp' = true)
    (htcp : tcp = true → tcp' = true) :
    introduced (pending hub udp' tcp' (udp && tcp)) = hub.entryAfter udp' tcp' := by
  rw [introduced, complete_pending]
  cases udp' <;> cases tcp' <;> simp_all [pending, NewHub.entryAfter]

/-- **Announcing the entry** completes it once both copies have come, and only then
sends the list. -/
theorem After.announce (ha : After fmt hub g₀ udp tcp g) (udp' tcp' : Bool) (protocol : ProtocolType)
    (hw : ∀ c, g.connected c = true → g.writeFails c = false) (hudp : udp = true → udp' = true)
    (htcp : tcp = true → tcp' = true) (hseen : (udp' || tcp') = true)
    (hep : udp' = true → g.udpEndpoint = hub.endpoint) :
    ∃ g', Blockcore.Gateway.announce fmt protocol (pending hub udp' tcp' (udp && tcp))
        g₀.connections.length
        { g with connections := g₀.connections ++ [pending hub udp' tcp' (udp && tcp)] } = .done g' ∧
      After fmt hub g₀ udp' tcp' g' := by
  have hfound : found hub udp' tcp' = some (hub.entryAfter udp' tcp') := by rw [found, if_pos hseen]
  refine ⟨_, announce_alive rfl
    (fun c hc => hw c (GatewayManager.mem_liveClients.mp hc).1), ?_, ha.socket, ha.writeFails, hep, ?_⟩
  · rw [GatewayManager.log_connections, introduced_pending hub hudp htcp, hfound]
    rfl
  · obtain ⟨new, hnew, hfilter⟩ := ha.sent
    refine ⟨new ++ announced fmt protocol (pending hub udp' tcp' (udp && tcp))
      { g with connections := g₀.connections ++ [pending hub udp' tcp' (udp && tcp)] }, ?_, ?_⟩
    · rw [GatewayManager.log_sent, hnew, List.append_assoc]
    · rw [List.filter_append, hfilter, filter_announced, introductions, complete_pending,
        GatewayManager.log_connections, introduced_pending hub hudp htcp]
      by_cases hboth : (udp && tcp) = true
      · -- the list was sent before, and the entry has not changed since
        obtain ⟨rfl, rfl⟩ : udp = true ∧ tcp = true := by simpa using hboth
        obtain ⟨rfl, rfl⟩ : udp' = true ∧ tcp' = true := ⟨hudp rfl, htcp rfl⟩
        rw [ha.connections]
        simp [pending, found]
      · rw [Bool.not_eq_true] at hboth
        rw [hboth, Bool.and_comm udp' tcp']
        by_cases hall : (tcp' && udp') = true
        · have hep' := hep (by simp_all)
          simp [hall, pending, peerList, hep', HubInfo.toMessage, HubInfo.toHubInfoMessage]
        · simp [hall, pending]

/-- **One copy**: it is handled, and has come. -/
theorem After.handle (hf : fmt.Lawful) (ha : After fmt hub g₀ udp tcp g)
    (hnew : ∀ x ∈ g₀.connections, x.id ≠ hub.localHubInfo.id)
    (hsocket : g₀.socket hub.client ≠ .closed)
    (hw : ∀ c, g₀.connected c = true → g₀.writeFails c = false) (copy : Copy) :
    ∃ g', hub.handle fmt copy g = .done g' ∧
      After fmt hub g₀ (udp || .udp == copy) (tcp || .tcp == copy) g' := by
  have hw' : ∀ c, g.connected c = true → g.writeFails c = false := by
    intro c hc
    rw [ha.writeFails]
    refine hw c ?_
    rwa [GatewayManager.connected, ← ha.socket]
  cases copy with
  | udp =>
    have hr : After fmt hub g₀ udp tcp (receive hub.endpoint g) :=
      ⟨ha.connections, ha.socket, ha.writeFails, fun _ => rfl, ha.sent⟩
    obtain ⟨as, fnd, bs, hcut, henter, hproc⟩ := processInfo_of_parses .Udp (some hub.endpoint)
      none (g := receive hub.endpoint g) (toMessage_parses hf (hub.info .udp))
      (by simp)
    obtain ⟨rfl, rfl, rfl⟩ := (hr.cut hnew).unique hcut
    obtain ⟨g', hg', ha'⟩ := hr.announce true tcp .Udp hw' (fun _ => rfl) id
      (by simp) (fun _ => rfl)
    have hsame : (tcp || Copy.tcp == Copy.udp) = tcp := Bool.or_false tcp
    rw [henter, entry_udp] at hproc
    refine ⟨g', ?_, by rwa [hsame, beq_self_eq_true, Bool.or_true]⟩
    rw [NewHub.handle, process_gatewayMaps]
    exact hproc.trans hg'
  | tcp =>
    obtain ⟨as, fnd, bs, hcut, henter, hproc⟩ := processInfo_of_parses .Tcp none
      (some hub.client) (g := g) (toMessage_parses hf (hub.info .tcp))
      (by rw [ha.socket]; simpa using hsocket)
    obtain ⟨rfl, rfl, rfl⟩ := (ha.cut hnew).unique hcut
    obtain ⟨g', hg', ha'⟩ := ha.announce udp true .Tcp hw' id (fun _ => rfl)
      (by simp) ha.endpoint
    have hsame : (udp || Copy.udp == Copy.tcp) = udp := Bool.or_false udp
    rw [henter, entry_tcp] at hproc
    refine ⟨g', ?_, by rwa [hsame, beq_self_eq_true, Bool.or_true]⟩
    rw [NewHub.handle, process_gatewayMaps]
    exact hproc.trans hg'

/-- **Any copies**: they are handled, and have come. -/
theorem handleAll_after (hf : fmt.Lawful) (hnew : ∀ x ∈ g₀.connections, x.id ≠ hub.localHubInfo.id)
    (hsocket : g₀.socket hub.client ≠ .closed)
    (hw : ∀ c, g₀.connected c = true → g₀.writeFails c = false) :
    ∀ (copies : List Copy) {udp tcp : Bool} {g : GatewayManager}, After fmt hub g₀ udp tcp g →
      ∃ g', hub.handleAll fmt copies g = .done g' ∧
        After fmt hub g₀ (udp || copies.contains .udp) (tcp || copies.contains .tcp) g' := by
  intro copies
  induction copies with
  | nil => intro udp tcp g ha; exact ⟨g, rfl, by simpa using ha⟩
  | cons copy copies ih =>
    intro udp tcp g ha
    obtain ⟨g₁, h₁, ha₁⟩ := ha.handle hf hnew hsocket hw copy
    obtain ⟨g', h', ha'⟩ := ih ha₁
    refine ⟨g', ?_, ?_⟩
    · rw [NewHub.handleAll, Outcome.forEach_cons, h₁]
      exact h'
    · simpa only [List.contains_cons, Bool.or_assoc] using ha'

end

/-- **Registration does not depend on the order or the number of the copies**: the hub
gets one entry, the others stay as they are, and the list of hubs is sent once. -/
theorem registration_confluent {fmt : TextFormat} (hf : fmt.Lawful) (hub : NewHub)
    (g : GatewayManager) (copies : List Copy)
    (hnew : ∀ x ∈ g.connections, x.id ≠ hub.localHubInfo.id)
    (hsocket : g.socket hub.client ≠ .closed)
    (hw : ∀ c, g.connected c = true → g.writeFails c = false)
    (hudp : Copy.udp ∈ copies) (htcp : Copy.tcp ∈ copies) :
    ∃ g', hub.handleAll fmt copies g = .done g' ∧
      g'.connections = g.connections ++ [hub.registered] ∧
      (g'.sent.drop g.sent.length).filter isPeerInfo = peerList fmt hub.endpoint g'.connections := by
  have hstart : After fmt hub g false false g :=
    ⟨by simp [found], rfl, rfl, by simp, [], by simp, rfl⟩
  obtain ⟨g', hg', ha⟩ := handleAll_after hf hnew hsocket hw copies hstart
  rw [List.contains_iff_mem.mpr hudp, List.contains_iff_mem.mpr htcp] at ha
  obtain ⟨new, hsent, hfilter⟩ := ha.sent
  refine ⟨g', hg', ha.connections, ?_⟩
  rw [hsent, List.drop_left, hfilter]
  rfl

/-- A hub that learns its local endpoint after it sent the datagram. -/
def lateHub : NewHub where
  localHubInfo := { id := some "a", internalEndpoint := some anyEndPoint,
                    internalAddresses := [anyEndPoint.address] }
  internalEndpoint := none
  client := 1
  endpoint := anyEndPoint
  no_external := rfl
  unknown := rfl
  internal := Or.inl rfl

/-- The gateway as the hub comes to it: another one is registered and connected. -/
def otherThere : GatewayManager :=
  { GatewayManager.start anyEndPoint fun _ => .connected with
    connections := [{ id := some "b", client := some 2, externalEndpoint := some anyEndPoint,
                      initialized := true }] }

theorem registration_confluent_late :
    ∃ g', lateHub.handleAll dottedText [.tcp, .udp, .tcp] otherThere = .done g' ∧
      g'.connections = otherThere.connections ++ [lateHub.registered] ∧
      (g'.sent.drop 0).filter isPeerInfo = peerList dottedText anyEndPoint g'.connections :=
  registration_confluent dottedText_lawful lateHub otherThere [.tcp, .udp, .tcp] (by decide) (by decide)
    (fun _ _ => rfl) (by decide) (by decide)

end Blockcore.Gateway
