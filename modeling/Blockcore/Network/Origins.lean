import Blockcore.Gateway.Sessions

/-!
# What messages are made of

The messages on the network are made of entities.  A `HubInfoMessage` is made of the
`HubInfo` of the hub that connects, or of one a gateway keeps; and what a gateway keeps it
made of such a message.  `Origin` says so of a `HubInfo`, `Produced` of a message.

`gateway_produces` closes the circle: a gateway that receives such messages sends such
messages.  All a hub can count on is that there is an id (`Origin.named`): `ConnectGateway` sends
addresses without an internal endpoint if its datagram could not be sent before.
-/

namespace Blockcore.Network

open Lib Networking Gateway

section

variable (fmt : TextFormat)

/-- What a `HubInfoMessage` is made of: the connecting hub's own `HubInfo`, in part over
UDP and as a whole over TCP, with or without an internal endpoint; and the objects a gateway
makes of messages and changes. -/
inductive Origin : HubInfo → Prop where
  | simplified (x : HubInfo) : x.id.isSome = true → Origin x.simplified
  | whole (x : HubInfo) : x.id.isSome = true → Origin x
  | created (x y : HubInfo) : Origin x → HubInfo.ofMessage fmt (x.toHubInfoMessage fmt) = .ok y →
      Origin y
  | updated (x y z : HubInfo) : Origin x → Origin y → y.id = x.id →
      y.update fmt (x.toHubInfoMessage fmt) = .done z → Origin z
  | heardFrom (endpoint : Option IPEndPoint) (client : Option TcpClient) (x : HubInfo) :
      Origin x → Origin (heardFrom endpoint client x)
  | initialized (x : HubInfo) (b : Bool) : Origin x → Origin { x with initialized := b }

/-- What `ToMessage` makes in some hub or gateway. -/
inductive Produced : BaseMessage → Prop where
  | info (x : HubInfo) : Origin fmt x → Produced (x.toMessage fmt)
  | disconnected (x : HubInfo) : Origin fmt x → Produced (disconnected x)
  | shutdown : Produced (Notification.new .ServerShutdown none).toMessage
  | ack (a : Ack) : Produced a.toMessage
  | req (r : Req) : Produced r.toMessage
  | broadcast (b : Broadcast) : Produced b.toMessage
  | msg (m : Message) : Produced m.toMessage
  | keepAlive (m : KeepAliveMessage) : Produced (.keepAlive m)
  | test (m : TestMessage) : Produced (.test m)

end

def sentMessage : Sent → BaseMessage
  | .tcp _ message => message
  | .udp _ message => message

section

variable {fmt : TextFormat}

/-- **A hub can be named**: what a message is made of has an id. -/
theorem Origin.named (hf : fmt.Lawful) {x : HubInfo} (hx : Origin fmt x) : x.id.isSome = true := by
  induction hx with
  | simplified x hid => exact hid
  | whole x hid => exact hid
  | created x y _ hy ih =>
    rw [ofMessage_of_parses (toMessage_parses hf x)] at hy
    rw [← Except.ok.inj hy]
    exact ih
  | updated x y z _ _ hid hz ihx ihy =>
    rw [update_of_parses (toMessage_parses hf x) hid] at hz
    cases hz
    exact ihy
  | heardFrom endpoint client x _ ih => exact ih
  | initialized x b _ ih => exact ih

/-! ### What a gateway sends -/

variable (fmt) in
/-- Every entry of the gateway, and every message it sent, goes back to a hub. -/
structure Keeps (g : GatewayManager) : Prop where
  entries : ∀ x ∈ g.connections, Origin fmt x
  sent : ∀ s ∈ g.sent, Produced fmt (sentMessage s)

variable {g : GatewayManager}

theorem Keeps.log (hk : Keeps fmt g) {sent : List Sent} (hs : ∀ s ∈ sent, Produced fmt (sentMessage s)) :
    Keeps fmt (g.log sent) := by
  refine ⟨hk.entries, fun s hmem => ?_⟩
  rcases List.mem_append.mp hmem with h | h
  · exact hk.sent s h
  · exact hs s h

theorem keeps_sendAll {message : BaseMessage} (hm : Produced fmt message) (connections : List HubInfo)
    (hk : Keeps fmt g) : Keeps fmt (g.sendAll message connections).state := by
  rw [GatewayManager.sendAll_state]
  refine hk.log fun s hs => ?_
  obtain ⟨c, _, rfl⟩ := List.mem_map.mp hs
  exact hm

theorem Keeps.store (hk : Keeps fmt g) {hubInfo : HubInfo} (hx : Origin fmt hubInfo) (i : Nat) :
    Keeps fmt (g.store i hubInfo) := by
  refine ⟨fun x hmem => ?_, hk.sent⟩
  rcases List.mem_or_eq_of_mem_set hmem with h | rfl
  · exact hk.entries x h
  · exact hx

/-- **Announcing a hub** sends it, tests, and the hubs there are. -/
theorem keeps_announce (protocol : ProtocolType) {hubInfo : HubInfo} (hx : Origin fmt hubInfo) (i : Nat)
    (hk : Keeps fmt g) : Keeps fmt (announce fmt protocol hubInfo i g).state := by
  refine announce_inv (fun g sent h hs => h.log fun s hmem => ?_)
    (fun g h => h.store (.initialized hubInfo true hx) i) hk
  cases hs s hmem with
  | hub c => exact .info hubInfo hx
  | tcpTest c text => exact .msg _
  | udpTest text => exact .msg _
  | introduction hci => exact .info _ (h.entries _ hci)

/-- **A hub's message** is entered, and the entry announced. -/
theorem keeps_processInfo (hf : fmt.Lawful) {x : HubInfo} (hx : Origin fmt x) (protocol : ProtocolType)
    (endpoint : Option IPEndPoint) (client : Option TcpClient) (hk : Keeps fmt g) :
    Keeps fmt (processInfo fmt (x.toHubInfoMessage fmt) protocol endpoint client g).state := by
  have hentered : ∀ hubInfo i g', Origin fmt hubInfo → Keeps fmt g' →
      Keeps fmt (entered fmt protocol endpoint client hubInfo i g').state := by
    intro hubInfo i g' hy h'
    refine Outcome.andThen_inv (P := Keeps fmt) (by rwa [logPeer_state]) fun g₂ h₂ => ?_
    have hheard := Origin.heardFrom endpoint client hubInfo hy
    exact keeps_announce protocol hheard i (h₂.store hheard i)
  rw [processInfo]
  split
  · split
    · exact hk
    · next y hy =>
      have hy' := Origin.created x y hx hy
      refine hentered _ _ _ hy' ⟨fun z hz => ?_, hk.sent⟩
      rcases List.mem_append.mp hz with hz | hz
      · exact hk.entries z hz
      · rwa [List.mem_singleton.mp hz]
  · next y i hget =>
    obtain ⟨as, bs, hcut, rfl⟩ := cutAt_of_some hget
    have hid : y.id = x.id := hcut.key_found y rfl
    have hy := hk.entries y (hcut.mem_of_found rfl)
    have hz := update_of_parses (toMessage_parses hf x) hid
    rw [hz]
    exact hentered _ _ _ (.updated x y _ hx hy hid hz) (hk.store (.updated x y _ hx hy hid hz) as.length)

/-- **What a gateway does with any message** that was produced. -/
theorem keeps_attempt (hf : fmt.Lawful) {message : Except Exception (Option BaseMessage)}
    (hm : ∀ m, message = .ok (some m) → Produced fmt m) (protocol : ProtocolType)
    (endpoint : Option IPEndPoint) (client : Option TcpClient) (hk : Keeps fmt g) :
    Keeps fmt (attempt fmt message protocol endpoint client g).state := by
  by_cases hinfo : ∃ m, message = .ok (some (.info m))
  · obtain ⟨m, rfl⟩ := hinfo
    have hproduced := hm _ rfl
    rw [attempt_info]
    generalize hmessage : BaseMessage.info m = message at hproduced
    cases hproduced with
    | info x hx =>
      cases hmessage
      exact keeps_processInfo hf hx protocol endpoint client hk
    | _ => cases hmessage
  · obtain ⟨sent, hstate, hsent⟩ := attempt_relays fmt hinfo protocol endpoint client g
    rw [hstate]
    refine hk.log fun s hs => ?_
    obtain ⟨c, m, hmessage, rfl⟩ := hsent s hs
    exact hm m hmessage

theorem keeps_disconnect (c : TcpClient) (hk : Keeps fmt g) : Keeps fmt (g.disconnect c).state := by
  by_cases h : Registered g c
  · obtain ⟨as, hubInfo, bs, hcut, hd⟩ := disconnect_eq h
    have hrest : ∀ x ∈ as ++ bs, Origin fmt x := fun x hx => hk.entries x (hcut.sublist.subset hx)
    rw [hd]
    split
    · exact ⟨hrest, hk.sent⟩
    · exact keeps_sendAll (.disconnected hubInfo (hk.entries hubInfo (hcut.mem_of_found rfl))) _
        ⟨hrest, hk.sent⟩
  · rw [disconnect_unregistered h]
    exact hk

/-- The message that is taken in a turn, if it is one. -/
inductive Takes : Turn → BaseMessage → Prop where
  | udp (m : BaseMessage) : Takes (.event (.udp (.ok (some m)))) m
  | tcp (c : TcpClient) (m : BaseMessage) : Takes (.event (.tcp c (.ok (some m)))) m

theorem Keeps.turn (hf : fmt.Lawful) {t : Turn} (ht : ∀ m, Takes t m → Produced fmt m)
    (hk : Keeps fmt g) : Keeps fmt (turn fmt g t) := by
  cases t with
  | network socket writeFails => exact ⟨hk.entries, hk.sent⟩
  | event e =>
    cases e with
    | receive source => exact ⟨hk.entries, hk.sent⟩
    | udp message =>
      have hm : ∀ m, message = .ok (some m) → Produced fmt m := by
        rintro m rfl
        exact ht m (.udp m)
      rw [Gateway.turn, step_udp]
      exact keeps_attempt hf hm .Udp (some g.udpEndpoint) none hk
    | tcp c message =>
      have hm : ∀ m, message = .ok (some m) → Produced fmt m := by
        rintro m rfl
        exact ht m (.tcp c m)
      exact step_tcp_inv fmt (fun _ => keeps_attempt hf hm .Tcp none (some c) hk)
        (fun g h => keeps_disconnect c h) hk

/-- **A gateway that takes only produced messages sends only produced messages.** -/
theorem gateway_produces (hf : fmt.Lawful) {g₀ : GatewayManager} (hempty : g₀.connections = [])
    (hsent : g₀.sent = []) {ts : List Turn} (hts : ∀ t ∈ ts, ∀ m, Takes t m → Produced fmt m) :
    ∀ s ∈ (turns fmt g₀ ts).sent, Produced fmt (sentMessage s) := by
  have hinv : Keeps fmt (turns fmt g₀ ts) := by
    induction ts using List.reverseRecOn with
    | nil =>
      refine ⟨?_, ?_⟩
      · intro x hx
        change x ∈ g₀.connections at hx
        rw [hempty] at hx
        cases hx
      · intro s hs
        change s ∈ g₀.sent at hs
        rw [hsent] at hs
        cases hs
    | append_singleton ts t ih =>
      rw [turns_concat]
      have hlast := hts t (by simp)
      exact (ih fun t ht => hts t (List.mem_append_left _ ht)).turn hf hlast
  exact hinv.sent

end

end Blockcore.Network
