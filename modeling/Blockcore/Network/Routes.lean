import Blockcore.Network.Work

/-!
# Where things go

What has to be known of the messages under way for the traffic to die down (`Sane`): a probe says who it is
from, a request goes to the hub it is for, and the gateway does not write to itself.
-/

namespace Blockcore.Network.Links.Routes

open Lib Networking Gateway Hub
open Work

/-! ### The gateway -/

/-- A request goes to the hub it is for, and a datagram to where the gateway heard from last. -/
structure Routed (g : GatewayManager) (s : Sent) : Prop where
  req : ∀ c m, s = .tcp c (.req m) → ∃ x ∈ g.connections, x.id = m.recipientId ∧ x.client = some c
  udp : ∀ e m, s = .udp e m → e = g.udpEndpoint

section

variable {fmt : TextFormat} {g g' : GatewayManager} {message : Except Exception (Option BaseMessage)}

theorem routed_other {c : TcpClient} {m : BaseMessage} (hm : ∀ r, m ≠ .req r) : Routed g (.tcp c m) := by
  refine ⟨fun c' r heq => ?_, fun e m' heq => by cases heq⟩
  cases heq
  exact absurd rfl (hm r)

theorem sendTCP_to (message : BaseMessage) (client : Option TcpClient) (g : GatewayManager) :
    ∃ cs : List TcpClient, (g.sendTCP message client).state = g.log (cs.map (.tcp · message)) ∧
      ∀ c ∈ cs, client = some c := by
  have hnone : ∃ cs : List TcpClient, g = g.log (cs.map (.tcp · message)) ∧ ∀ c ∈ cs, client = some c :=
    ⟨[], (GatewayManager.log_nil g).symm, fun c hc => by cases hc⟩
  unfold GatewayManager.sendTCP
  split
  · exact hnone
  · next c =>
    split
    · split
      · exact hnone
      · refine ⟨[c], rfl, fun c' hc' => ?_⟩
        rw [List.mem_singleton.mp hc']
    · exact hnone

variable (fmt) in
/-- **Any message** is routed. -/
theorem routed_attempt (message : Except Exception (Option BaseMessage)) (protocol : ProtocolType)
    (endpoint : Option IPEndPoint) (client : Option TcpClient) (g : GatewayManager) :
    Says (Routed g) g (attempt fmt message protocol endpoint client g).state ∧
      (attempt fmt message protocol endpoint client g).state.udpEndpoint = g.udpEndpoint := by
  by_cases hinfo : ∃ m, message = .ok (some (.info m))
  · obtain ⟨m, rfl⟩ := hinfo
    rw [attempt_info]
    refine processInfo_inv (P := fun g' => Says (Routed g) g g' ∧ g'.udpEndpoint = g.udpEndpoint)
      (fun g₁ sent h₁ hs => ⟨h₁.1.log fun s hmem => ?_, h₁.2⟩)
      (fun g₁ connections h₁ => ⟨h₁.1.silent rfl, h₁.2⟩) ⟨.refl g, rfl⟩
    have hudp : ∀ {m}, Routed g (.udp g₁.udpEndpoint m) := by
      intro m
      refine ⟨(fun c r heq => by cases heq), fun e m' heq => ?_⟩
      cases heq
      exact h₁.2
    obtain ⟨x, hx⟩ := hs s hmem
    cases hx with
    | hub c => exact routed_other fun r heq => by cases heq
    | tcpTest c text => exact routed_other fun r heq => by cases heq
    | udpTest text => exact hudp
    | introduction hci => exact hudp
  · by_cases hreq : ∃ m, message = .ok (some (.req m))
    · obtain ⟨m, rfl⟩ := hreq
      rw [attempt, dispatch, process_gatewayMaps]
      simp only [Gateway.processReq]
      split
      · exact ⟨.refl g, rfl⟩
      · next x i hget =>
        obtain ⟨as, bs, hcut, _⟩ := cutAt_of_some hget
        obtain ⟨cs, hcs, hto⟩ := sendTCP_to (Req.ofMessage m).toMessage x.client g
        rw [hcs]
        refine ⟨(Says.refl g).log fun s hs => ?_, rfl⟩
        obtain ⟨c, hc, rfl⟩ := List.mem_map.mp hs
        have hid : x.id = m.recipientId := by simpa using hcut.key_found x rfl
        refine ⟨fun c' r heq => ?_, fun e m' heq => by cases heq⟩
        cases heq
        exact ⟨x, hcut.mem_of_found rfl, hid, hto c hc⟩
    · obtain ⟨sent, hstate, hsent⟩ := attempt_relays fmt hinfo protocol endpoint client g
      rw [hstate]
      refine ⟨(Says.refl g).log fun s hs => ?_, rfl⟩
      obtain ⟨c, m, hm, rfl⟩ := hsent s hs
      refine routed_other fun r heq => hreq ⟨r, ?_⟩
      rw [hm, heq]

theorem says_disconnect {P : Sent → Prop} (h : Says P g g') (hP : ∀ c n, P (.tcp c (.notification n)))
    (client : TcpClient) : Says P g (g'.disconnect client).state := by
  by_cases hreg : Registered g' client
  · obtain ⟨as, hubInfo, bs, _, hd⟩ := disconnect_eq hreg
    rw [hd]
    split
    · exact h.silent rfl
    · rw [GatewayManager.broadcastTCP_state]
      refine Says.log (h.silent rfl) fun s hs => ?_
      obtain ⟨c, _, rfl⟩ := List.mem_map.mp hs
      exact hP c _
  · rw [disconnect_unregistered hreg]
    exact h

theorem disconnect_udpEndpoint (client : TcpClient) (g : GatewayManager) :
    (g.disconnect client).state.udpEndpoint = g.udpEndpoint := by
  by_cases hreg : Registered g client
  · obtain ⟨as, hubInfo, bs, _, hd⟩ := disconnect_eq hreg
    rw [hd]
    split
    · rfl
    · rw [GatewayManager.broadcastTCP_state]
      rfl
  · rw [disconnect_unregistered hreg]
    rfl

variable (fmt) in
/-- **A thread's step** is routed. -/
theorem routed_tcp (client : TcpClient) (message : Except Exception (Option BaseMessage))
    (g : GatewayManager) :
    Says (Routed g) g (Gateway.step fmt g (.tcp client message)) ∧
      (Gateway.step fmt g (.tcp client message)).udpEndpoint = g.udpEndpoint := by
  refine step_tcp_inv (P := fun g' => Says (Routed g) g g' ∧ g'.udpEndpoint = g.udpEndpoint) fmt
    (fun _ => routed_attempt fmt message .Tcp none (some client) g) (fun g' h => ⟨?_, ?_⟩) ⟨.refl g, rfl⟩
  · exact says_disconnect h.1 (fun c n => routed_other fun r heq => by cases heq) client
  · rw [disconnect_udpEndpoint]
    exact h.2

variable (fmt) in
/-- **A message that is no `HubInfo`** is passed on, or makes the thread end; no entry is made. -/
theorem passes_tcp {m : BaseMessage} (hinfo : ∀ hub, m ≠ .info hub) (client : TcpClient)
    (g : GatewayManager) :
    Says (fun s => ∃ c, s = .tcp c m ∨ ∃ n, s = .tcp c (.notification n)) g
        (Gateway.step fmt g (.tcp client (.ok (some m)))) ∧
      (Gateway.step fmt g (.tcp client (.ok (some m)))).connections.length ≤ g.connections.length := by
  have hno : ¬ ∃ hub, (.ok (some m) : Except Exception (Option BaseMessage)) = .ok (some (.info hub)) := by
    rintro ⟨hub, heq⟩
    cases heq
    exact hinfo hub rfl
  refine step_tcp_inv (P := fun g' =>
    Says (fun s => ∃ c, s = .tcp c m ∨ ∃ n, s = .tcp c (.notification n)) g g' ∧
      g'.connections.length ≤ g.connections.length) fmt (fun _ => ?_) (fun g' h => ⟨?_, ?_⟩)
    ⟨.refl g, Nat.le_refl _⟩
  · obtain ⟨sent, hstate, hsent⟩ := attempt_relays fmt hno .Tcp none (some client) g
    rw [hstate]
    refine ⟨(Says.refl g).log fun s hs => ?_, Nat.le_refl _⟩
    obtain ⟨c, m', hm, rfl⟩ := hsent s hs
    cases hm
    exact ⟨c, Or.inl rfl⟩
  · exact says_disconnect h.1 (fun c n => ⟨c, Or.inr ⟨n, rfl⟩⟩) client
  · exact (disconnect_sublist client g').length_le.trans h.2

/-- **`Disconnect` of a registered client** drops an entry. -/
theorem disconnect_length {client : TcpClient} (hreg : Registered g client) :
    (g.disconnect client).state.connections.length < g.connections.length := by
  obtain ⟨as, hubInfo, bs, hcut, hd⟩ := disconnect_eq hreg
  have hl : g.connections = as ++ hubInfo :: bs := hcut.eq
  have hlt : (as ++ bs).length < g.connections.length := by
    rw [hl]
    simp
  rw [hd]
  split
  · exact hlt
  · rw [GatewayManager.broadcastTCP_state]
    exact hlt

end

/-! ### The invariant -/

section

variable {ι : Type} {name : ι → Option String} {address : ι → IPEndPoint} {server : IPEndPoint} {s : State ι}

/-- A probe says who it is from, and the gateway does not write to itself. -/
structure Proper (name : ι → Option String) (address : ι → IPEndPoint) (server : IPEndPoint) (d : Datagram) :
    Prop where
  probe : ∀ msg, d.message = .ack msg → msg.response = false → ∃ k, d.source = address k ∧ msg.id = name k
  other : d.target = server → d.source ≠ server

/-- The listener's calls are about the hub itself, and a request goes to the hub it is for. -/
structure Sane (name : ι → Option String) (address : ι → IPEndPoint) (server : IPEndPoint) (s : State ι) :
    Prop
    extends Base name s, Wire s where
  own : ∀ i, Own (s.hub i)
  requests : ∀ c m, .req m ∈ s.toHub c → Owns name s.opened c m.recipientId
  proper : ∀ d ∈ s.datagrams, Proper name address server d
  heard : s.gateway.udpEndpoint ≠ server
  unopened : ∀ c, s.opened.length ≤ c → s.toGateway c = []

theorem opened_of_link (hb : Base name s) {c : TcpClient} (hlink : s.link i = some c) :
    c < s.opened.length :=
  (List.getElem?_eq_some_iff.mp (hb.link i c hlink)).1

theorem sane_fresh {s₀ : State ι} (hf : Fresh s₀) (hcalls : ∀ i, (s₀.hub i).calls = [])
    (hheard : s₀.gateway.udpEndpoint ≠ server) :
    Sane (fun i => (s₀.hub i).localHubInfo.id) address server s₀ where
  toBase := (inv_fresh hf).toBase
  toWire := wire_fresh hf
  own i call hcall := by
    rw [hcalls] at hcall
    cases hcall
  requests c m hm := by
    rw [hf.toHub] at hm
    cases hm
  proper d hd := by
    rw [hf.datagrams] at hd
    cases hd
  heard := hheard
  unopened c _ := hf.toGateway c

section

variable {g : GatewayManager} (hrouted : Says (Routed s.gateway) s.gateway g)

include hrouted

theorem requests_setGateway (ht : Tidy name s.opened s.gateway)
    (hr : ∀ c m, .req m ∈ s.toHub c → Owns name s.opened c m.recipientId) (c : TcpClient) (m : ReqMessage)
    (hm : .req m ∈ (s.setGateway server g).toHub c) : Owns name s.opened c m.recipientId := by
  rcases List.mem_append.mp hm with hm | hm
  · exact hr c m hm
  · obtain ⟨x, hx, hid, hclient⟩ := (hrouted.drop (mem_sentTo.mp hm)).req c m rfl
    rw [← hid]
    exact ht.owned x hx c hclient

theorem proper_setGateway {message : Option BaseMessage} (hsaid : Says (Said message) s.gateway g)
    (hheard : s.gateway.udpEndpoint ≠ server) (hp : ∀ d ∈ s.datagrams, Proper name address server d)
    (d : Datagram) (hd : d ∈ (s.setGateway server g).datagrams) : Proper name address server d := by
  rcases List.mem_append.mp hd with hd | hd
  · exact hp d hd
  · obtain ⟨source, target, message⟩ := d
    have hmem := (mem_gatewayDatagrams.mp hd).2
    refine ⟨fun msg hm _ => ?_, fun htarget => ?_⟩
    · have hsaid := hsaid.drop hmem
      obtain rfl : message = .ack msg := hm
      cases hsaid
    · refine absurd ?_ hheard
      rw [← (hrouted.drop hmem).udp target message rfl]
      exact htarget

end

variable [DecidableEq ι] {i : ι} {fmt : TextFormat}

theorem own_setHub (ho : ∀ i, Own (s.hub i)) {h : HubManager} (hown : Own h) (k : ι) :
    Own ((s.setHub address i h).hub k) := by
  show Own (Function.update s.hub i h k)
  by_cases hk : k = i
  · rw [hk, Function.update_self]
    exact hown
  · rw [Function.update_of_ne hk]
    exact ho k

theorem own_step {s' : State ι} (hs : Sane name address server s) {l : Label ι}
    (hstep : step fmt address server s l = some s') : ∀ k, Own (s'.hub k) := by
  cases stepped hstep with
  | connect i localEndPoint =>
    exact own_setHub (s := s.accept i) hs.own ((hs.own i).of_eq rfl rfl rfl rfl)
  | act i hown => exact own_setHub hs.own ((hs.own i).own fmt hown)
  | @send i message _ => exact own_setHub hs.own ((hs.own i).sendMessageTCP message)
  | @receive i c message rest hlink hq _ =>
    refine own_setHub (s := { s with toHub := Function.update s.toHub c rest }) hs.own
      ((hs.own i).listen (hs.sound i).1 fmt message .Tcp none fun msg hm => ?_)
    have hmem : .req msg ∈ s.toHub c := by
      rw [hq, hm]
      exact List.mem_cons_self ..
    obtain ⟨j, hj, hrecipient⟩ := hs.requests c msg hmem
    obtain rfl : i = j := Option.some.inj ((hs.link i c hlink).symm.trans hj)
    exact hrecipient.trans (hs.id i).symm
  | @datagram i k d hd htarget _ =>
    refine own_setHub (s := { s with datagrams := s.datagrams.eraseIdx k }) hs.own
      ((hs.own i).listen (hs.sound i).1 fmt d.message .Udp (some d.source) fun msg hm => ?_)
    have hkind := hs.datagrams d (List.mem_of_getElem? hd)
    rw [hm] at hkind
    exact hkind.elim
  | _ => exact hs.own

theorem proper_setHub (haddress : ∀ i, address i ≠ server) {P : BaseMessage → Prop} {h : HubManager}
    {new : List (BaseMessage × IPEndPoint)} (hputs : Puts P (s.hub i) h new)
    (hnew : ∀ d ∈ new, ∀ msg, d.1 = .ack msg → msg.response = false → msg.id = name i)
    (hp : ∀ d ∈ s.datagrams, Proper name address server d) (d : Datagram)
    (hd : d ∈ (s.setHub address i h).datagrams) : Proper name address server d := by
  rcases List.mem_append.mp hd with hd | hd
  · exact hp d hd
  · obtain ⟨hsource, hmem⟩ := hputs.datagrams hd
    refine ⟨fun msg hm hasks => ⟨i, hsource, hnew _ hmem msg hm hasks⟩, fun _ => ?_⟩
    rw [hsource]
    exact haddress i

theorem requests_step {s' : State ι} (hs : Sane name address server s) {l : Label ι}
    (hstep : step fmt address server s l = some s') :
    ∀ c m, .req m ∈ s'.toHub c → Owns name s'.opened c m.recipientId := by
  cases stepped hstep with
  | connect i localEndPoint =>
    intro c m hm
    obtain ⟨j, hj, hrecipient⟩ := hs.requests c m hm
    refine ⟨j, ?_, hrecipient⟩
    show (s.opened ++ [i])[c]? = some j
    rw [List.getElem?_append_left (List.getElem?_eq_some_iff.mp hj).1]
    exact hj
  | receive _ hq _ => exact fun c m hm => hs.requests c m (mem_of_update hq hm)
  | @gatewayDatagram k d _ _ =>
    exact requests_setGateway (s := { s with datagrams := s.datagrams.eraseIdx k, taken := some d.message })
      ((Says.refl s.gateway).silent rfl) hs.tidy hs.requests
  | @gatewayHandle message _ =>
    rw [step_udp]
    exact requests_setGateway (s := { s with taken := none }) (routed_attempt ..).1 hs.tidy hs.requests
  | @gatewayReceive c message rest _ _ =>
    exact requests_setGateway (s := { s with toGateway := Function.update s.toGateway c rest })
      (routed_tcp ..).1 hs.tidy hs.requests
  | gatewayEnd c e => exact requests_setGateway (routed_tcp ..).1 hs.tidy hs.requests
  | _ => exact hs.requests

theorem proper_step {s' : State ι} (hs : Sane name address server s) (haddress : ∀ i, address i ≠ server)
    {l : Label ι} (hstep : step fmt address server s l = some s') :
    ∀ d ∈ s'.datagrams, Proper name address server d := by
  have herase : ∀ k, ∀ d ∈ s.datagrams.eraseIdx k, Proper name address server d :=
    fun k d hd => hs.proper d (List.mem_of_mem_eraseIdx hd)
  have hlisten : ∀ {m : BaseMessage} {endpoint : Option IPEndPoint} {id x : Option String}
      {new : List (BaseMessage × IPEndPoint)}, (∀ d ∈ new, ∃ msg source, m = .ack msg ∧
        msg.response = false ∧ endpoint = some source ∧ d = (replyTo msg id, source)) →
      ∀ d ∈ new, ∀ msg, d.1 = .ack msg → msg.response = false → msg.id = x := by
    intro m endpoint id x new hreplies d hd msg hm hasks
    obtain ⟨msg', source, _, _, _, rfl⟩ := hreplies d hd
    cases hm
    cases hasks
  cases stepped hstep with
  | connect i localEndPoint =>
    refine proper_setHub (s := s.accept i) haddress (puts_connectGateway fmt server localEndPoint (s.hub i))
      (fun d hd msg hm _ => ?_) hs.proper
    rw [List.mem_singleton.mp hd] at hm
    cases hm
  | @act i a hown =>
    obtain ⟨new, hputs, hprobes⟩ := puts_own fmt hown (s.hub i)
    refine proper_setHub haddress hputs (fun d hd msg hm _ => ?_) hs.proper
    rw [hprobes d hd] at hm
    cases hm
    exact hs.id i
  | @send i message _ =>
    exact proper_setHub haddress (puts_sendMessageTCP message (s.hub i)) (fun d hd => by cases hd) hs.proper
  | @receive i c message rest _ _ _ =>
    obtain ⟨new, hputs, hreplies⟩ := puts_listen fmt message .Tcp none (s.hub i)
    exact proper_setHub (s := { s with toHub := Function.update s.toHub c rest }) haddress hputs
      (hlisten hreplies) hs.proper
  | @datagram i k d _ _ _ =>
    obtain ⟨new, hputs, hreplies⟩ := puts_listen fmt d.message .Udp (some d.source) (s.hub i)
    exact proper_setHub (s := { s with datagrams := s.datagrams.eraseIdx k }) haddress hputs
      (hlisten hreplies) (herase k)
  | lose k => exact herase k
  | network lost writeFails => exact hs.proper
  | @gatewayDatagram k d _ _ =>
    exact proper_setGateway (s := { s with datagrams := s.datagrams.eraseIdx k, taken := some d.message })
      ((Says.refl s.gateway).silent rfl) (says_step fmt (.receive d.source) s.gateway) hs.heard (herase k)
  | @gatewayHandle message _ =>
    refine proper_setGateway (s := { s with taken := none }) ?_
      (says_step fmt (.udp (.ok (some message))) s.gateway) hs.heard hs.proper
    rw [step_udp]
    exact (routed_attempt ..).1
  | @gatewayReceive c message rest _ _ =>
    exact proper_setGateway (s := { s with toGateway := Function.update s.toGateway c rest })
        (routed_tcp ..).1
      (says_step fmt (.tcp c (.ok (some message))) s.gateway) hs.heard hs.proper
  | gatewayEnd c e =>
    exact proper_setGateway (routed_tcp ..).1 (says_step fmt (.tcp c (.error e)) s.gateway) hs.heard hs.proper

theorem heard_step {s' : State ι} (hs : Sane name address server s) {l : Label ι}
    (hstep : step fmt address server s l = some s') : s'.gateway.udpEndpoint ≠ server := by
  cases stepped hstep with
  | gatewayDatagram hd htarget => exact (hs.proper _ (List.mem_of_getElem? hd)).other htarget
  | @gatewayHandle message _ =>
    show (Gateway.step fmt s.gateway (.udp (.ok (some message)))).udpEndpoint ≠ server
    rw [step_udp, (routed_attempt ..).2]
    exact hs.heard
  | @gatewayReceive c message rest _ _ =>
    show (Gateway.step fmt s.gateway (.tcp c (.ok (some message)))).udpEndpoint ≠ server
    rw [(routed_tcp ..).2]
    exact hs.heard
  | gatewayEnd c e =>
    show (Gateway.step fmt s.gateway (.tcp c (.error e))).udpEndpoint ≠ server
    rw [(routed_tcp ..).2]
    exact hs.heard
  | _ => exact hs.heard

/-- **Every step** keeps the invariant. -/
theorem Sane.step {s' : State ι} (hs : Sane name address server s) (haddress : ∀ i, address i ≠ server)
    {l : Label ι} (hstep : Links.step fmt address server s l = some s') : Sane name address server s' where
  toBase := hs.toBase.step hstep
  toWire := hs.toWire.step hstep
  own := own_step hs hstep
  requests := requests_step hs hstep
  proper := proper_step hs haddress hstep
  heard := heard_step hs hstep
  unopened := unopened_step hs.toBase hs.unopened hstep

end

end Blockcore.Network.Links.Routes
