import Blockcore.Network.Traffic

/-!
# A hub that is served

As long as nothing happens to its client, the gateway has hub `j` registered under it, and reaches it
with all that it sends to its clients (`Served.step`).  The others may come and go meanwhile, and send
what the gateway cannot handle.

A `HubInfo` under way on a client that hub `j` had before would be registered in place of the last
one; so there is none (`Served.older`).
-/

namespace Blockcore.Network.Links

open Lib Networking Gateway Hub

/-! ### A client stays registered -/

/-- Client `d` is registered and connected, and no write to a registered client fails. -/
structure Live (g : GatewayManager) (d : TcpClient) : Prop where
  registered : Registered g d
  connected : g.connected d = true
  writes : ∀ e, Registered g e → g.writeFails e = false

section

variable {fmt : TextFormat} {g : GatewayManager} {client : Option TcpClient} {d e : TcpClient}
  {message : Except Exception (Option BaseMessage)}

theorem Live.reached (h : Live g d) : d ∈ g.reached (g.liveClients g.connections) := by
  rw [GatewayManager.reached_alive fun e he => h.writes e (GatewayManager.mem_liveClients.mp he).2]
  exact GatewayManager.mem_liveClients.mpr ⟨h.connected, h.registered⟩

/-- **A message leaves it registered**, unless it tells of the hub there over another client. -/
theorem registered_attempt (protocol : ProtocolType) (endpoint : Option IPEndPoint)
    (hpeer : ∀ c ∈ client, g.socket c ≠ .closed) (hreg : Registered g d)
    (hother : ∀ m, message = .ok (some (.info m)) →
      ∀ x ∈ g.connections, x.client = some d → x.id = m.id → ∀ c ∈ client, c = d) :
    Registered (attempt fmt message protocol endpoint client g).state d := by
  by_cases hinfo : ∃ m, message = .ok (some (.info m))
  · obtain ⟨m, rfl⟩ := hinfo
    rw [attempt_info]
    by_cases hp : ∃ p, Parses fmt m p
    · obtain ⟨p, hparse⟩ := hp
      obtain ⟨as, found, bs, hcut, henter, hproc⟩ :=
        processInfo_of_parses protocol endpoint client (g := g) hparse hpeer
      rw [hproc, henter, registered_iff_mem_map,
        announce_map HubInfo.client (fun _ _ => rfl) (show _ = as ++ _ :: bs from rfl)]
      obtain ⟨x, hx, hclient⟩ := hreg
      have hwhere := hx
      rw [hcut.eq, List.mem_append, List.mem_append, Option.mem_toList] at hwhere
      rcases hwhere with hin | rfl | hin
      · exact List.mem_map.mpr ⟨x, List.mem_append_left _ hin, hclient⟩
      · -- the entry is replaced; its client is the sender's, or stays
        refine List.mem_map.mpr ⟨_, List.mem_append_right _ (List.mem_cons_self ..), ?_⟩
        rw [entry_client]
        cases client with
        | none => exact hclient
        | some c => rw [← hother m rfl x hx hclient (hcut.key_found x rfl) c rfl]; rfl
      · exact List.mem_map.mpr ⟨x, List.mem_append_right _ (List.mem_cons_of_mem _ hin), hclient⟩
    · obtain ⟨ex, l, hproc, hl⟩ := processInfo_refused protocol endpoint client (g := g) hp
      rw [registered_iff_mem_map] at hreg
      rw [hproc, Outcome.state_thrown, registered_iff_mem_map, map_eq_of_carried (fun _ _ h => h.client) hl]
      exact hreg
  · rw [Registered, attempt_connections fmt hinfo]
    exact hreg

theorem Live.handle (h : Live g d) (protocol : ProtocolType) (endpoint : Option IPEndPoint)
    (hpeer : ∀ c ∈ client, g.socket c ≠ .closed) (hwrites : ∀ c ∈ client, g.writeFails c = false)
    (hother : ∀ m, message = .ok (some (.info m)) →
      ∀ x ∈ g.connections, x.client = some d → x.id = m.id → ∀ c ∈ client, c = d) :
    Live (attempt fmt message protocol endpoint client g).state d := by
  have hsockets := attempt_sameSockets fmt message protocol endpoint client g
  have he : Entered message client g (attempt fmt message protocol endpoint client g).state :=
    entered_attempt protocol endpoint hpeer
  refine ⟨registered_attempt protocol endpoint hpeer h.registered hother, ?_, fun e hreg => ?_⟩
  · rw [hsockets.connected]
    exact h.connected
  · rw [hsockets.2]
    rcases he.registered hreg with hreg | ⟨hclient, _⟩
    · exact h.writes e hreg
    · exact hwrites e hclient

theorem Live.disconnect (h : Live g d) (hne : e ≠ d) : Live (g.disconnect e).state d := by
  have hwrites : ∀ e', Registered (g.disconnect e).state e' →
      (g.disconnect e).state.writeFails e' = false := by
    rintro e' ⟨x, hx, hclient⟩
    rw [disconnect_writeFails]
    exact h.writes e' ⟨x, (disconnect_sublist e g).subset hx, hclient⟩
  by_cases hreg : Registered g e
  · obtain ⟨as, hubInfo, bs, hcut, hd⟩ := disconnect_eq hreg
    have hstays : ∃ x ∈ as ++ bs, x.client = some d := by
      obtain ⟨x, hx, hclient⟩ := h.registered
      rw [hcut.eq, List.mem_append, List.mem_append, Option.mem_toList] at hx
      rcases hx with hx | hx | hx
      · exact ⟨x, List.mem_append_left _ hx, hclient⟩
      · have hfound : x.client = some e := hcut.key_found x hx
        exact absurd (Option.some.inj (hfound.symm.trans hclient)) hne
      · exact ⟨x, List.mem_append_right _ hx, hclient⟩
    refine ⟨?_, ?_, hwrites⟩
    · rw [hd]
      split
      · exact hstays
      · rw [GatewayManager.broadcastTCP_state]
        exact hstays
    · have hconn : GatewayManager.connected { g with connections := as ++ bs } d = true := h.connected
      rw [hd]
      split
      · exact hconn
      · rw [GatewayManager.broadcastTCP_state, GatewayManager.log_connected, dropped,
          GatewayManager.close_connected, hconn, decide_eq_true (Ne.symm hne)]
        rfl
  · rw [disconnect_unregistered hreg]
    exact h

/-- **What a thread takes** leaves it live, unless it is its own thread that gives up. -/
theorem Live.tcp {message : BaseMessage} (h : Live g d) (hconn : g.connected e = true)
    (hwrites : g.writeFails e = false) (hfatal : e = d → ¬ Fatal fmt g d message)
    (hother : ∀ m, message = .info m → ∀ x ∈ g.connections, x.client = some d → x.id = m.id → e = d) :
    Live (Gateway.step fmt g (.tcp e (.ok (some message)))) d := by
  have hlive : Live (attempt fmt (.ok (some message)) .Tcp none (some e) g).state d := by
    refine h.handle .Tcp none (GatewayManager.open_of_connected hconn) (fun c hc => ?_)
      fun m hm x hx hclient hid c hc => ?_
    · rw [← Option.some.inj hc]
      exact hwrites
    · rw [← Option.some.inj hc]
      refine hother m ?_ x hx hclient hid
      cases hm
      rfl
  rw [Gateway.step, if_pos hconn, tcpRound]
  cases ha : attempt fmt (.ok (some message)) .Tcp none (some e) g with
  | done g₁ =>
    rw [ha] at hlive
    exact hlive
  | thrown ex g₁ =>
    rw [ha] at hlive
    refine hlive.disconnect fun heq => hfatal heq ?_
    subst heq
    exact fatal_of_threw hconn (by rw [ha]; rfl)

end

/-! ### A hub is served -/

section

variable {ι : Type} [DecidableEq ι] {name : ι → Option String} {fmt : TextFormat} {address : ι → IPEndPoint}
  {server : IPEndPoint} {s s' : State ι} {j : ι} {d : TcpClient}

/-- Hub `j` has client `d`, which is live; of what it wrote on clients it had before, nothing is under
way. -/
structure Served (s : State ι) (j : ι) (d : TcpClient) : Prop where
  link : s.link j = some d
  older : ∀ e, s.opened[e]? = some j → e ≠ d → s.toGateway e = []
  live : Live s.gateway d

/-- Hub `j` does not connect again; client `d` is not lost, its thread can read, and handle what it
reads; and the gateway can write to its clients. -/
def Steady (fmt : TextFormat) (j : ι) (d : TcpClient) (s : State ι) : Label ι → Prop
  | .connect k _ => k ≠ j
  | .network lost writeFails => lost d = false ∧ ∀ e, Registered s.gateway e → writeFails e = false
  | .gatewayReceive e =>
    s.gateway.writeFails e = false ∧
      ∀ message rest, s.toGateway e = message :: rest → e = d → ¬ Fatal fmt s.gateway d message
  | .gatewayEnd e _ => e ≠ d
  | _ => True

omit [DecidableEq ι] in
theorem Served.under_way (h : Served s j d) (toHub : TcpClient → List BaseMessage)
    (datagrams : List Datagram) (taken : Option BaseMessage) :
    Served { s with toHub := toHub, datagrams := datagrams, taken := taken } j d :=
  ⟨h.link, h.older, h.live⟩

omit [DecidableEq ι] in
theorem toGateway_older (hb : Base name s) {c e : TcpClient} {k : ι} (hlink : s.link j = some c)
    (he : s.opened[e]? = some j) (hne : e ≠ c) : s.link k ≠ some e := by
  intro hke
  obtain rfl : k = j := Option.some.inj ((hb.link k e hke).symm.trans he)
  exact hne (Option.some.inj (hke.symm.trans hlink))

variable (address) in
theorem Served.setHub (hb : Base name s) (h : Served s j d) (k : ι) (hub : HubManager) :
    Served (s.setHub address k hub) j d := by
  refine ⟨h.link, fun e he hne => ?_, h.live⟩
  show (if s.link k = some e then _ else _) = _
  rw [if_neg (toGateway_older hb h.link he hne)]
  exact h.older e he hne

variable (server) in
omit [DecidableEq ι] in
theorem Served.setGateway (h : Served s j d) {g : GatewayManager} (hlive : Live g d) :
    Served (s.setGateway server g) j d := ⟨h.link, h.older, hlive⟩

theorem opened_accept {k : ι} {e : TcpClient} (he : (s.accept k).opened[e]? = some j) (hjk : j ≠ k) :
    s.opened[e]? = some j := by
  change (s.opened ++ [k])[e]? = some j at he
  rw [List.getElem?_append] at he
  split at he
  · exact he
  · rw [List.getElem?_singleton] at he
    split at he
    · exact absurd (Option.some.inj he).symm hjk
    · cases he

theorem Served.accept (hb : Base name s) (h : Served s j d) {k : ι} (hjk : j ≠ k) : Served (s.accept k) j d := by
  refine ⟨(Function.update_of_ne hjk ..).trans h.link, fun e he => h.older e (opened_accept he hjk),
    h.live.registered, ?_, h.live.writes⟩
  have hd : d ≠ s.opened.length := by
    rintro rfl
    have hopened := hb.link j _ h.link
    simp at hopened
  show (Function.update s.gateway.socket s.opened.length .connected d == .connected) = true
  rw [Function.update_of_ne hd]
  exact h.live.connected

omit [DecidableEq ι] in
/-- **Only hub `j` writes that it is hub `j`**, and it writes on client `d`. -/
theorem Served.own (hinj : Function.Injective name) (hb : Base name s) (h : Served s j d) {e : TcpClient}
    {m : HubInfoMessage} {rest : List BaseMessage} (hq : s.toGateway e = .info m :: rest) {x : HubInfo}
    (hx : x ∈ s.gateway.connections) (hclient : x.client = some d) (hid : x.id = m.id) : e = d := by
  obtain ⟨k, hk, hname⟩ := hb.infos e m (by rw [hq]; exact List.mem_cons_self ..)
  obtain ⟨k', hk', hname'⟩ := hb.tidy.owned x hx d hclient
  obtain rfl : k' = j := Option.some.inj (hk'.symm.trans (hb.link j d h.link))
  obtain rfl : k = k' := hinj (hname.symm.trans (hid.symm.trans hname'))
  by_contra hne
  rw [h.older e hk hne] at hq
  cases hq

theorem Served.step (hinj : Function.Injective name) (hb : Base name s) (h : Served s j d) {l : Label ι}
    (hm : Steady fmt j d s l) (hs : step fmt address server s l = some s') : Served s' j d := by
  have hbase : ∀ toHub datagrams taken, Base name
      { s with toHub := toHub, datagrams := datagrams, taken := taken } :=
    fun _ _ _ => ⟨hb.id, hb.sound, hb.link, hb.infos, hb.tidy⟩
  cases stepped hs with
  | connect k localEndPoint => exact (h.accept hb (Ne.symm hm)).setHub address (hb.accept k) k _
  | act k hown => exact h.setHub address hb k _
  | send k hinfo => exact h.setHub address hb k _
  | receive hlink hq hlistening => exact (h.under_way _ _ _).setHub address (hbase _ s.datagrams s.taken) _ _
  | datagram hd htarget hlistening => exact (h.under_way _ _ _).setHub address (hbase s.toHub _ s.taken) _ _
  | lose k => exact h.under_way _ _ _
  | network lost writeFails =>
    refine ⟨h.link, h.older, h.live.registered, ?_, hm.2⟩
    have hconn := h.live.connected
    rw [GatewayManager.connected] at hconn ⊢
    simp only [hm.1, Bool.false_and, Bool.false_eq_true, if_false]
    exact hconn
  | gatewayDatagram hd =>
    exact (h.under_way _ _ _).setGateway server
      ⟨h.live.registered, h.live.connected, h.live.writes⟩
  | @gatewayHandle message htaken =>
    refine (h.under_way _ _ _).setGateway server ?_
    rw [step_udp]
    exact h.live.handle .Udp _ (fun c hc => by cases hc) (fun c hc => by cases hc)
      fun m _ x _ _ _ c hc => by cases hc
  | @gatewayReceive e message rest hq hconn =>
    have hnot : ∀ e', s.opened[e']? = some j → e' ≠ d → e' ≠ e := by
      rintro e' he hne rfl
      rw [h.older e' he hne] at hq
      cases hq
    have hserved : Served { s with toGateway := Function.update s.toGateway e rest } j d := by
      refine ⟨h.link, fun e' he hne => ?_, h.live⟩
      show Function.update s.toGateway e rest e' = []
      rw [Function.update_of_ne (hnot e' he hne)]
      exact h.older e' he hne
    refine hserved.setGateway server ?_
    refine h.live.tcp hconn hm.1 (hm.2 message rest hq) fun m hmessage x hx hclient hid => ?_
    subst hmessage
    exact h.own hinj hb hq hx hclient hid
  | gatewayEnd e ex =>
    refine h.setGateway server ?_
    rw [step_tcp_error]
    exact h.live.disconnect hm

end

end Blockcore.Network.Links
