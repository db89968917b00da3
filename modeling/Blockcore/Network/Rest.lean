import Blockcore.Network.Load
import Blockcore.Network.Routes

/-!
# The traffic dies down

Hubs answer each other's messages with messages, and connect to one another when they learn where the
others are; so does it ever end?  `traffic_ends` says that it does, however the messages are delivered:
if no user asks for anything and no hub connects, only finitely much happens, apart from the keep-alives.
As elsewhere a message that is handled is one step, and so is a `Disconnect`.

Every step leaves less to do, in the order of `Work.Level` (`less_step`).
-/

namespace Blockcore.Network.Links.Rest

open Lib Networking Gateway Hub
open Work Load Routes

/-! ### What is done leaves less to do -/

section

variable {fmt : TextFormat} {h h' : HubManager} {message : BaseMessage} {protocol : ProtocolType}
  {endpoint : Option IPEndPoint} {v : Level}

theorem listen_up (m : BaseMessage)
    (hm : m ∈ sentTCP (reaction h (h.listen fmt (.ok (some message)) protocol endpoint))) :
    upLevel m = some .reqUp := by
  have hreq : request m := (asks_listen fmt message protocol endpoint h).sentTCP hm
  cases m with
  | req _ => rfl
  | _ => exact hreq.elim

theorem listen_air {server source : IPEndPoint} (d : Datagram)
    (hd : d ∈ hubDatagrams source (reaction h (h.listen fmt (.ok (some message)) protocol endpoint))) :
    airLevel server d = .reply := by
  obtain ⟨new, hputs, hnew⟩ := puts_listen fmt message protocol endpoint h
  obtain ⟨msg, target, _, _, _, heq⟩ := hnew _ (hputs.datagrams hd).2
  have hm : d.message = replyTo msg h.localHubInfo.id := (Prod.mk.inj heq).1
  rw [airLevel, hm]
  rfl

variable {ι : Type} [Fintype ι] {name : ι → Option String} {address : ι → IPEndPoint}

theorem todo_eq_zero (hv : v < .unlearned) : todo fmt name address h v = 0 := by
  cases v with
  | unlearned => exact absurd hv (by decide)
  | call => exact absurd hv (by decide)
  | _ => rfl

theorem todo_le (hunlearned : todo fmt name address h' .unlearned ≤ todo fmt name address h .unlearned)
    (hcall : v = .call → todo fmt name address h' .call ≤ todo fmt name address h .call) :
    todo fmt name address h' v ≤ todo fmt name address h v := by
  cases v with
  | unlearned => exact hunlearned
  | call => exact hcall rfl
  | _ => exact Nat.le_refl _

end

section

variable {ι : Type} [Fintype ι] {fmt : TextFormat} {name : ι → Option String} {address : ι → IPEndPoint}
  {server : IPEndPoint} {s : State ι} {message : BaseMessage}

theorem less_gatewayDatagram {k : Nat} {source : IPEndPoint}
    (hd : s.datagrams[k]? = some ⟨source, server, message⟩) :
    Less (work fmt name address server (State.setGateway server
        { s with datagrams := s.datagrams.eraseIdx k, taken := some message }
        (Gateway.step fmt s.gateway (.receive source)))) (work fmt name address server s) := by
  refine less_of_takes (work_takeAir hd) fun v hv => ?_
  have hne : takenLevel message ≠ v := (hv.trans_lt (airLevel_lt_takenLevel source message)).ne'
  have htaken : work fmt name address server
      { s with datagrams := s.datagrams.eraseIdx k, taken := some message } v ≤
        work fmt name address server { s with datagrams := s.datagrams.eraseIdx k } v := by
    have hair : inAir server { s with datagrams := s.datagrams.eraseIdx k, taken := some message } v ≤
        inAir server { s with datagrams := s.datagrams.eraseIdx k } v := by
      rw [inAir, inAir]
      refine Nat.add_le_add_left ?_ _
      simp [hne]
    exact Nat.add_le_add_right (Nat.add_le_add_right (Nat.add_le_add_left hair _) _) _
  exact le_trans (work_setGateway_silent rfl rfl v) htaken

theorem less_gatewayHandle (hs : Sane name address server s) (htaken : s.taken = some message) :
    Less (work fmt name address server (State.setGateway server { s with taken := none }
      (Gateway.step fmt s.gateway (.udp (.ok (some message)))))) (work fmt name address server s) := by
  refine less_of_takes (work_takeTaken htaken) fun v hv => ?_
  rw [step_udp]
  by_cases hinfo : ∃ m, message = .info m
  · obtain ⟨m, rfl⟩ := hinfo
    change v ≤ .infoTaken at hv
    have hlt : v < .down := hv.trans_lt (by decide)
    have hrouted :=
      (routed_attempt fmt (.ok (some (.info m))) .Udp (some s.gateway.udpEndpoint) none s.gateway).1
    have hentry : v ≠ .entry := (hv.trans_lt (by decide)).ne
    have hwork := @work_setGateway ι { s with taken := none } v _ fmt name address server
      (attempt fmt (.ok (some (.info m))) .Udp (some s.gateway.udpEndpoint) none s.gateway).state
      (fun c m' _ => (hlt.trans_le (down_le_downLevel m')).ne') fun e m' hm => ?_
    · rwa [entries_eq_zero hentry, entries_eq_zero hentry] at hwork
    · rw [(hrouted.drop hm).udp e m' rfl]
      exact (hlt.trans_le (down_le_airLevel hs.heard m')).ne'
  · have hsilent : (attempt fmt (.ok (some message)) .Udp (some s.gateway.udpEndpoint) none s.gateway).state =
        s.gateway := by
      rw [attempt, dispatch, process_gatewayMaps]
      have hkind := hs.taken message htaken
      cases message with
      | ack _ => rfl
      | info m => exact absurd ⟨m, rfl⟩ hinfo
      | msg m => simp only [logPeer_state]
      | _ => exact hkind.elim
    rw [hsilent]
    exact work_setGateway_silent rfl rfl v

/-- **The gateway takes a message off a client.** -/
theorem less_gatewayReceive (hs : Sane name address server s) {c : TcpClient} {rest : List BaseMessage}
    (hq : s.toGateway c = message :: rest) {a : Level} (ha : upLevel message = some a) :
    Less (work fmt name address server (State.setGateway server
        { s with toGateway := Function.update s.toGateway c rest }
      (Gateway.step fmt s.gateway (.tcp c (.ok (some message)))))) (work fmt name address server s) := by
  have hc : c < s.opened.length := by
    by_contra hnot
    rw [hs.unopened c (Nat.le_of_not_lt hnot)] at hq
    cases hq
  have htake : ∀ v,
      work fmt name address server { s with toGateway := Function.update s.toGateway c rest } v +
      (if a = v then 1 else 0) = work fmt name address server s v := by
    intro v
    rw [← work_takeUp hc hq v, ha]
    by_cases hav : a = v
    · rw [if_pos hav, if_pos (congrArg some hav)]
    · rw [if_neg hav, if_neg fun heq => hav (Option.some.inj heq)]
  refine less_of_takes htake fun v hv => ?_
  by_cases hinfo : ∃ m, message = .info m
  · obtain ⟨m, rfl⟩ := hinfo
    obtain rfl : .infoUp = a := Option.some.inj ha
    have hlt : v < .down := hv.trans_lt (by decide)
    have hentry : v ≠ .entry := (hv.trans_lt (by decide)).ne
    have hrouted := (routed_tcp fmt c (.ok (some (.info m))) s.gateway).1
    have hwork := @work_setGateway ι { s with toGateway := Function.update s.toGateway c rest } v _ fmt name
      address server (Gateway.step fmt s.gateway (.tcp c (.ok (some (.info m)))))
      (fun c m' _ => (hlt.trans_le (down_le_downLevel m')).ne') fun e m' hm => ?_
    · rwa [entries_eq_zero hentry, entries_eq_zero hentry] at hwork
    · rw [(hrouted.drop hm).udp e m' rfl]
      exact (hlt.trans_le (down_le_airLevel hs.heard m')).ne'
  · push Not at hinfo
    obtain ⟨hpasses, hlength⟩ := passes_tcp fmt hinfo c s.gateway
    have hentries :
        entries (Gateway.step fmt s.gateway (.tcp c (.ok (some message)))) v ≤ entries s.gateway v := by
      cases v with
      | entry => exact hlength
      | _ => exact le_refl 0
    have hlevels : a < downLevel message ∧ a < .notification := by
      cases message with
      | info m => exact absurd rfl (hinfo m)
      | keepAlive m => cases ha
      | req _ =>
        obtain rfl : .reqUp = a := Option.some.inj ha
        exact ⟨(by decide : Level.reqUp < .reqDown), by decide⟩
      | notification _ =>
        obtain rfl : .otherUp = a := Option.some.inj ha
        exact ⟨(by decide : Level.otherUp < .notification), by decide⟩
      | _ =>
        obtain rfl : .otherUp = a := Option.some.inj ha
        exact ⟨(by decide : Level.otherUp < .down), by decide⟩
    refine Nat.le_of_add_le_add_right ((work_setGateway (fun d m hm => ?_) fun e m hm => ?_).trans
      (Nat.add_le_add_left hentries _))
    · obtain ⟨c', heq | ⟨n, heq⟩⟩ := hpasses.drop hm
      · cases heq
        exact (hv.trans_lt hlevels.1).ne'
      · cases heq
        exact (hv.trans_lt hlevels.2).ne'
    · obtain ⟨c', heq | ⟨n, heq⟩⟩ := hpasses.drop hm
      · cases heq
      · cases heq

theorem less_gatewayEnd {c : TcpClient} (e : Exception) (hreg : Registered s.gateway c) :
    Less (work fmt name address server (s.setGateway server (Gateway.step fmt s.gateway (.tcp c (.error e)))))
      (work fmt name address server s) := by
  rw [step_tcp_error]
  have hsaid : Says (fun x => ∃ d n, x = .tcp d (.notification n)) s.gateway (s.gateway.disconnect c).state :=
    says_disconnect (.refl _) (fun d n => ⟨d, n, rfl⟩) c
  have hwork : ∀ v ≤ Level.entry, work fmt name address server
      (s.setGateway server (s.gateway.disconnect c).state) v +
      entries s.gateway v ≤ work fmt name address server s v + entries (s.gateway.disconnect c).state v := by
    intro v hv
    refine work_setGateway (fun d m hm => ?_) fun e m hm => ?_
    · obtain ⟨d', n, heq⟩ := hsaid.drop hm
      cases heq
      exact (hv.trans_lt (by decide : Level.entry < .notification)).ne'
    · obtain ⟨d', n, heq⟩ := hsaid.drop hm
      cases heq
  have hlength := disconnect_length hreg
  refine ⟨.entry, ?_, fun v hv => ?_⟩
  · have hentry := hwork .entry (le_refl _)
    rw [entries, entries] at hentry
    omega
  · have hbefore := hwork v hv.le
    rw [entries_eq_zero hv.ne, entries_eq_zero hv.ne] at hbefore
    omega

theorem less_lose {k : Nat} (hk : k < s.datagrams.length) :
    Less (work fmt name address server { s with datagrams := s.datagrams.eraseIdx k })
      (work fmt name address server s) :=
  less_of_takes (work_takeAir (List.getElem?_eq_getElem hk)) fun _ _ => le_refl _

variable [DecidableEq ι] {i : ι} {protocol : ProtocolType} {endpoint : Option IPEndPoint} {v : Level}

theorem work_listen (hv : v ≤ .unlearned) :
    work fmt name address server
        (s.setHub address i ((s.hub i).listen fmt (.ok (some message)) protocol endpoint)) v +
        todo fmt name address (s.hub i) v ≤
      work fmt name address server s v +
        todo fmt name address ((s.hub i).listen fmt (.ok (some message)) protocol endpoint) v := by
  refine work_setHub (fun m hm heq => ?_) fun d hd heq => ?_
  · obtain rfl := Option.some.inj ((listen_up m hm).symm.trans heq)
    exact absurd hv (by decide)
  · rw [← heq, listen_air d hd] at hv
    exact absurd hv (by decide)

theorem work_listen_down (hv : v ≤ .down) :
    work fmt name address server
        (s.setHub address i ((s.hub i).listen fmt (.ok (some message)) protocol endpoint)) v ≤
      work fmt name address server s v := by
  have hlt : v < .unlearned := hv.trans_lt (by decide)
  have hwork := @work_listen ι _ fmt name address server s message _ i protocol endpoint v hlt.le
  rwa [todo_eq_zero hlt, todo_eq_zero hlt] at hwork

theorem less_receive (hs : Sane name address server s) {c : TcpClient} {rest : List BaseMessage}
    (hlink : s.link i = some c) (hq : s.toHub c = message :: rest) :
    Less (work fmt name address server (State.setHub address
        { s with toHub := Function.update s.toHub c rest } i
      ((s.hub i).listen fmt (.ok (some message)) .Tcp none))) (work fmt name address server s) := by
  refine less_of_takes (work_takeDown (opened_of_link hs.toBase hlink) hq) fun v hv => ?_
  cases message with
  | notification item =>
    obtain ⟨hunlearned, hcall, hsilent⟩ := @todo_notification ι _ fmt name address (s.hub i) item .Tcp none
    refine work_setHub_le (fun m hm => (hsilent.sentTCP hm).elim) (fun d hd heq => ?_)
      (todo_le hunlearned fun _ => hcall.le)
    change v ≤ .notification at hv
    rw [← heq, listen_air d hd] at hv
    exact absurd hv (by decide)
  | req msg =>
    obtain ⟨hunlearned, hsilent⟩ := @todo_req ι _ fmt name address (s.hub i) msg .Tcp none
    change v ≤ .reqDown at hv
    refine work_setHub_le (fun m hm => (hsilent.sentTCP hm).elim) (fun d hd heq => ?_)
      (todo_le hunlearned.le fun hcall => ?_)
    · rw [← heq, listen_air d hd] at hv
      exact absurd hv (by decide)
    · rw [hcall] at hv
      exact absurd hv (by decide)
  | _ => exact work_listen_down hv

theorem less_datagram (hs : Sane name address server s) (hinj : Function.Injective name)
    (haddress : ∀ i, address i ≠ server) {k : Nat} {source : IPEndPoint}
    (hd : s.datagrams[k]? = some ⟨source, address i, message⟩) :
    Less (work fmt name address server (State.setHub address { s with datagrams := s.datagrams.eraseIdx k } i
      ((s.hub i).listen fmt (.ok (some message)) .Udp (some source)))) (work fmt name address server s) := by
  cases message with
  | info hub =>
    refine less_of_takes (work_takeAir hd) fun v hv => work_listen_down ?_
    rwa [airLevel, if_neg (haddress i)] at hv
  | ack msg =>
    cases hresponse : msg.response with
    | true =>
      refine less_of_takes (work_takeAir hd) fun v hv => ?_
      obtain ⟨hrests, hsilent⟩ := @rests_reply fmt (s.hub i) msg hresponse .Udp (some source)
      refine work_setHub_le (fun m hm => (hsilent.sentTCP hm).elim) (fun d' hd' => ?_)
          (todo_rests hrests v).le
      obtain ⟨new, hputs, hnew⟩ := puts_listen fmt (.ack msg) .Udp (some source) (s.hub i)
      obtain ⟨msg', _, hmsg, hasks, _⟩ := hnew _ (hputs.datagrams hd').2
      cases hmsg
      rw [hresponse] at hasks
      cases hasks
    | false =>
      obtain ⟨from_, rfl, hid⟩ := (hs.proper _ (List.mem_of_getElem? hd)).probe msg rfl hresponse
      have hprobe : airLevel server ⟨address from_, address i, .ack msg⟩ = .probe := by
        rw [airLevel]
        simp only [hresponse]
        rfl
      have hprobed := @todo_probe ι _ fmt name address (s.hub i) hinj msg hresponse from_ hid .Udp
      rcases hprobed with ⟨hrests, hsilent⟩ | hlearned
      · refine less_of_takes (work_takeAir hd) fun v hv => ?_
        rw [hprobe] at hv
        refine work_setHub_le (fun m hm => (hsilent.sentTCP hm).elim) (fun d' hd' heq => ?_)
          (todo_rests hrests v).le
        rw [← heq, listen_air d' hd'] at hv
        exact absurd hv (by decide)
      · -- it asks to be connected to the one it has learned about
        have hle : ∀ v, work fmt name address server { s with datagrams := s.datagrams.eraseIdx k } v ≤
            work fmt name address server s v := by
          intro v
          rw [← work_takeAir hd v]
          exact Nat.le_add_right ..
        refine ⟨.unlearned, ?_, fun v hv => ?_⟩
        · have hwork := @work_listen ι _ fmt name address server
            { s with datagrams := s.datagrams.eraseIdx k } (.ack msg) _ i
            .Udp (some (address from_)) .unlearned (le_refl _)
          have hbefore := hle .unlearned
          simp only at hwork
          omega
        · refine le_trans (work_setHub_le (fun m hm heq => ?_) (fun d' hd' heq => ?_) ?_) (hle v)
          · obtain rfl := Option.some.inj ((listen_up m hm).symm.trans heq)
            exact absurd hv (by decide)
          · rw [← heq, listen_air d' hd'] at hv
            exact absurd hv (by decide)
          · rw [todo_eq_zero hv, todo_eq_zero hv]
  | _ => exact less_of_takes (work_takeAir hd) fun v hv => work_listen_down hv

theorem less_advance (hs : Sane name address server s) {t : Nat} {h : HubManager}
    (hadvance : (s.hub i).advance t = some h) :
    Less (work fmt name address server (s.setHub address i h)) (work fmt name address server s) := by
  obtain ⟨hcall, hunlearned, hsilent⟩ := @todo_advance ι _ fmt name address (s.hub i) h t (hs.own i) hadvance
  have hair : ∀ d ∈ hubDatagrams (address i) (reaction (s.hub i) h), airLevel server d = .probe := by
    intro d hd
    obtain ⟨new, hsends, hprobes⟩ := probes_advance hadvance
    have hputs : Puts (fun _ => False) (s.hub i) h new := ⟨hsilent, hsends⟩
    have hm : d.message = (Ack.new (s.hub i).localHubInfo.id).toMessage := hprobes _ (hputs.datagrams hd).2
    rw [airLevel, hm]
    rfl
  have hwork : ∀ v ≤ Level.call, work fmt name address server (s.setHub address i h) v +
      todo fmt name address (s.hub i) v ≤ work fmt name address server s v + todo fmt name address h v := by
    refine fun v hv => work_setHub (fun m hm => (hsilent.sentTCP hm).elim) fun d hd heq => ?_
    rw [← heq, hair d hd] at hv
    exact absurd hv (by decide)
  refine ⟨.call, ?_, fun v hv => ?_⟩
  · have hself := hwork .call (le_refl _)
    omega
  · have hbefore := hwork v hv.le
    have htodo : todo fmt name address h v ≤ todo fmt name address (s.hub i) v :=
      todo_le hunlearned.le fun heq => absurd heq hv.ne
    omega

/-- A user asks for something, or a hub connects. -/
def asked : Label ι → Bool
  | .connect _ _ => true
  | .act _ (.connectToClient _) => true
  | .act _ .connectedGateway => true
  | .send _ (.keepAlive _) => false
  | .send _ _ => true
  | _ => false

/-- A message is taken, handled or lost, other than a keep-alive that the gateway takes, a call goes on, or
the thread of a registered client ends. -/
def Does (s : State ι) : Label ι → Prop
  | .act i (.advance t) => ((s.hub i).advance t).isSome = true
  | .act _ _ => False
  | .send _ _ => False
  | .lose k => k < s.datagrams.length
  | .network _ _ => False
  | .gatewayReceive c => ∀ m, (s.toGateway c).head? ≠ some (.keepAlive m)
  | .gatewayEnd c _ => Registered s.gateway c
  | _ => True

theorem work_own_le {a : Events.Step} (hown : ownStep a = true) (hasked : asked (.act i a) = false)
    (hdoes : ¬ Does s (.act i a)) (v : Level) :
    work fmt name address server (s.setHub address i (Events.step fmt (s.hub i) a)) v ≤
      work fmt name address server s v := by
  have hquiet : ∀ {h : HubManager}, Silent (s.hub i) h → Senders.Sends (s.hub i) h [] →
      todo fmt name address h v ≤ todo fmt name address (s.hub i) v →
        work fmt name address server (s.setHub address i h) v ≤ work fmt name address server s v := by
    intro h hsilent hsends htodo
    have hputs : Puts (fun _ => False) (s.hub i) h [] := ⟨hsilent, hsends⟩
    refine work_setHub_le (fun m hm => (hsilent.sentTCP hm).elim) (fun d hd => ?_) htodo
    exact absurd (hputs.datagrams hd).2 (List.not_mem_nil)
  cases a with
  | receive message protocol endpoint => cases hown
  | connectGateway serverEndpoint localEndPoint => cases hown
  | connectToClient r => cases hasked
  | connectedGateway => cases hasked
  | advance t =>
    have hnone : (s.hub i).advance t = none := Option.not_isSome_iff_eq_none.mp hdoes
    rw [Events.step, hnone]
    exact hquiet (writes_none rfl) (Senders.sends_none rfl rfl) (le_refl _)
  | refusedGateway serverEndpoint =>
    exact hquiet (writes_publish ..) (Senders.sends_publish ..) (todo_rests (rests_of_eq rfl rfl) v).le
  | disconnectedGateway =>
    refine hquiet (writes_disconnectedGateway _) (Senders.sends_disconnectedGateway _) ?_
    rw [Events.step, HubManager.disconnectedGateway]
    split
    · exact todo_le (Nat.zero_le _) fun _ => le_refl _
    · exact le_refl _
  | network connected writeFails =>
    exact hquiet (writes_none rfl) (Senders.sends_none rfl rfl) (todo_rests (rests_of_eq rfl rfl) v).le

/-- **A step that does something** leaves less to do, unless a user asks for it. -/
theorem less_step {s' : State ι} (hs : Sane name address server s) (hinj : Function.Injective name)
    (haddress : ∀ i, address i ≠ server) {l : Label ι} (hasked : asked l = false) (hdoes : Does s l)
    (hstep : step fmt address server s l = some s') :
    Less (work fmt name address server s') (work fmt name address server s) := by
  cases stepped hstep with
  | connect i localEndPoint => cases hasked
  | @act i a hown =>
    cases a with
    | advance t =>
      obtain ⟨h, hadvance⟩ := Option.isSome_iff_exists.mp hdoes
      rw [Events.step, hadvance, Option.getD_some]
      exact less_advance hs hadvance
    | _ => exact hdoes.elim
  | send i _ => exact hdoes.elim
  | receive hlink hq _ => exact less_receive hs hlink hq
  | @datagram i k d hd htarget _ =>
    obtain ⟨source, target, message⟩ := d
    obtain rfl : target = address i := htarget
    exact less_datagram hs hinj haddress hd
  | lose k => exact less_lose hdoes
  | network lost writeFails => exact hdoes.elim
  | @gatewayDatagram k d hd htarget =>
    obtain ⟨source, target, message⟩ := d
    obtain rfl : target = server := htarget
    exact less_gatewayDatagram hd
  | gatewayHandle htaken => exact less_gatewayHandle hs htaken
  | @gatewayReceive c message rest hq _ =>
    obtain ⟨a, ha⟩ : ∃ a, upLevel message = some a := by
      cases message with
      | keepAlive m => exact absurd (by rw [hq]; rfl) (hdoes m)
      | _ => exact ⟨_, rfl⟩
    exact less_gatewayReceive hs hq ha
  | gatewayEnd c e => exact less_gatewayEnd e hdoes

theorem work_keepAlive (m : KeepAliveMessage) (v : Level) :
    work fmt name address server (s.setHub address i ((s.hub i).sendMessageTCP (.keepAlive m))) v ≤
      work fmt name address server s v := by
  have hputs := puts_sendMessageTCP (.keepAlive m) (s.hub i)
  have hrests : Rests (s.hub i) ((s.hub i).sendMessageTCP (.keepAlive m)) := by
    rw [HubManager.sendMessageTCP]
    split
    · exact rests_of_eq rfl rfl
    · exact .refl _
  refine work_setHub_le (fun m' hm' heq => ?_) (fun d hd => ?_) (todo_rests hrests v).le
  · rw [hputs.writes.sentTCP hm'] at heq
    cases heq
  · exact absurd (hputs.datagrams hd).2 List.not_mem_nil

omit [Fintype ι] [DecidableEq ι] in
theorem step_keepAlive {c : TcpClient} {g : GatewayManager} (hconn : g.connected c = true)
    (m : KeepAliveMessage) :
    Gateway.step fmt g (.tcp c (.ok (some (.keepAlive m)))) = g := by
  rw [Gateway.step, if_pos hconn, tcpRound, attempt, dispatch, process_gatewayMaps]
  rfl

/-- **A step that does nothing** makes nothing to do. -/
theorem work_step_le {s' : State ι} (hu : ∀ c, s.opened.length ≤ c → s.toGateway c = []) {l : Label ι}
    (hasked : asked l = false) (hdoes : ¬ Does s l)
    (hstep : step fmt address server s l = some s') (v : Level) :
    work fmt name address server s' v ≤ work fmt name address server s v := by
  cases stepped hstep with
  | connect i localEndPoint => cases hasked
  | act i hown => exact work_own_le hown hasked hdoes v
  | @send i message _ =>
    cases message with
    | keepAlive m => exact work_keepAlive m v
    | _ => cases hasked
  | lose k => rw [List.eraseIdx_of_length_le (Nat.le_of_not_lt hdoes)]
  | network lost writeFails => exact le_refl _
  | @gatewayReceive c message rest hq hconn =>
    obtain ⟨m, hm⟩ : ∃ m, (s.toGateway c).head? = some (.keepAlive m) := by
      by_contra hnone
      exact hdoes fun m hm => hnone ⟨m, hm⟩
    rw [hq] at hm
    obtain rfl : message = .keepAlive m := Option.some.inj hm
    have hc : c < s.opened.length := by
      by_contra hnot
      rw [hu c (Nat.le_of_not_lt hnot)] at hq
      cases hq
    rw [step_keepAlive hconn, ← work_takeUp hc hq v]
    exact (work_setGateway_silent rfl rfl v).trans (Nat.le_add_right ..)
  | gatewayEnd c e =>
    rw [step_tcp_error, disconnect_unregistered hdoes]
    exact work_setGateway_silent rfl rfl v
  | receive _ _ _ => exact absurd trivial hdoes
  | datagram _ _ _ => exact absurd trivial hdoes
  | gatewayDatagram _ _ => exact absurd trivial hdoes
  | gatewayHandle _ => exact absurd trivial hdoes

end

/-- **The traffic dies down.** After any run, if no user asks for anything more and no hub connects, then
from some time on no message is taken, handled or lost (a keep-alive at the gateway apart), no call goes on,
and no registered client's thread ends. -/
theorem traffic_ends {ι : Type} [Fintype ι] [DecidableEq ι] (fmt : TextFormat) {address : ι → IPEndPoint}
    {server : IPEndPoint} (haddress : ∀ i, address i ≠ server) {s₀ : State ι} (hf : Fresh s₀)
    (hcalls : ∀ i, (s₀.hub i).calls = []) (hinj : Function.Injective fun i => (s₀.hub i).localHubInfo.id)
    (hheard : s₀.gateway.udpEndpoint ≠ server) {ls : List (Label ι)} {f : Nat → State ι} {a : Nat → Label ι}
    (hrun : Run (step fmt address server) s₀ ls (f 0))
    (hstep : ∀ n, step fmt address server (f n) (a n) = some (f (n + 1)))
    (hasked : ∀ n, asked (a n) = false) : ∃ n, ∀ m, n ≤ m → ¬ Does (f m) (a m) := by
  have hsane : Sane (fun i => (s₀.hub i).localHubInfo.id) address server (f 0) := by
    refine hrun.inv (P := fun _ s => Sane _ address server s) (sane_fresh hf hcalls hheard) ?_
    exact fun _ s l s' hs _ hstep => hs.step haddress hstep
  have hends : Ends (step fmt address server) (fun s l => asked l = false ∧ Does s l)
      (fun s l => asked l = false ∧ ¬ Does s l) (f 0) := by
    refine ends_of_less (work fmt (fun i => (s₀.hub i).localHubInfo.id) address server) ?_ ?_ hsane
    · exact fun s l s' hs hl hstep => ⟨hs.step haddress hstep, less_step hs hinj haddress hl.1 hl.2 hstep⟩
    · exact fun s l s' hs hl hstep => ⟨hs.step haddress hstep, work_step_le hs.unopened hl.1 hl.2 hstep⟩
  have hforever : Forever (step fmt address server) (fun s l => asked l = false ∧ Does s l)
      (fun s l => asked l = false ∧ ¬ Does s l) f a := by
    refine ⟨hstep, fun n => ?_⟩
    by_cases hdoes : Does (f n) (a n)
    · exact Or.inl ⟨hasked n, hdoes⟩
    · exact Or.inr ⟨hasked n, hdoes⟩
  obtain ⟨n, hn⟩ := hends.eventually hforever
  exact ⟨n, fun m hm hdoes => hn m hm ⟨hasked m, hdoes⟩⟩

/-! ### Two hubs that meet -/

def gate : IPEndPoint := ⟨⟨[10, 0, 5, 1], Or.inl rfl⟩, 6000⟩

/-- Both hubs connect to it; the datagram of the first is handled by then. -/
def greet : List (Label Bool) :=
  [.connect false (homes false), .gatewayDatagram 0, .gatewayHandle, .connect true (homes true),
    .act false .connectedGateway, .act true .connectedGateway]

/-- They are told of each other, probe each other and answer, and settle on where the other one is. One sends
a keep-alive meanwhile. -/
def answers : List (Label Bool) :=
  [.gatewayReceive 0, .gatewayReceive 1, .receive false, .receive false, .receive false, .receive true,
    .receive true, .datagram false 0, .gatewayDatagram 0, .gatewayHandle, .receive false, .gatewayReceive 0,
    .receive true, .receive true, .send false (.keepAlive ⟨some "b"⟩), .datagram false 0, .datagram true 0,
    .datagram true 0, .datagram true 0, .act false (.advance 0), .act false (.advance 0),
    .act false (.advance 0), .datagram true 0, .datagram false 0, .act false (.advance 0),
    .act false (.advance 0), .act false (.advance 0), .gatewayReceive 0, .act true (.advance 0),
    .act true (.advance 0), .act true (.advance 0), .datagram true 0, .datagram true 0,
    .act true (.advance 0), .act true (.advance 0), .act true (.advance 0)]

theorem traffic_ends_answers : ∃ (f : Nat → State Bool) (last : Label Bool),
    Run (step dottedText homes gate) apart greet (f 0) ∧
      (∀ n, step dottedText homes gate (f n) (answers.getD n last) = some (f (n + 1))) ∧
        ∃ n, ∀ m, n ≤ m → ¬ Does (f m) (answers.getD m last) := by
  have hgreet : (exec (step dottedText homes gate) apart greet).isSome = true := by decide +kernel
  obtain ⟨s, hs⟩ := Option.isSome_iff_exists.mp hgreet
  have hmore : (exec (step dottedText homes gate) apart (greet ++ answers)).isSome = true := by decide +kernel
  rw [exec_append, hs, Option.bind_some] at hmore
  obtain ⟨t, ht⟩ := Option.isSome_iff_exists.mp hmore
  obtain ⟨f, hf, hstep⟩ := exec_forever (b := .network (fun _ => false) t.gateway.writeFails) ht rfl
  have hrun : Run (step dottedText homes gate) apart greet (f 0) := by
    rw [hf]
    exact run_of_exec hs
  refine ⟨f, _, hrun, hstep, traffic_ends dottedText (by decide) fresh_apart (fun _ => rfl) injective_apart
    (by decide) hrun hstep fun n => ?_⟩
  by_cases hn : n < answers.length
  · rw [List.getD_eq_getElem?_getD, List.getElem?_eq_getElem hn, Option.getD_some]
    have hall : ∀ l ∈ answers, asked l = false := by decide
    exact hall _ (List.getElem_mem hn)
  · rw [List.getD_eq_getElem?_getD, List.getElem?_eq_none (Nat.le_of_not_lt hn), Option.getD_none]
    rfl

end Blockcore.Network.Links.Rest
