import Blockcore.Network.Rendezvous
import Blockcore.Network.Senders

/-!
# What is under way

The steps of `Links` are taken apart once (`Stepped`), and what a step can put on the wire is
said once: a hub writes requests and its own `HubInfo` to the gateway unless its user sends
something else (`Writes`), and sends probes, replies and its `HubInfo` as datagrams; the
gateway passes requests and broadcasts on and makes the rest itself (`Said`).

`Base.step` and `Wire.step` are what every run keeps, whatever is lost or fails: whose clients are
whose, and what kind of message is under way where.
-/

namespace Blockcore.Network.Links

open Lib Networking Gateway Hub
open Senders (senderId sends_log sends_none sends_learn)
open Learning (datagrams)

/-! ### Steps, taken apart -/

section

variable {ι : Type} [DecidableEq ι] (fmt : TextFormat) (address : ι → IPEndPoint) (server : IPEndPoint)

/-- What a step is, label by label. -/
inductive Stepped (s : State ι) : Label ι → State ι → Prop where
  | connect (i : ι) (localEndPoint : Option IPEndPoint) : Stepped s (.connect i localEndPoint)
      ((s.accept i).setHub address i ((s.hub i).connectGateway fmt server localEndPoint))
  | act (i : ι) {a : Events.Step} (hown : ownStep a = true) :
      Stepped s (.act i a) (s.setHub address i (Events.step fmt (s.hub i) a))
  | send (i : ι) {message : BaseMessage} (hinfo : message.getType ≠ .HubInfoMessage) :
      Stepped s (.send i message) (s.setHub address i ((s.hub i).sendMessageTCP message))
  | receive {i : ι} {c : TcpClient} {message : BaseMessage} {rest : List BaseMessage}
      (hlink : s.link i = some c) (hq : s.toHub c = message :: rest)
      (hlistening : (s.hub i).listening .Tcp = true) :
      Stepped s (.receive i) (State.setHub address { s with toHub := Function.update s.toHub c rest } i
        ((s.hub i).listen fmt (.ok (some message)) .Tcp none))
  | datagram {i : ι} {k : Nat} {d : Datagram} (hd : s.datagrams[k]? = some d)
      (htarget : d.target = address i) (hlistening : (s.hub i).listening .Udp = true) :
      Stepped s (.datagram i k) (State.setHub address { s with datagrams := s.datagrams.eraseIdx k } i
        ((s.hub i).listen fmt (.ok (some d.message)) .Udp (some d.source)))
  | lose (k : Nat) : Stepped s (.lose k) { s with datagrams := s.datagrams.eraseIdx k }
  | network (lost writeFails : TcpClient → Bool) : Stepped s (.network lost writeFails)
      { s with gateway := { s.gateway with
          socket := fun c => if lost c && s.gateway.connected c then .lost else s.gateway.socket c
          writeFails := writeFails } }
  | gatewayDatagram {k : Nat} {d : Datagram} (hd : s.datagrams[k]? = some d) (htarget : d.target = server) :
      Stepped s (.gatewayDatagram k) (State.setGateway server
        { s with datagrams := s.datagrams.eraseIdx k, taken := some d.message }
        (Gateway.step fmt s.gateway (.receive d.source)))
  | gatewayHandle {message : BaseMessage} (htaken : s.taken = some message) :
      Stepped s .gatewayHandle (State.setGateway server { s with taken := none }
        (Gateway.step fmt s.gateway (.udp (.ok (some message)))))
  | gatewayReceive {c : TcpClient} {message : BaseMessage} {rest : List BaseMessage}
      (hq : s.toGateway c = message :: rest) (hconn : s.gateway.connected c = true) :
      Stepped s (.gatewayReceive c) (State.setGateway server
        { s with toGateway := Function.update s.toGateway c rest }
        (Gateway.step fmt s.gateway (.tcp c (.ok (some message)))))
  | gatewayEnd (c : TcpClient) (e : Exception) : Stepped s (.gatewayEnd c e)
      (s.setGateway server (Gateway.step fmt s.gateway (.tcp c (.error e))))

variable {fmt address server}

variable (address) in
theorem setHub_toGateway {s : State ι} {i : ι} {c : TcpClient} (hlink : s.link i = some c) (h : HubManager) :
    (s.setHub address i h).toGateway =
      Function.update s.toGateway c (s.toGateway c ++ sentTCP (reaction (s.hub i) h)) := by
  funext d
  show (if s.link i = some d then _ else _) = _
  rw [Function.update_apply, hlink]
  by_cases hd : d = c
  · rw [if_pos hd, if_pos (congrArg some hd.symm), hd]
  · rw [if_neg hd, if_neg fun h => hd (Option.some.inj h).symm]

variable (address) in
theorem setHub_toGateway_none {s : State ι} {i : ι} (hlink : s.link i = none) (h : HubManager) :
    (s.setHub address i h).toGateway = s.toGateway := by
  funext d
  show (if s.link i = some d then _ else _) = _
  rw [hlink, if_neg (by simp)]

theorem stepped {s s' : State ι} {l : Label ι} (hs : step fmt address server s l = some s') :
    Stepped fmt address server s l s' := by
  cases l with
  | connect i localEndPoint =>
    cases hs
    exact .connect i localEndPoint
  | act i a =>
    rw [step] at hs
    split at hs
    · next hown =>
      cases hs
      exact .act i hown
    · cases hs
  | send i message =>
    rw [step] at hs
    split at hs
    · cases hs
    · next hinfo =>
      cases hs
      exact .send i hinfo
  | receive i =>
    rw [step] at hs
    split at hs
    · cases hs
    · next c hlink =>
      split at hs
      · cases hs
      · next message rest hq =>
        split at hs
        · next hlistening =>
          cases hs
          exact .receive hlink hq hlistening
        · cases hs
  | datagram i k =>
    rw [step] at hs
    split at hs
    · cases hs
    · next d hd =>
      split at hs
      · next hmay =>
        cases hs
        exact .datagram hd hmay.1 hmay.2
      · cases hs
  | lose k =>
    cases hs
    exact .lose k
  | network lost writeFails =>
    cases hs
    exact .network lost writeFails
  | gatewayDatagram k =>
    rw [step] at hs
    split at hs
    · cases hs
    · next d hd =>
      split at hs
      · next hmay =>
        cases hs
        exact .gatewayDatagram hd hmay.1
      · cases hs
  | gatewayHandle =>
    rw [step] at hs
    split at hs
    · cases hs
    · next message htaken =>
      cases hs
      exact .gatewayHandle htaken
  | gatewayReceive c =>
    rw [step] at hs
    split at hs
    · cases hs
    · next message rest hq =>
      split at hs
      · next hconn =>
        cases hs
        exact .gatewayReceive hq hconn
      · cases hs
  | gatewayEnd c e =>
    cases hs
    exact .gatewayEnd c e

end

/-! ### What a hub writes to the gateway -/

/-- The hub went on, and every message it wrote to the gateway is of this kind. -/
def Writes (P : BaseMessage → Prop) (h h' : HubManager) : Prop :=
  ∃ new, h'.acts = h.acts ++ new ∧ ∀ m, .sendTCP m ∈ new → P m

def request : BaseMessage → Prop
  | .req _ => True
  | _ => False

/-- A request, or a `HubInfo`. -/
def requestOrInfo : BaseMessage → Prop
  | .req _ => True
  | .info _ => True
  | _ => False

section

variable {fmt : TextFormat} {P : BaseMessage → Prop} {h h' h'' : HubManager}

theorem Writes.trans (h₁ : Writes P h h') (h₂ : Writes P h' h'') : Writes P h h'' := by
  obtain ⟨new, hnew, hP⟩ := h₁
  obtain ⟨more, hmore, hP'⟩ := h₂
  refine ⟨new ++ more, by rw [hmore, hnew, List.append_assoc], fun m hm => ?_⟩
  rcases List.mem_append.mp hm with hm | hm
  · exact hP m hm
  · exact hP' m hm

theorem Writes.mono {Q : BaseMessage → Prop} (hw : Writes P h h') (hPQ : ∀ m, P m → Q m) : Writes Q h h' := by
  obtain ⟨new, hnew, hP⟩ := hw
  exact ⟨new, hnew, fun m hm => hPQ m (hP m hm)⟩

theorem requestOrInfo_of_request (m : BaseMessage) (hm : request m) : requestOrInfo m := by
  cases m <;> trivial

theorem writes_of (acts : List Act) (hacts : h'.acts = h.acts ++ acts)
    (hP : ∀ m, .sendTCP m ∈ acts → P m) : Writes P h h' := ⟨acts, hacts, hP⟩

theorem writes_none (hacts : h'.acts = h.acts) : Writes P h h' :=
  writes_of [] (by rw [hacts, List.append_nil]) fun m hm => by cases hm

theorem writes_publish (h : HubManager) (event : BaseEvent) : Writes P h (h.publish event) :=
  writes_of [.publish event] rfl fun m hm => by simp at hm

theorem writes_sendMessageTCP {message : BaseMessage} (hm : P message) (h : HubManager) :
    Writes P h (h.sendMessageTCP message) := by
  rw [HubManager.sendMessageTCP]
  split
  · refine writes_of [.sendTCP message] rfl fun m hmem => ?_
    rw [List.mem_singleton] at hmem
    cases hmem
    exact hm
  · exact writes_none rfl

theorem sentTCP_sendMessageTCP (message : BaseMessage) (h : HubManager) :
    sentTCP (reaction h (h.sendMessageTCP message)) =
      if h.connected && !h.writeFails then [message] else [] := by
  rw [HubManager.sendMessageTCP]
  split
  · have hreaction : reaction h (h.log [.sendTCP message]) = [.sendTCP message] := reaction_eq rfl
    rw [hreaction]
    rfl
  · have hreaction : reaction h h = [] := reaction_eq (List.append_nil _).symm
    rw [hreaction]
    rfl

theorem writes_effect (he : Effect h h') : Writes request h h' := by
  cases he with
  | publish _ => exact writes_publish h _
  | sendMessageUDP entity endpoint =>
    exact writes_of [.sendUDP entity.toMessage endpoint] rfl fun m hm => by simp at hm
  | findReachableEndpoint caller r =>
    exact writes_of [.findReachableEndpoint (h.hubInfo r)] rfl fun m hm => by simp at hm
  | connectToClient r =>
    have hreq : request (Req.new h.localHubInfo.id (h.hubInfo r).id).toMessage := trivial
    have hsent := writes_sendMessageTCP hreq h
    exact hsent.trans (writes_of [.findReachableEndpoint _] rfl fun m hm => by simp at hm)
  | store _ => exact writes_none rfl
  | inside _ _ ha => exact writes_none ha

theorem writes_effects (he : Effects h h') : Writes request h h' := by
  induction he with
  | refl => exact writes_none rfl
  | tail _ he ih => exact ih.trans (writes_effect he)

theorem writes_disconnectedGateway (h : HubManager) : Writes P h h.disconnectedGateway.state := by
  rw [HubManager.disconnectedGateway]
  split <;> exact writes_none rfl

/-- **A listener** writes requests. -/
theorem asks_listen (fmt : TextFormat) (m : BaseMessage) (protocol : ProtocolType)
    (endpoint : Option IPEndPoint) (h : HubManager) :
    Writes request h (h.listen fmt (.ok (some m)) protocol endpoint) := by
  have hhandles := handles_listen fmt m protocol endpoint h
  generalize h.listen fmt (.ok (some m)) protocol endpoint = h' at hhandles
  cases hhandles with
  | effects _ he => exact writes_effects he
  | added _ _ => exact writes_of [.publish (.connectionAdded _)] rfl fun m hm => by simp at hm
  | removed _ _ _ => exact writes_of [.publish (.connectionRemoved _)] rfl fun m hm => by simp at hm
  | cleared _ _ => exact (writes_disconnectedGateway h).trans (writes_publish ..)

theorem writes_listen (fmt : TextFormat) (m : BaseMessage) (protocol : ProtocolType)
    (endpoint : Option IPEndPoint) (h : HubManager) :
    Writes requestOrInfo h (h.listen fmt (.ok (some m)) protocol endpoint) :=
  (asks_listen fmt m protocol endpoint h).mono requestOrInfo_of_request

/-- **What it does on its own**: it writes requests and its `HubInfo`. -/
theorem writes_own {a : Events.Step} (hown : ownStep a = true) (h : HubManager) :
    Writes requestOrInfo h (Events.step fmt h a) := by
  cases a with
  | receive message protocol endpoint => cases hown
  | advance t =>
    rw [Events.step]
    cases hs : h.advance t with
    | none => exact writes_none rfl
    | some h' => exact (writes_effects (effects_advance hs)).mono requestOrInfo_of_request
  | connectToClient r => exact (writes_effect (.connectToClient r)).mono requestOrInfo_of_request
  | connectGateway serverEndpoint localEndPoint => cases hown
  | connectedGateway =>
    have hinfo : requestOrInfo (h.localHubInfo.toMessage fmt) := trivial
    exact (writes_sendMessageTCP hinfo h).trans (writes_publish ..)
  | refusedGateway serverEndpoint => exact writes_publish ..
  | disconnectedGateway => exact writes_disconnectedGateway h
  | network connected writeFails => exact writes_none rfl

theorem writes_connectGateway (fmt : TextFormat) (serverEndpoint : IPEndPoint) (localEndPoint : Option IPEndPoint) (h : HubManager) :
    Writes P h (h.connectGateway fmt serverEndpoint localEndPoint) :=
  writes_of [.sendUDP (h.localHubInfo.simplified.toMessage fmt) serverEndpoint] rfl
    fun m hm => by simp at hm

theorem Writes.sentTCP (hw : Writes P h h') {m : BaseMessage} (hm : m ∈ sentTCP (reaction h h')) : P m := by
  obtain ⟨new, hnew, hP⟩ := hw
  rw [reaction_eq hnew, mem_sentTCP] at hm
  exact hP m hm

end

/-! ### The datagrams a hub sends -/

/-- The reply of a hub of this id to a request. -/
def replyTo (msg : AckMessage) (id : Option String) : BaseMessage :=
  .ack { id := msg.id, recipientId := id, response := true }

section

variable {fmt : TextFormat} {h h' : HubManager}

/-- **A call** sends a probe, if anything. -/
theorem probes_advance {t : Nat} (hs : h.advance t = some h') : ∃ new, Senders.Sends h h' new ∧
    ∀ d ∈ new, d.1 = (Ack.new h.localHubInfo.id).toMessage := by
  obtain ⟨pc, rfl | ⟨endpoint, rfl⟩ | ⟨r, type, response, rfl⟩ | ⟨call, endpoint, _, rfl⟩⟩ :=
    HubManager.advance_effects hs
  · exact ⟨[], sends_none rfl rfl, by simp⟩
  · refine ⟨[((Ack.new h.localHubInfo.id).toMessage, endpoint)], ?_, by simp⟩
    have hsent := Senders.sends_sendMessageUDP h (.ack (Ack.new h.localHubInfo.id)) endpoint
    exact hsent.trans (sends_none rfl rfl)
  · exact ⟨[], sends_none rfl rfl, by simp⟩
  · have hresume : Senders.Sends h (h.resume call endpoint) [] := by
      rw [HubManager.resume]
      split
      · exact Senders.sends_publish ..
      · exact (Senders.sends_publish ..).trans (Senders.sends_publishUpdated ..)
    exact ⟨[], hresume.trans (sends_none rfl rfl), by simp⟩

/-- **A listener** sends nothing but the reply to a request, to where that came from. -/
theorem replies_listen (fmt : TextFormat) (m : BaseMessage) (protocol : ProtocolType)
    (endpoint : Option IPEndPoint) (h : HubManager) :
    ∃ new, Senders.Sends h (h.listen fmt (.ok (some m)) protocol endpoint) new ∧
      ∀ d ∈ new, ∃ msg source, m = .ack msg ∧ msg.response = false ∧ endpoint = some source ∧
        d = (replyTo msg h.localHubInfo.id, source) := by
  by_cases hack : ∃ msg, m = .ack msg
  · obtain ⟨msg, rfl⟩ := hack
    rw [HubManager.listen_some, process_hubMaps]
    simp only
    rw [processAck]
    split
    · exact ⟨[], sends_none rfl rfl, by simp⟩
    · next hasks =>
      split
      · exact ⟨[], sends_none rfl rfl, by simp⟩
      · next r _ =>
        split
        · next known source _ =>
          have hlearn : Senders.Sends h (learnAddress fmt r known source (learnPort r known source h)) [] :=
            sends_learn h r known source
          refine ⟨_, hlearn.trans (Senders.sends_sendMessageUDP ..), fun d hd => ?_⟩
          refine ⟨msg, source, rfl, by simpa using hasks, rfl, ?_⟩
          rw [List.nil_append, List.mem_singleton] at hd
          rw [hd, hlearn.id]
          rfl
        · exact ⟨[], sends_none rfl rfl, by simp⟩
  · obtain ⟨new, hnew, _, hiff⟩ := Senders.sends_listen fmt m protocol endpoint h
    refine ⟨new, hnew, fun d hd => ?_⟩
    obtain ⟨msg, hm, _⟩ := hiff.mp (List.ne_nil_of_mem hd)
    exact absurd ⟨msg, hm⟩ hack

/-- **What it does on its own**: it sends probes. -/
theorem probes_own {a : Events.Step} (hown : ownStep a = true) (h : HubManager) :
    ∃ new, Senders.Sends h (Events.step fmt h a) new ∧
      ∀ d ∈ new, d.1 = (Ack.new h.localHubInfo.id).toMessage := by
  cases a with
  | receive message protocol endpoint => cases hown
  | advance t =>
    rw [Events.step]
    cases hs : h.advance t with
    | none => exact ⟨[], sends_none rfl rfl, by simp⟩
    | some h' => exact probes_advance hs
  | connectToClient r => exact ⟨[], Senders.sends_connectToClient h r, by simp⟩
  | connectGateway serverEndpoint localEndPoint => cases hown
  | connectedGateway =>
    exact ⟨[], (Senders.sends_sendMessageTCP ..).trans (Senders.sends_publish ..), by simp⟩
  | refusedGateway serverEndpoint => exact ⟨[], Senders.sends_publish .., by simp⟩
  | disconnectedGateway => exact ⟨[], Senders.sends_disconnectedGateway h, by simp⟩
  | network connected writeFails => exact ⟨[], sends_none rfl rfl, by simp⟩

end

/-! ### What the gateway sends -/

/-- What the gateway sends on a message: hubs, tests and notifications of its own; a request or
a broadcast only if that is the message. -/
inductive Said (message : Option BaseMessage) : Sent → Prop where
  | info (c : TcpClient) (m : HubInfoMessage) : Said message (.tcp c (.info m))
  | msg (c : TcpClient) (m : MessageMessage) : Said message (.tcp c (.msg m))
  | notification (c : TcpClient) (n : NotificationMessage) : Said message (.tcp c (.notification n))
  | req (c : TcpClient) {m : ReqMessage} (hm : message = some (.req m)) : Said message (.tcp c (.req m))
  | broadcast (c : TcpClient) {m : BroadcastMessage} (hm : message = some (.broadcast m)) :
    Said message (.tcp c (.broadcast m))
  | infoDatagram (e : IPEndPoint) (m : HubInfoMessage) : Said message (.udp e (.info m))
  | msgDatagram (e : IPEndPoint) (m : MessageMessage) : Said message (.udp e (.msg m))

/-- The gateway went on, and this is what it sent. -/
def Says (P : Sent → Prop) (g g' : GatewayManager) : Prop :=
  ∃ new, g'.sent = g.sent ++ new ∧ ∀ s ∈ new, P s

section

variable {fmt : TextFormat} {P : Sent → Prop} {g g' g'' : GatewayManager} {message : Option BaseMessage}

theorem Says.refl (g : GatewayManager) : Says P g g := ⟨[], by simp, by simp⟩

theorem Says.silent (h : Says P g g') (he : g''.sent = g'.sent) : Says P g g'' := by
  obtain ⟨new, hnew, hP⟩ := h
  exact ⟨new, he.trans hnew, hP⟩

theorem Says.log (h : Says P g g') {sent : List Sent} (hs : ∀ s ∈ sent, P s) :
    Says P g (g'.log sent) := by
  obtain ⟨new, hnew, hP⟩ := h
  refine ⟨new ++ sent, by rw [GatewayManager.log_sent, hnew, List.append_assoc], fun s hmem => ?_⟩
  rcases List.mem_append.mp hmem with hmem | hmem
  · exact hP s hmem
  · exact hs s hmem

theorem Says.drop (h : Says P g g') {s : Sent} (hs : s ∈ g'.sent.drop g.sent.length) : P s := by
  obtain ⟨new, hnew, hP⟩ := h
  rw [hnew, List.drop_left] at hs
  exact hP s hs

theorem Says.disconnect (h : Says (Said message) g g') (client : TcpClient) :
    Says (Said message) g (g'.disconnect client).state := by
  unfold GatewayManager.disconnect
  split
  · exact h
  · dsimp only
    split
    · exact h.silent rfl
    · rw [GatewayManager.broadcastTCP_state]
      refine Says.log (h.silent rfl) fun s hs => ?_
      obtain ⟨c, _, rfl⟩ := List.mem_map.mp hs
      exact .notification c _

variable (fmt) in
/-- **Any message** makes the gateway send no more than that. -/
theorem says_attempt (message : Except Exception (Option BaseMessage)) (protocol : ProtocolType)
    (endpoint : Option IPEndPoint) (client : Option TcpClient) (g : GatewayManager) :
    Says (Said (message.toOption.getD none)) g
      (attempt fmt message protocol endpoint client g).state := by
  rcases message with e | _ | message
  · exact .refl g
  · exact .refl g
  · rw [attempt, dispatch, process_gatewayMaps]
    cases message with
    | info m =>
      refine processInfo_inv (P := Says _ g) (fun g₁ sent h₁ hs => h₁.log fun s hmem => ?_)
        (fun g₁ connections h₁ => h₁.silent rfl) (Says.refl g)
      obtain ⟨x, hx⟩ := hs s hmem
      cases hx with
      | hub c => exact .info c _
      | tcpTest c text => exact .msg c _
      | udpTest text => exact .msgDatagram _ _
      | introduction _ => exact .infoDatagram _ _
    | broadcast m =>
      simp only [processBroadcast]
      split
      · rw [GatewayManager.sendAll_state]
        refine (Says.refl g).log fun s hs => ?_
        obtain ⟨c, _, rfl⟩ := List.mem_map.mp hs
        exact .broadcast c rfl
      · exact .refl g
    | req m =>
      simp only [Gateway.processReq]
      split
      · exact .refl g
      · next x _ _ =>
        obtain ⟨cs, hcs⟩ := GatewayManager.sendTCP_state (Req.ofMessage m).toMessage x.client g
        rw [hcs]
        refine (Says.refl g).log fun s hs => ?_
        obtain ⟨c, _, rfl⟩ := List.mem_map.mp hs
        exact .req c rfl
    | msg m =>
      simp only [logPeer_state]
      exact .refl g
    | _ => exact .refl g

variable (fmt) in
theorem says_step (e : Gateway.Event) (g : GatewayManager) :
    Says (Said (Network.taken e)) g (Gateway.step fmt g e) := by
  cases e with
  | receive source => exact (Says.refl g).silent rfl
  | udp message =>
    rw [step_udp]
    exact says_attempt ..
  | tcp client message =>
    exact step_tcp_inv fmt (fun _ => says_attempt fmt message .Tcp none (some client) g)
      (fun g' h => h.disconnect client) (Says.refl g)

end

/-! ### What every run keeps -/

section

variable {ι : Type} {name : ι → Option String} {opened : List ι} {fmt : TextFormat} {g : GatewayManager}
  {c : TcpClient} {message : Except Exception (Option BaseMessage)}

/-- **`Disconnect`** leaves the clients whose they are, whoever cannot be told. -/
theorem Tidy.disconnect (ht : Tidy name opened g) (c : TcpClient) :
    Tidy name opened (g.disconnect c).state := by
  have hsub := disconnect_sublist c g
  refine ⟨(hsub.map _).nodup ht.nodup, fun x hx d hd => ht.owned x (hsub.subset hx) d hd, fun d hd => ?_⟩
  obtain ⟨x, hx, hxd⟩ := hd
  have hreg : Registered g d := ⟨x, hsub.subset hx, hxd⟩
  by_cases hc : Registered g c
  · obtain ⟨as, hubInfo, bs, hcut, heq⟩ := disconnect_eq hc
    have hl : g.connections = as ++ hubInfo :: bs := hcut.eq
    rw [if_neg (ht.alive c hc)] at heq
    rw [heq, GatewayManager.broadcastTCP_state] at hx ⊢
    have hx : x ∈ as ++ bs := hx
    have hne : d ≠ c := by
      rintro rfl
      -- two entries under one client would be of one id
      have hid : x.id = hubInfo.id := (ht.owned x (hcut.sublist.subset hx) d hxd).unique
        (ht.owned hubInfo (by simp [hl]) d (hcut.key_found hubInfo rfl))
      have hnodup := ht.nodup
      rw [ids, hl, List.map_append, List.map_cons, List.nodup_middle, List.nodup_cons] at hnodup
      rw [← hid, ← List.map_append] at hnodup
      exact hnodup.1 (List.mem_map_of_mem hx)
    show Function.update g.socket c .closed d ≠ .closed
    rw [Function.update_of_ne hne]
    exact ht.alive d hreg
  · rw [disconnect_unregistered hc]
    exact ht.alive d hreg

variable (fmt) in
/-- **A step of a client's thread** does, too. -/
theorem Tidy.tcp (ht : Tidy name opened g)
    (hown : ∀ m, message = .ok (some (.info m)) → Owns name opened c m.id) :
    Tidy name opened (Gateway.step fmt g (.tcp c message)) := by
  refine step_tcp_inv (P := Tidy name opened) fmt (fun hconn => ?_) (fun g' h => h.disconnect c) ht
  have hpeer := GatewayManager.open_of_connected hconn
  have he : Entered message (some c) g (attempt fmt message .Tcp none (some c) g).state :=
    entered_attempt .Tcp none hpeer
  refine ht.entered he hpeer fun d m hd hm => ?_
  rw [← Option.some.inj hd]
  exact hown m hm

end

section

variable {ι : Type} {name : ι → Option String} {fmt : TextFormat} {address : ι → IPEndPoint}
  {server : IPEndPoint} {s s' : State ι}

theorem Base.setGateway (hb : Base name s) {g : GatewayManager} (htidy : Tidy name s.opened g) :
    Base name (s.setGateway server g) :=
  ⟨hb.id, hb.sound, hb.link, hb.infos, htidy⟩

variable [DecidableEq ι]

theorem Base.accept (hb : Base name s) (i : ι) : Base name (s.accept i) := by
  have hopened : ∀ {c : TcpClient} {j : ι}, s.opened[c]? = some j → (s.opened ++ [i])[c]? = some j := by
    intro c j hj
    rw [List.getElem?_append_left (List.getElem?_eq_some_iff.mp hj).1]
    exact hj
  have howns : ∀ c x, Owns name s.opened c x → Owns name (s.opened ++ [i]) c x := by
    rintro c x ⟨j, hj, hx⟩
    exact ⟨j, hopened hj, hx⟩
  refine ⟨hb.id, hb.sound, fun j c hj => ?_, fun c m hm => howns c _ (hb.infos c m hm), hb.tidy.nodup,
    fun x hx c hc => howns c _ (hb.tidy.owned x hx c hc), fun c hc => ?_⟩
  · change Function.update s.link i (some s.opened.length) j = some c at hj
    by_cases hji : j = i
    · subst hji
      rw [Function.update_self] at hj
      rw [← Option.some.inj hj]
      exact List.getElem?_concat_length
    · rw [Function.update_of_ne hji] at hj
      exact hopened (hb.link j c hj)
  · show Function.update s.gateway.socket s.opened.length .connected c ≠ .closed
    by_cases hne : c = s.opened.length
    · rw [hne, Function.update_self]
      simp
    · rw [Function.update_of_ne hne]
      exact hb.tidy.alive c hc

/-- **Every step** leaves the hubs who they are and the clients whose they are. -/
theorem Base.step (hb : Base name s) {l : Label ι} (hs : step fmt address server s l = some s') :
    Base name s' := by
  have htoHub : ∀ toHub datagrams taken, Base name
      { s with toHub := toHub, datagrams := datagrams, taken := taken } :=
    fun _ _ _ => ⟨hb.id, hb.sound, hb.link, hb.infos, hb.tidy⟩
  cases stepped hs with
  | connect i localEndPoint => exact (hb.accept i).setHub (plain_connectGateway ..).toGoes
  | act i hown => exact hb.setHub (goes_step fmt hown (s.hub i)).1
  | send i hinfo =>
    refine hb.setHub (plain_sendMessageTCP fun m hm => absurd ?_ hinfo).toGoes
    rw [hm]
    rfl
  | @receive i c message rest _ _ _ =>
    exact (htoHub _ s.datagrams s.taken).setHub (took_listen fmt message .Tcp none (s.hub i)).toGoes
  | @datagram i k d _ _ _ =>
    exact (htoHub s.toHub _ s.taken).setHub (took_listen fmt d.message .Udp (some d.source) (s.hub i)).toGoes
  | lose k => exact htoHub s.toHub _ s.taken
  | network lost writeFails =>
    refine ⟨hb.id, hb.sound, hb.link, hb.infos, hb.tidy.nodup, hb.tidy.owned, fun c hc hclosed => ?_⟩
    simp only at hclosed
    split at hclosed
    · cases hclosed
    · exact hb.tidy.alive c hc hclosed
  | gatewayDatagram hd =>
    exact (htoHub s.toHub _ _).setGateway ⟨hb.tidy.nodup, hb.tidy.owned, hb.tidy.alive⟩
  | @gatewayHandle message _ =>
    have hnone : ∀ c ∈ (none : Option TcpClient), s.gateway.socket c ≠ .closed := fun c hc => by cases hc
    rw [step_udp]
    exact (htoHub s.toHub s.datagrams none).setGateway
      (hb.tidy.entered (entered_attempt .Udp _ hnone) hnone fun c m hc => by cases hc)
  | @gatewayReceive c message rest hq hconn =>
    have hbase : Base name { s with toGateway := Function.update s.toGateway c rest } :=
      ⟨hb.id, hb.sound, hb.link, fun d m hm => hb.infos d m (mem_of_update hq hm), hb.tidy⟩
    refine hbase.setGateway (hb.tidy.tcp fmt fun m hm => ?_)
    refine hb.infos c m ?_
    rw [hq, Option.some.inj (Except.ok.inj hm)]
    exact List.mem_cons_self ..
  | gatewayEnd c e => exact hb.setGateway (hb.tidy.tcp fmt fun m hm => by cases hm)

theorem unopened_setHub (hb : Base name s) (hu : ∀ c, s.opened.length ≤ c → s.toGateway c = []) {k : ι}
    {h : HubManager} (c : TcpClient) (hc : s.opened.length ≤ c) :
    (s.setHub address k h).toGateway c = [] := by
  show (if s.link k = some c then _ else _) = _
  rw [if_neg]
  · exact hu c hc
  · intro hlink
    have hopened := hb.link k c hlink
    rw [List.getElem?_eq_none hc] at hopened
    cases hopened

/-- Nothing is under way on a client that was not opened. -/
theorem unopened_step (hb : Base name s) (hu : ∀ c, s.opened.length ≤ c → s.toGateway c = []) {l : Label ι}
    (hs : step fmt address server s l = some s') : ∀ c, s'.opened.length ≤ c → s'.toGateway c = [] := by
  cases stepped hs with
  | connect k localEndPoint =>
    refine unopened_setHub (hb.accept k) fun c hc => hu c ?_
    have hlen : (s.accept k).opened.length = s.opened.length + 1 := by simp [State.accept]
    omega
  | act k hown => exact unopened_setHub hb hu
  | send k hinfo => exact unopened_setHub hb hu
  | @receive k c message rest hlink hq hlistening =>
    have hb' : Base name { s with toHub := Function.update s.toHub c rest } :=
      ⟨hb.id, hb.sound, hb.link, hb.infos, hb.tidy⟩
    exact unopened_setHub hb' hu
  | @datagram k n d hd htarget hlistening =>
    have hb' : Base name { s with datagrams := s.datagrams.eraseIdx n } :=
      ⟨hb.id, hb.sound, hb.link, hb.infos, hb.tidy⟩
    exact unopened_setHub hb' hu
  | @gatewayReceive c message rest hq hconn =>
    intro d hd
    show Function.update s.toGateway c rest d = []
    have hne : d ≠ c := by
      rintro rfl
      rw [hu d hd] at hq
      cases hq
    rw [Function.update_of_ne hne]
    exact hu d hd
  | _ => exact hu

def fromGateway : BaseMessage → Prop
  | .ack _ => False
  | .keepAlive _ => False
  | .test _ => False
  | _ => True

def overUdp : BaseMessage → Prop
  | .ack _ => True
  | .info _ => True
  | .msg _ => True
  | _ => False

structure Wire (s : State ι) : Prop where
  toHub : ∀ c, ∀ m ∈ s.toHub c, fromGateway m
  datagrams : ∀ d ∈ s.datagrams, overUdp d.message
  taken : ∀ m ∈ s.taken, overUdp m

omit [DecidableEq ι] in
theorem wire_fresh (hf : Fresh s) : Wire s := by
  refine ⟨fun c m hm => ?_, fun d hd => ?_, fun m hm => ?_⟩
  · rw [hf.toHub] at hm
    cases hm
  · rw [hf.datagrams] at hd
    cases hd
  · rw [hf.taken] at hm
    cases hm

omit [DecidableEq ι] in
theorem mem_hubDatagrams {source : IPEndPoint} {acts : List Act} {d : Datagram} :
    d ∈ hubDatagrams source acts ↔ d.source = source ∧ (d.message, d.target) ∈ datagrams acts := by
  rw [hubDatagrams, datagrams, List.mem_filterMap, List.mem_filterMap]
  refine ⟨?_, ?_⟩
  · rintro ⟨act, hact, heq⟩
    cases act with
    | sendUDP message endpoint =>
      obtain rfl := Option.some.inj heq
      exact ⟨rfl, _, hact, rfl⟩
    | _ => cases heq
  · rintro ⟨rfl, act, hact, heq⟩
    cases act with
    | sendUDP message endpoint =>
      obtain ⟨rfl, rfl⟩ := Prod.mk.inj (Option.some.inj heq)
      exact ⟨_, hact, rfl⟩
    | _ => cases heq

omit [DecidableEq ι] in
theorem mem_gatewayDatagrams {source : IPEndPoint} {sent : List Sent} {d : Datagram} :
    d ∈ gatewayDatagrams source sent ↔ d.source = source ∧ .udp d.target d.message ∈ sent := by
  rw [gatewayDatagrams, List.mem_filterMap]
  refine ⟨?_, ?_⟩
  · rintro ⟨sent, hsent, heq⟩
    cases sent with
    | udp endpoint message =>
      obtain rfl := Option.some.inj heq
      exact ⟨rfl, hsent⟩
    | tcp _ _ => cases heq
  · rintro ⟨rfl, hsent⟩
    exact ⟨_, hsent, rfl⟩

/-- The hub went on, wrote only messages of this kind, and sent these datagrams. -/
structure Puts (P : BaseMessage → Prop) (h h' : HubManager) (new : List (BaseMessage × IPEndPoint)) :
    Prop where
  writes : Writes P h h'
  sends : Senders.Sends h h' new

omit [DecidableEq ι] in
theorem Puts.datagrams {P : BaseMessage → Prop} {h h' : HubManager} {new : List (BaseMessage × IPEndPoint)}
    (hp : Puts P h h' new) {source : IPEndPoint} {d : Datagram}
    (hd : d ∈ hubDatagrams source (reaction h h')) : d.source = source ∧ (d.message, d.target) ∈ new := by
  obtain ⟨more, hmore, _⟩ := hp.writes
  have hnew := hp.sends.datagrams
  rw [hmore, Learning.datagrams_append, List.append_cancel_left_eq] at hnew
  rwa [reaction_eq hmore, mem_hubDatagrams, hnew] at hd

theorem Wire.setHub (hw : Wire s) {P : BaseMessage → Prop} {i : ι} {h : HubManager}
    {new : List (BaseMessage × IPEndPoint)} (hp : Puts P (s.hub i) h new)
    (hnew : ∀ d ∈ new, overUdp d.1) : Wire (s.setHub address i h) := by
  refine ⟨hw.toHub, fun d hd => ?_, hw.taken⟩
  rcases List.mem_append.mp hd with hd | hd
  · exact hw.datagrams d hd
  · exact hnew _ (hp.datagrams hd).2

omit [DecidableEq ι] in
theorem Wire.setGateway (hw : Wire s) {message : Option BaseMessage} {g : GatewayManager}
    (hspoken : Says (Said message) s.gateway g) : Wire (s.setGateway server g) := by
  refine ⟨fun c m hm => ?_, fun d hd => ?_, hw.taken⟩
  · rcases List.mem_append.mp hm with hm | hm
    · exact hw.toHub c m hm
    · cases hspoken.drop (mem_sentTo.mp hm) <;> trivial
  · rcases List.mem_append.mp hd with hd | hd
    · exact hw.datagrams d hd
    · have hsaid := hspoken.drop (mem_gatewayDatagrams.mp hd).2
      generalize d.message = m at hsaid
      cases hsaid <;> trivial

variable (fmt) in
theorem puts_listen (m : BaseMessage) (protocol : ProtocolType) (endpoint : Option IPEndPoint)
    (h : HubManager) : ∃ new, Puts requestOrInfo h (h.listen fmt (.ok (some m)) protocol endpoint) new ∧
      ∀ d ∈ new, ∃ msg source, m = .ack msg ∧ msg.response = false ∧ endpoint = some source ∧
        d = (replyTo msg h.localHubInfo.id, source) := by
  obtain ⟨new, hnew, hreplies⟩ := replies_listen fmt m protocol endpoint h
  exact ⟨new, ⟨writes_listen fmt m protocol endpoint h, hnew⟩, hreplies⟩

variable (fmt) in
theorem puts_own {a : Events.Step} (hown : ownStep a = true) (h : HubManager) :
    ∃ new, Puts requestOrInfo h (Events.step fmt h a) new ∧
      ∀ d ∈ new, d.1 = (Ack.new h.localHubInfo.id).toMessage := by
  obtain ⟨new, hnew, hprobes⟩ := probes_own hown h
  exact ⟨new, ⟨writes_own hown h, hnew⟩, hprobes⟩

variable (fmt) in
theorem puts_connectGateway (serverEndpoint : IPEndPoint) (localEndPoint : Option IPEndPoint) (h : HubManager) :
    Puts requestOrInfo h (h.connectGateway fmt serverEndpoint localEndPoint)
      [(h.localHubInfo.simplified.toMessage fmt, serverEndpoint)] :=
  ⟨writes_connectGateway .., Senders.sends_connectGateway ..⟩

theorem puts_sendMessageTCP (message : BaseMessage) (h : HubManager) :
    Puts (fun m => m = message) h (h.sendMessageTCP message) [] :=
  ⟨writes_sendMessageTCP (P := fun m => m = message) rfl h, Senders.sends_sendMessageTCP ..⟩

/-- **Every step** leaves what is under way of its kind. -/
theorem Wire.step (hw : Wire s) {l : Label ι} (hs : step fmt address server s l = some s') :
    Wire s' := by
  have hreplies : ∀ {m : BaseMessage} {endpoint : Option IPEndPoint} {id : Option String}
      {new : List (BaseMessage × IPEndPoint)}, (∀ d ∈ new, ∃ msg source, m = .ack msg ∧
        msg.response = false ∧ endpoint = some source ∧ d = (replyTo msg id, source)) →
      ∀ d ∈ new, overUdp d.1 := by
    intro m endpoint id new hnew d hd
    obtain ⟨msg, source, _, _, _, rfl⟩ := hnew d hd
    trivial
  cases stepped hs with
  | connect i localEndPoint =>
    have hw' : Wire (s.accept i) := ⟨hw.toHub, hw.datagrams, hw.taken⟩
    refine hw'.setHub (puts_connectGateway fmt server localEndPoint (s.hub i)) fun d hd => ?_
    rw [List.mem_singleton.mp hd]
    trivial
  | act i hown =>
    obtain ⟨new, hputs, hnew⟩ := puts_own fmt hown (s.hub i)
    refine hw.setHub hputs fun d hd => ?_
    rw [hnew d hd]
    trivial
  | @send i message _ => exact hw.setHub (puts_sendMessageTCP message (s.hub i)) (by simp)
  | @receive i c message rest _ hq _ =>
    have hw' : Wire { s with toHub := Function.update s.toHub c rest } :=
      ⟨fun d m hm => hw.toHub d m (mem_of_update hq hm), hw.datagrams, hw.taken⟩
    obtain ⟨new, hputs, hnew⟩ := puts_listen fmt message .Tcp none (s.hub i)
    exact hw'.setHub hputs (hreplies hnew)
  | @datagram i k d _ _ _ =>
    have hw' : Wire { s with datagrams := s.datagrams.eraseIdx k } :=
      ⟨hw.toHub, fun d hd => hw.datagrams d (List.mem_of_mem_eraseIdx hd), hw.taken⟩
    obtain ⟨new, hputs, hnew⟩ := puts_listen fmt d.message .Udp (some d.source) (s.hub i)
    exact hw'.setHub hputs (hreplies hnew)
  | lose k => exact ⟨hw.toHub, fun d hd => hw.datagrams d (List.mem_of_mem_eraseIdx hd), hw.taken⟩
  | network lost writeFails => exact ⟨hw.toHub, hw.datagrams, hw.taken⟩
  | @gatewayDatagram k d hd =>
    have hw' : Wire { s with datagrams := s.datagrams.eraseIdx k, taken := some d.message } := by
      refine ⟨hw.toHub, fun d hd => hw.datagrams d (List.mem_of_mem_eraseIdx hd), fun m hm => ?_⟩
      rw [← Option.some.inj hm]
      exact hw.datagrams d (List.mem_of_getElem? hd)
    exact hw'.setGateway (says_step fmt (.receive d.source) s.gateway)
  | @gatewayHandle message _ =>
    have hw' : Wire { s with taken := none } := ⟨hw.toHub, hw.datagrams, fun m hm => by cases hm⟩
    exact hw'.setGateway (says_step fmt (.udp (.ok (some message))) s.gateway)
  | @gatewayReceive c message rest _ _ =>
    have hw' : Wire { s with toGateway := Function.update s.toGateway c rest } :=
      ⟨hw.toHub, hw.datagrams, hw.taken⟩
    exact hw'.setGateway (says_step fmt (.tcp c (.ok (some message))) s.gateway)
  | gatewayEnd c e => exact hw.setGateway (says_step fmt (.tcp c (.error e)) s.gateway)

end

end Blockcore.Network.Links
