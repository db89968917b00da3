import Blockcore.Network.Serving

/-!
# Hubs that are there

`Departures` says of which hubs a hub does not hold an entry; here is of which it does.  The gateway
tells every client of each hub that registers (`told_new`), and that a hub has left only when it
has (`told_gone`); and a hub takes the gateway at its word (`took_all`).

So a hub that is served holds every hub that is registered from then on, once it has taken
what is under way to it, for as long as that one is registered (`registered_held`).
-/

namespace Blockcore.Network.Links.Presence

open Lib Networking Gateway Hub

/-! ### What is under way -/

section

variable {x : Option String} {b : Bool} {l : List BaseMessage}

theorem holds_known (hl : ∀ m ∈ l, heard x true m = true) : holds x true l = true := by
  induction l with
  | nil => rfl
  | cons m l ih =>
    show holds x (heard x true m) l = true
    rw [hl m (List.mem_cons_self ..)]
    exact ih fun m' hm' => hl m' (List.mem_cons_of_mem m hm')

theorem holds_told (hl : ∀ m ∈ l, heard x true m = true) {m : HubInfoMessage} (hm : .info m ∈ l)
    (hid : m.id = x) : holds x b l = true := by
  obtain ⟨before, after, rfl⟩ := List.append_of_mem hm
  rw [holds_append]
  show holds x (heard x (holds x b before) (.info m)) after = true
  have hheard : heard x (holds x b before) (.info m) = true := by simp [heard, hid]
  rw [hheard]
  exact holds_known fun m' hm' => hl m' (List.mem_append_right _ (List.mem_cons_of_mem _ hm'))

theorem heard_gone {y : Option String} (hne : x ≠ y) : heard x true (left y) = true := by
  refine heard_known fun item tag hm _ htag heq => hne ?_
  cases hm
  exact heq.trans htag.symm

end

/-! ### What the gateway says -/

/-- The gateway made the `HubInfo` of this message, and notifies of nothing but that hubs have left. -/
def Spoken (fmt : TextFormat) : BaseMessage → Prop
  | .info m => ∃ h : HubInfo, m = h.toHubInfoMessage fmt
  | .notification n => n.type = .Disconnected
  | _ => True

def noNotification : BaseMessage → Prop
  | .notification _ => False
  | _ => True

section

variable {fmt : TextFormat} {g g' : GatewayManager} {client : Option TcpClient} {d e : TcpClient}
  {message : Except Exception (Option BaseMessage)} {P Q : BaseMessage → Prop} {x : Option String}

theorem heard_noNotification {m : BaseMessage} (hm : noNotification m) : heard x true m = true := by
  refine heard_known fun item tag hitem => ?_
  subst hitem
  cases hm

theorem of_sends (h : Sends P g g') {m : BaseMessage} (hm : m ∈ sentTo (g'.sent.drop g.sent.length) d) :
    P m := by
  obtain ⟨new, hnew, hP⟩ := h
  rw [hnew, List.drop_left] at hm
  exact hP d m (mem_sentTo.mp hm)

variable (fmt) in
/-- **A message** makes the gateway send hubs it has, and no notification. -/
theorem sends_attempt (message : Except Exception (Option BaseMessage)) (protocol : ProtocolType)
    (endpoint : Option IPEndPoint) (client : Option TcpClient) (g : GatewayManager) :
    Sends (fun m => Spoken fmt m ∧ noNotification m) g
      (attempt fmt message protocol endpoint client g).state := by
  by_cases hinfo : ∃ m, message = .ok (some (.info m))
  · obtain ⟨m, rfl⟩ := hinfo
    rw [attempt_info]
    refine processInfo_inv (P := Sends _ g) (fun g₁ sent h₁ hs => h₁.log fun c m hm => ?_)
      (fun g₁ connections h₁ => h₁.silent rfl) (Sends.refl g)
    obtain ⟨h, hh⟩ := hs _ hm
    cases hh with
    | hub _ => exact ⟨⟨h, rfl⟩, trivial⟩
    | tcpTest _ text => exact ⟨trivial, trivial⟩
  · by_cases hnotification : ∃ n, message = .ok (some (.notification n))
    · obtain ⟨n, rfl⟩ := hnotification
      exact Sends.refl g
    · obtain ⟨sent, hstate, hsent⟩ := attempt_relays fmt hinfo protocol endpoint client g
      rw [hstate]
      refine (Sends.refl g).log fun c m hm => ?_
      obtain ⟨c', m', hmessage, heq⟩ := hsent _ hm
      cases heq
      cases m with
      | info m => exact absurd ⟨m, hmessage⟩ hinfo
      | notification n => exact absurd ⟨n, hmessage⟩ hnotification
      | _ => exact ⟨trivial, trivial⟩

/-- **`Disconnect`** tells of hubs that have left. -/
theorem sends_disconnect (h : Sends P g g') (hP : ∀ y, P (left y)) (e : TcpClient) :
    Sends P g (g'.disconnect e).state := by
  by_cases hreg : Registered g' e
  · obtain ⟨as, hubInfo, bs, _, hd⟩ := disconnect_eq hreg
    rw [hd]
    split
    · exact h.silent rfl
    · rw [GatewayManager.broadcastTCP_state]
      refine Sends.log (h.silent rfl) fun c m hm => ?_
      obtain ⟨c', _, heq⟩ := List.mem_map.mp hm
      cases heq
      exact hP hubInfo.id
  · rw [disconnect_unregistered hreg]
    exact h

/-- **`Disconnect`** tells that a hub has left, and that one has. -/
theorem told_gone (hnodup : (ids g).Nodup) (e : TcpClient) :
    Sends (fun m => ∃ y, m = left y ∧ y ∉ ids (g.disconnect e).state) g (g.disconnect e).state := by
  by_cases hreg : Registered g e
  · obtain ⟨as, hubInfo, bs, hcut, hd⟩ := disconnect_eq hreg
    have hl : g.connections = as ++ hubInfo :: bs := hcut.eq
    have hgone : hubInfo.id ∉ (as ++ bs).map HubInfo.id := by
      rw [ids, hl, List.map_append, List.map_cons, List.nodup_middle, List.nodup_cons] at hnodup
      rw [List.map_append]
      exact hnodup.1
    rw [hd]
    split
    · exact (Sends.refl g).silent rfl
    · rw [GatewayManager.broadcastTCP_state]
      refine ⟨_, rfl, fun c m hm => ?_⟩
      obtain ⟨c', _, heq⟩ := List.mem_map.mp hm
      cases heq
      exact ⟨hubInfo.id, rfl, hgone⟩
  · rw [disconnect_unregistered hreg]
    exact Sends.refl g

/-- **The gateway tells of who is new**, on any client that is live. -/
theorem told_new (hlive : Live g d) (protocol : ProtocolType) (endpoint : Option IPEndPoint)
    (hpeer : ∀ c ∈ client, g.socket c ≠ .closed) (hwrites : ∀ c ∈ client, g.writeFails c = false)
    (hother : ∀ m, message = .ok (some (.info m)) →
      ∀ y ∈ g.connections, y.client = some d → y.id = m.id → ∀ c ∈ client, c = d)
    (hx : x ∈ ids (attempt fmt message protocol endpoint client g).state) (hnew : x ∉ ids g) :
    ∃ m : HubInfoMessage, m.id = x ∧ .info m ∈
      sentTo ((attempt fmt message protocol endpoint client g).state.sent.drop g.sent.length) d := by
  have hreg : Registered (attempt fmt message protocol endpoint client g).state d :=
    registered_attempt protocol endpoint hpeer hlive.registered hother
  by_cases hinfo : ∃ m, message = .ok (some (.info m))
  · obtain ⟨m, rfl⟩ := hinfo
    rw [attempt_info] at hx hreg ⊢
    by_cases hp : ∃ p, Parses fmt m p
    · obtain ⟨p, hparse⟩ := hp
      obtain ⟨as, found, bs, hcut, henter, hproc⟩ :=
        processInfo_of_parses protocol endpoint client (g := g) hparse hpeer
      rw [henter] at hproc
      generalize hE : entry p m endpoint client found = E at hproc
      have hin : ∀ y ∈ as ++ bs, y ∈ g.connections := fun y hy => hcut.sublist.subset hy
      have halive : ∀ c ∈ GatewayManager.liveClients { g with connections := as ++ E :: bs } (as ++ E :: bs),
          g.writeFails c = false := by
        intro c hc
        obtain ⟨_, y, hy, hyc⟩ := GatewayManager.mem_liveClients.mp hc
        rw [List.mem_append, List.mem_cons] at hy
        rcases hy with hy | rfl | hy
        · exact hlive.writes c ⟨y, hin y (List.mem_append_left _ hy), hyc⟩
        · rw [← hE, entry_client] at hyc
          cases client with
          | none =>
            obtain ⟨z, hz, hzc⟩ := Option.bind_eq_some_iff.mp hyc
            exact hlive.writes c ⟨z, hcut.mem_of_found hz, hzc⟩
          | some c' => exact hwrites c hyc
        · exact hlive.writes c ⟨y, hin y (List.mem_append_right _ hy), hyc⟩
      have hids : ids (processInfo fmt m protocol endpoint client g).state =
          (as ++ E :: bs).map HubInfo.id := by
        rw [hproc]
        exact announce_map HubInfo.id (fun _ _ => rfl) rfl
      have hclients : Registered { g with connections := as ++ E :: bs } d := by
        rw [hproc, registered_iff_mem_map, announce_map HubInfo.client (fun _ _ => rfl)
          (show _ = as ++ _ :: bs from rfl)] at hreg
        exact registered_iff_mem_map.mpr hreg
      -- who is new is the one that was entered, and that is told to every live client
      have hxE : E.id = x := by
        rw [hids, List.map_append, List.map_cons, List.mem_append, List.mem_cons] at hx
        rcases hx with hx | hx | hx
        · exact absurd (List.map_subset _ (fun y hy => hin y (List.mem_append_left _ hy)) hx) hnew
        · exact hx.symm
        · exact absurd (List.map_subset _ (fun y hy => hin y (List.mem_append_right _ hy)) hx) hnew
      rw [hproc, announce_alive (g := { g with connections := as ++ E :: bs }) rfl halive]
      refine ⟨E.toHubInfoMessage fmt, hxE, mem_sentTo.mpr ?_⟩
      show _ ∈ (g.sent ++ announced fmt protocol E { g with connections := as ++ E :: bs }).drop g.sent.length
      rw [List.drop_left, announced, List.mem_append]
      refine Or.inl (List.mem_map.mpr ⟨d, ?_, rfl⟩)
      exact GatewayManager.mem_liveClients.mpr ⟨hlive.connected, hclients⟩
    · obtain ⟨ex, l, hproc, hl⟩ := processInfo_refused protocol endpoint client (g := g) hp
      rw [hproc] at hx
      have hsame : ids { g with connections := l } = ids g := map_eq_of_carried (fun _ _ h => h.id) hl
      rw [Outcome.state_thrown, hsame] at hx
      exact absurd hx hnew
  · rw [ids, attempt_connections fmt hinfo] at hx
    exact absurd hx hnew

/-- The gateway went on, and of who is there in the end the client knows, if it knew of it where it
was there before. -/
def Informs (d : TcpClient) (x : Option String) (g g' : GatewayManager) : Prop :=
  x ∈ ids g' → ∀ b, (x ∈ ids g → b = true) → holds x b (sentTo (g'.sent.drop g.sent.length) d) = true

theorem informs_attempt (hlive : Live g d) (protocol : ProtocolType) (endpoint : Option IPEndPoint)
    (hpeer : ∀ c ∈ client, g.socket c ≠ .closed) (hwrites : ∀ c ∈ client, g.writeFails c = false)
    (hother : ∀ m, message = .ok (some (.info m)) →
      ∀ y ∈ g.connections, y.client = some d → y.id = m.id → ∀ c ∈ client, c = d) :
    Informs d x g (attempt fmt message protocol endpoint client g).state := by
  intro hx b hb
  have hkeep : ∀ m ∈ sentTo ((attempt fmt message protocol endpoint client g).state.sent.drop g.sent.length) d,
      heard x true m = true :=
    fun m hm => heard_noNotification (of_sends (sends_attempt fmt message protocol endpoint client g) hm).2
  by_cases hold : x ∈ ids g
  · rw [hb hold]
    exact holds_known hkeep
  · obtain ⟨m, hid, hm⟩ := told_new hlive protocol endpoint hpeer hwrites hother hx hold
    exact holds_told hkeep hm hid

theorem informs_disconnect (hnodup : (ids g).Nodup) (e : TcpClient) :
    Informs d x g (g.disconnect e).state := by
  intro hx b hb
  have hold : x ∈ ids g := ((disconnect_sublist e g).map _).subset hx
  rw [hb hold]
  refine holds_known fun m hm => ?_
  obtain ⟨y, rfl, hgone⟩ := of_sends (told_gone hnodup e) hm
  exact heard_gone fun heq => hgone (heq ▸ hx)

theorem Informs.trans {g₁ : GatewayManager} (h₁ : Informs d x g g₁) (h₂ : Informs d x g₁ g')
    (hsent₁ : g.sent <+: g₁.sent) (hsent₂ : g₁.sent <+: g'.sent) (hsub : ids g' ⊆ ids g₁) :
    Informs d x g g' := by
  intro hx b hb
  obtain ⟨new, hnew⟩ := hsent₁
  obtain ⟨more, hmore⟩ := hsent₂
  have htold₁ := h₁ (hsub hx) b hb
  have htold₂ := h₂ hx true fun _ => rfl
  rw [← hnew, List.drop_left] at htold₁
  rw [← hmore, List.drop_left] at htold₂
  rw [← hmore, ← hnew, List.append_assoc, List.drop_left, sentTo_append, holds_append, htold₁]
  exact htold₂

theorem prefix_of_sends (h : Sends P g g') : g.sent <+: g'.sent := by
  obtain ⟨new, hnew, _⟩ := h
  exact ⟨new, hnew.symm⟩

theorem informs_tcp {ι : Type} {name : ι → Option String} {opened : List ι} {message : BaseMessage}
    (ht : Tidy name opened g) (hlive : Live g d) (hconn : g.connected e = true)
    (hwrites : g.writeFails e = false) (hown : ∀ m, message = .info m → Owns name opened e m.id)
    (hother : ∀ m, message = .info m → ∀ y ∈ g.connections, y.client = some d → y.id = m.id → e = d) :
    Informs d x g (Gateway.step fmt g (.tcp e (.ok (some message)))) := by
  have hpeer := GatewayManager.open_of_connected hconn
  have hattempt : Informs d x g (attempt fmt (.ok (some message)) .Tcp none (some e) g).state := by
    refine informs_attempt hlive .Tcp none hpeer (fun c hc => ?_) fun m hm y hy hclient hid c hc => ?_
    · rw [← Option.some.inj hc]
      exact hwrites
    · rw [← Option.some.inj hc]
      refine hother m ?_ y hy hclient hid
      cases hm
      rfl
  have hsent := prefix_of_sends (sends_attempt fmt (.ok (some message)) .Tcp none (some e) g)
  have he : Entered (.ok (some message)) (some e) g
      (attempt fmt (.ok (some message)) .Tcp none (some e) g).state := entered_attempt .Tcp none hpeer
  rw [Gateway.step, if_pos hconn, tcpRound]
  cases ha : attempt fmt (.ok (some message)) .Tcp none (some e) g with
  | done g₁ =>
    rw [ha] at hattempt
    exact hattempt
  | thrown ex g₁ =>
    rw [ha] at hattempt hsent he
    have hnodup : (ids g₁).Nodup := he.nodup ht.nodup
    exact hattempt.trans (informs_disconnect hnodup e) hsent (prefix_of_sends (told_gone hnodup e))
      ((disconnect_sublist e g₁).map _).subset

end

/-! ### What a hub makes of it -/

section

variable {fmt : TextFormat} {h : HubManager} {m : BaseMessage} {x : Option String}

variable (fmt) in
/-- **What it holds**, it holds after what is no notification. -/
theorem ids_kept (hs : Sound h) (hm : noNotification m) (protocol : ProtocolType)
    (endpoint : Option IPEndPoint) :
    h.connections.ids ⊆ (h.listen fmt (.ok (some m)) protocol endpoint).connections.ids := by
  have hhandles := handles_listen fmt m protocol endpoint h
  generalize h.listen fmt (.ok (some m)) protocol endpoint = h' at hhandles
  cases hhandles with
  | effects _ he =>
    rw [(plain_effects he).ids]
    exact fun x hx => hx
  | @added msg hubInfo _ _ =>
    show h.connections.ids ⊆ (h.connections.addConnection hubInfo).ids
    rw [ConnectionManager.addConnection_ids hs.1]
    exact List.subset_append_left ..
  | removed _ _ _ => cases hm
  | cleared _ _ => cases hm

/-- **A hub it is told of**, it holds: what the gateway makes of a `HubInfo` parses. -/
theorem told_held (hf : fmt.Lawful) (hs : Sound h) (hubInfo : HubInfo) (protocol : ProtocolType)
    (endpoint : Option IPEndPoint) :
    hubInfo.id ∈ (h.listen fmt (.ok (some (.info (hubInfo.toHubInfoMessage fmt)))) protocol
      endpoint).connections.ids := by
  by_cases hold : hubInfo.id ∈ h.connections.ids
  · exact ids_kept fmt hs (by trivial) protocol endpoint hold
  · have hnew : h.connections.getConnection (hubInfo.toHubInfoMessage fmt).id = none :=
      ConnectionManager.getConnection_eq_none.mpr hold
    rw [HubManager.listen_some, process_hubMaps]
    simp only [Hub.processInfo, hnew, ofMessage_of_parses (toMessage_parses hf hubInfo)]
    show _ ∈ (h.connections.addConnection _).ids
    rw [ConnectionManager.addConnection_ids hs.1, List.mem_append]
    exact Or.inr (List.mem_singleton_self _)

/-- **A hub takes what the gateway says**: it then holds all that it should. -/
theorem took_all (hf : fmt.Lawful) (hs : Sound h) (hm : Spoken fmt m) (protocol : ProtocolType)
    (endpoint : Option IPEndPoint) (hx : heard x (decide (x ∈ h.connections.ids)) m = true) :
    x ∈ (h.listen fmt (.ok (some m)) protocol endpoint).connections.ids := by
  cases m with
  | info m =>
    rw [heard, Bool.or_eq_true, decide_eq_true_eq, beq_iff_eq] at hx
    rcases hx with hx | rfl
    · exact ids_kept fmt hs (by trivial) protocol endpoint hx
    · obtain ⟨hubInfo, rfl⟩ := hm
      exact told_held hf hs hubInfo protocol endpoint
  | notification n =>
    have hhandles := handles_listen fmt (.notification n) protocol endpoint h
    generalize h.listen fmt (.ok (some (.notification n))) protocol endpoint = h' at hhandles
    rw [heard, show n.type = .Disconnected from hm] at hx
    simp only [Bool.and_eq_true, decide_eq_true_eq] at hx
    cases hhandles with
    | effects _ he =>
      rw [(plain_effects he).ids]
      exact hx.1
    | @removed _ tag r _ htag hget =>
      show x ∈ (h.connections.removeConnection r).ids
      rw [Events.removeConnection_ids_eq hs.1 hget, hs.2.mem_erase_iff]
      refine ⟨?_, hx.1⟩
      rintro rfl
      simp [htag] at hx
    | cleared htype _ => cases htype.symm.trans hm
  | _ => exact ids_kept fmt hs (by trivial) protocol endpoint (of_decide_eq_true hx)

end

/-! ### Every run -/

section

variable {ι : Type} [DecidableEq ι] {name : ι → Option String} {fmt : TextFormat} {address : ι → IPEndPoint}
  {server : IPEndPoint} {s s' : State ι} {j : ι} {d : TcpClient} {x : Option String}

/-- What is under way to hubs, the gateway said. -/
def Speaks (fmt : TextFormat) (s : State ι) : Prop := ∀ c, ∀ m ∈ s.toHub c, Spoken fmt m

variable (fmt) in
theorem spoken_step (e : Gateway.Event) (g : GatewayManager) :
    Sends (Spoken fmt) g (Gateway.step fmt g e) := by
  cases e with
  | receive source => exact (Sends.refl g).silent rfl
  | udp message =>
    rw [step_udp]
    exact (sends_attempt fmt message .Udp _ none g).mono fun _ => And.left
  | tcp client message =>
    exact step_tcp_inv fmt (fun _ => (sends_attempt fmt message .Tcp none (some client) g).mono fun _ => And.left)
      (fun g' h => sends_disconnect h (fun _ => rfl) client) (Sends.refl g)

omit [DecidableEq ι] in
variable (server) in
theorem Speaks.setGateway (hs : Speaks fmt s) {g : GatewayManager} (hspoken : Sends (Spoken fmt) s.gateway g) :
    Speaks fmt (s.setGateway server g) := by
  intro c m hm
  rcases List.mem_append.mp hm with hm | hm
  · exact hs c m hm
  · exact of_sends hspoken hm

/-- **Every step** leaves it so. -/
theorem Speaks.step (hs : Speaks fmt s) {l : Label ι} (hstep : step fmt address server s l = some s') :
    Speaks fmt s' := by
  cases stepped hstep with
  | @receive i c message rest _ hq _ => exact fun d m hm => hs d m (mem_of_update hq hm)
  | @gatewayDatagram k d _ => exact Speaks.setGateway server hs (spoken_step fmt (.receive d.source) s.gateway)
  | @gatewayHandle message _ =>
    exact Speaks.setGateway server hs (spoken_step fmt (.udp (.ok (some message))) s.gateway)
  | @gatewayReceive c message rest _ _ =>
    exact Speaks.setGateway server hs (spoken_step fmt (.tcp c (.ok (some message))) s.gateway)
  | gatewayEnd c e => exact hs.setGateway server (spoken_step fmt (.tcp c (.error e)) s.gateway)
  | _ => exact hs

/-- Nothing happens to the client of hub `j`, and the hub does not leave it. -/
def Stays (fmt : TextFormat) (j : ι) (d : TcpClient) (s : State ι) (l : Label ι) : Prop :=
  Steady fmt j d s l ∧ l ≠ .act j .disconnectedGateway

variable (address) in
theorem holds_setHub {k : ι} {h : HubManager}
    (hkeep : k = j → x ∈ (s.hub k).connections.ids → x ∈ h.connections.ids) (hx : Holds s j d x) :
    Holds (s.setHub address k h) j d x := by
  show holds x (decide (x ∈ (Function.update s.hub k h j).connections.ids)) (s.toHub d) = true
  by_cases hk : j = k
  · subst hk
    rw [Function.update_self]
    exact holds_mono (fun hin => decide_eq_true (hkeep rfl (of_decide_eq_true hin))) hx
  · rw [Function.update_of_ne hk]
    exact hx

omit [DecidableEq ι] in
variable (server) in
theorem holds_setGateway {g : GatewayManager} (hknown : x ∈ registered s → Holds s j d x)
    (htold : Informs d x s.gateway g) (hx : x ∈ registered (s.setGateway server g)) :
    Holds (s.setGateway server g) j d x := by
  show holds x _ (s.toHub d ++ sentTo (g.sent.drop s.gateway.sent.length) d) = true
  rw [holds_append]
  exact htold hx _ hknown

/-- **One step**: of the hubs that are registered, hub `j` holds every one once it has taken what is
under way to it. -/
theorem known_step (hfmt : fmt.Lawful) (hinj : Function.Injective name) (hb : Base name s) (hw : Wire s)
    (hspeaks : Speaks fmt s) (h : Served s j d) {l : Label ι} (hm : Stays fmt j d s l)
    (hs : step fmt address server s l = some s') (hknown : x ∈ registered s → Holds s j d x) :
    x ∈ registered s' → Holds s' j d x := by
  cases stepped hs with
  | connect k localEndPoint =>
    have hknown' : x ∈ registered (s.accept k) → Holds (s.accept k) j d x := hknown
    exact fun hx => holds_setHub address (fun hk => absurd hk hm.1) (hknown' hx)
  | act k hown =>
    refine fun hx => holds_setHub address (fun hk hin => ?_) (hknown hx)
    rw [(plain_own fmt hown (fun heq => hm.2 (by rw [heq, hk])) (s.hub k)).ids]
    exact hin
  | @send k message hinfo =>
    have hplain : Plain (s.hub k) ((s.hub k).sendMessageTCP message) := by
      refine plain_sendMessageTCP fun m hmessage => absurd ?_ hinfo
      rw [hmessage]
      rfl
    refine fun hx => holds_setHub address (fun _ hin => ?_) (hknown hx)
    rw [hplain.ids]
    exact hin
  | @receive k c message rest hlink hq hlistening =>
    intro hx
    have hold := hknown hx
    show holds x (decide (x ∈ (Function.update s.hub k _ j).connections.ids))
      (Function.update s.toHub c rest d) = true
    by_cases hk : j = k
    · -- its own message: it has heard it now
      subst hk
      obtain rfl : c = d := Option.some.inj (hlink.symm.trans h.link)
      rw [Holds, hq] at hold
      rw [Function.update_self, Function.update_self]
      refine holds_mono (fun hheard => ?_) hold
      have hspoken : Spoken fmt message := hspeaks c message (by rw [hq]; exact List.mem_cons_self ..)
      exact decide_eq_true (took_all hfmt (hb.sound j) hspoken .Tcp none hheard)
    · have hdc : d ≠ c := fun heq => hk (hb.link_inj h.link (heq ▸ hlink))
      rw [Function.update_of_ne hk, Function.update_of_ne hdc]
      exact hold
  | @datagram k n dg hdg _ _ =>
    have hudp : noNotification dg.message := by
      have hover := hw.datagrams dg (List.mem_of_getElem? hdg)
      cases hmessage : dg.message with
      | notification m =>
        rw [hmessage] at hover
        exact hover.elim
      | _ => trivial
    have hknown' : x ∈ registered { s with datagrams := s.datagrams.eraseIdx n } →
        Holds { s with datagrams := s.datagrams.eraseIdx n } j d x := hknown
    exact fun hx => holds_setHub address (fun _ hin => ids_kept fmt (hb.sound k) hudp .Udp _ hin) (hknown' hx)
  | lose k => exact hknown
  | network lost writeFails => exact hknown
  | @gatewayDatagram k dg hdg =>
    refine holds_setGateway server hknown fun hx b hold => ?_
    rw [show (Gateway.step fmt s.gateway (.receive dg.source)).sent = s.gateway.sent from rfl, List.drop_length]
    exact hold hx
  | @gatewayHandle message htaken =>
    refine holds_setGateway server hknown ?_
    rw [step_udp]
    exact informs_attempt h.live .Udp _ (fun c hc => by cases hc) (fun c hc => by cases hc)
      fun m _ y _ _ _ c hc => by cases hc
  | @gatewayReceive e message rest hq hconn =>
    refine holds_setGateway server hknown ?_
    refine informs_tcp hb.tidy h.live hconn hm.1.1 (fun m hmessage => ?_) fun m hmessage y hy hclient hid => ?_
    · refine hb.infos e m ?_
      rw [hq, hmessage]
      exact List.mem_cons_self ..
    · subst hmessage
      exact h.own hinj hb hq hy hclient hid
  | gatewayEnd e ex =>
    refine holds_setGateway server hknown ?_
    rw [step_tcp_error]
    exact informs_disconnect hb.tidy.nodup e

/-- **A hub that is there is held**: a hub that is served, and has taken what the gateway sent it, holds
every hub that is registered, if it was told of those that were at first. -/
theorem registered_held (hfmt : fmt.Lawful) (address : ι → IPEndPoint) (server : IPEndPoint) {s₀ : State ι}
    (hf : Fresh s₀) (hinj : Function.Injective fun i => (s₀.hub i).localHubInfo.id) {ls more : List (Label ι)}
    (hrun : Run (step fmt address server) s₀ ls s) (hserved : Served s j d)
    (hknown : x ∈ registered s → Holds s j d x)
    (hmore : Reaches (step fmt address server) (Stays fmt j d) s more s') (hquiet : s'.toHub d = [])
    (hx : x ∈ registered s') : x ∈ (s'.hub j).connections.ids := by
  have hspeaks₀ : Speaks fmt s₀ := by
    intro c m hm
    rw [hf.toHub] at hm
    cases hm
  have hstart := hrun.inv (P := fun _ s =>
      Base (fun i => (s₀.hub i).localHubInfo.id) s ∧ Wire s ∧ Speaks fmt s)
    ⟨(inv_fresh hf).toBase, wire_fresh hf, hspeaks₀⟩
    fun _ _ _ _ ⟨hb, hw, hsp⟩ _ hs => ⟨hb.step hs, hw.step hs, hsp.step hs⟩
  obtain ⟨_, _, hheld⟩ := hmore.inv (P := fun _ s =>
      (Base (fun i => (s₀.hub i).localHubInfo.id) s ∧ Wire s ∧ Speaks fmt s) ∧ Served s j d ∧
        (x ∈ registered s → Holds s j d x))
    ⟨hstart, hserved, hknown⟩
    fun _ _ _ _ ⟨⟨hb, hw, hsp⟩, h, hk⟩ hm hs =>
      ⟨⟨hb.step hs, hw.step hs, hsp.step hs⟩, h.step hinj hb hm.1 hs,
        known_step hfmt hinj hb hw hsp h hm hs hk⟩
  have hholds := hheld hx
  rw [Holds, hquiet] at hholds
  exact of_decide_eq_true hholds

end

/-! ### A hub that comes -/

/-- `a` comes. -/
def first : List (Label Bool) :=
  [.connect true (homes true), .act true .connectedGateway, .gatewayReceive 0]

/-- `b` comes, and `a` hears of it. -/
def second : List (Label Bool) :=
  [.connect false (homes false), .act false .connectedGateway, .gatewayReceive 1,
    .receive true, .receive true, .receive true]

/-- Enough for `a` to be served. -/
def served (s : State Bool) : Bool :=
  s.opened == [true] && s.link true == some 0 &&
    s.gateway.connections.any (fun x => x.client == some 0) && s.gateway.connected 0 &&
      s.gateway.connections.all fun x => x.client.all fun e => !s.gateway.writeFails e

theorem served_of_eq_true {s : State Bool} (h : served s = true) : Served s true 0 := by
  simp only [served, Bool.and_eq_true, beq_iff_eq, List.any_eq_true] at h
  obtain ⟨⟨⟨⟨hopened, hlink⟩, x, hx, hclient⟩, hconn⟩, hwrites⟩ := h
  refine ⟨hlink, fun e he hne => ?_, ⟨x, hx, hclient⟩, hconn, ?_⟩
  · rw [hopened] at he
    rcases e with _ | e
    · exact absurd rfl hne
    · cases he
  · rintro e ⟨y, hy, he⟩
    have hall := List.all_eq_true.mp hwrites y hy
    rw [he] at hall
    simpa using hall

/-- Enough for a step to leave `a` there. -/
def stays (s : State Bool) : Label Bool → Bool
  | .connect k _ => !k
  | .act _ .connectedGateway => true
  | .act .. => false
  | .network .. => false
  | .gatewayReceive e => !s.gateway.writeFails e && e != 0
  | .gatewayEnd e _ => e != 0
  | _ => true

theorem stays_of_eq_true (s : State Bool) (l : Label Bool) (h : stays s l = true) :
    Stays dottedText true 0 s l := by
  refine ⟨?_, ?_⟩
  · cases l with
    | connect k localEndPoint =>
      rintro rfl
      cases h
    | network => cases h
    | gatewayReceive e =>
      simp only [stays, Bool.and_eq_true, bne_iff_ne, Bool.not_eq_true'] at h
      exact ⟨h.1, fun _ _ _ he => absurd he h.2⟩
    | gatewayEnd e ex =>
      rw [stays, bne_iff_ne] at h
      exact h
    | _ => trivial
  · rintro rfl
    cases h

theorem registered_held_second : ∃ s s', Run (step dottedText homes anyEndPoint) apart first s ∧
    Reaches (step dottedText homes anyEndPoint) (Stays dottedText true 0) s second s' ∧
      some "b" ∈ (s'.hub true).connections.ids := by
  have hexec : (exec (step dottedText homes anyEndPoint) apart first).any (fun s =>
      served s && decide (some "b" ∉ registered s) &&
        (exec (fun s l => if stays s l = true then step dottedText homes anyEndPoint s l else none) s
          second).any fun s' => s'.toHub 0 == [] && decide (some "b" ∈ registered s')) = true := by
    decide +kernel
  obtain ⟨s, hs, hcheck⟩ := (Option.any_eq_true _ _).mp hexec
  simp only [Bool.and_eq_true, decide_eq_true_eq, Option.any_eq_true, beq_iff_eq] at hcheck
  obtain ⟨⟨hserved, hnew⟩, s', hs', hquiet, hx⟩ := hcheck
  have hrun := run_of_exec hs
  have hmore := (reaches_of_exec hs').mono stays_of_eq_true
  exact ⟨s, s', hrun, hmore, registered_held dottedText_lawful homes anyEndPoint fresh_apart injective_apart
    hrun (served_of_eq_true hserved) (fun hold => absurd hold hnew) hmore hquiet hx⟩

end Blockcore.Network.Links.Presence
