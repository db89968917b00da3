import Blockcore.Network.Links

/-!
# What hubs hold

A hub's connections follow from what it was told: `heard` is one message, `holds` all that
is under way to it.  On its side, no step adds to what it should hold (`took_listen`,
`goes_step`); on the gateway's, what a step tells of is there afterwards, and of what is
gone the clients are told (`tcp_inStep`, `disconnect_inStep`).
-/

namespace Blockcore.Network.Links

open Lib Networking Gateway Hub

/-! ### What is under way -/

/-- Whether a hub that takes the message then holds this id. -/
def heard (x : Option String) (b : Bool) : BaseMessage → Bool
  | .info m => b || m.id == x
  | .notification n =>
    match n.type with
    | .Disconnected => b && !(n.tag.isSome && n.tag == x)
    | .ServerShutdown => b
  | _ => b

/-- Whether it does once it has taken all of them. -/
def holds (x : Option String) (b : Bool) (messages : List BaseMessage) : Bool :=
  messages.foldl (heard x) b

def left (x : Option String) : BaseMessage := (Notification.new .Disconnected x).toMessage

section

variable {x : Option String} {b b' : Bool} {m : BaseMessage} {l : List BaseMessage}

theorem heard_mono (hb : b = true → b' = true) (h : heard x b m = true) : heard x b' m = true := by
  cases b with
  | true =>
    rw [hb rfl]
    exact h
  | false =>
    cases b' with
    | false => exact h
    | true =>
      cases m with
      | info hub => simp [heard]
      | notification n =>
        rw [heard] at h
        cases ht : n.type with
        | Disconnected => simp [ht] at h
        | ServerShutdown => simp [ht] at h
      | _ => cases h

theorem holds_mono (hb : b = true → b' = true) (h : holds x b l = true) : holds x b' l = true := by
  induction l generalizing b b' with
  | nil => exact hb h
  | cons m l ih => exact ih (heard_mono hb) h

theorem heard_le (hm : ∀ hub, m = .info hub → hub.id ≠ x) (h : heard x b m = true) : b = true := by
  cases m with
  | info hub => simpa [heard, hm hub rfl] using h
  | notification n =>
    rw [heard] at h
    cases ht : n.type with
    | Disconnected =>
      simp only [ht, Bool.and_eq_true] at h
      exact h.1
    | ServerShutdown =>
      simp only [ht] at h
      exact h
  | _ => exact h

theorem heard_known (hno : ∀ item tag, m = .notification item →
    item.type = .Disconnected → item.tag = some tag → x ≠ some tag) : heard x true m = true := by
  cases m with
  | notification item =>
    cases htype : item.type with
    | Disconnected =>
      cases htag : item.tag with
      | none => simp [heard, htype, htag]
      | some tag => simp [heard, htype, htag, (hno item tag rfl htype htag).symm]
    | ServerShutdown => simp [heard, htype]
  | _ => rfl

theorem holds_le (hl : ∀ hub, .info hub ∈ l → hub.id ≠ x) (h : holds x b l = true) : b = true := by
  induction l generalizing b with
  | nil => exact h
  | cons m l ih =>
    have hrest := ih (fun hub hmem => hl hub (List.mem_cons_of_mem m hmem)) h
    refine heard_le (fun hub hm => hl hub ?_) hrest
    rw [hm]
    exact List.mem_cons_self ..

theorem holds_append (l l' : List BaseMessage) : holds x b (l ++ l') = holds x (holds x b l) l' :=
  List.foldl_append

theorem heard_left (hx : x.isSome = true) : heard x b (left x) = false := by
  simp [heard, left, Notification.toMessage, Notification.new, hx]

theorem holds_of_left (hx : x.isSome = true) (hl : left x ∈ l) : holds x b l = holds x b' l := by
  obtain ⟨before, after, rfl⟩ := List.append_of_mem hl
  have hsame : ∀ b, holds x b (left x :: after) = holds x false after := by
    intro b
    show holds x (heard x b (left x)) after = _
    rw [heard_left hx]
  rw [holds_append, holds_append, hsame, hsame]

end

/-! ### Hubs -/

/-- The ids of a hub's connections are there once each. -/
def Sound (h : HubManager) : Prop := h.connections.Made ∧ h.connections.ids.Nodup

/-- A hub went on: it is the same, and told the gateway of none but itself. -/
structure Goes (h h' : HubManager) : Prop where
  id : h'.localHubInfo.id = h.localHubInfo.id
  acts : ∃ new, h'.acts = h.acts ++ new ∧ ∀ m, .sendTCP (.info m) ∈ new → m.id = h.localHubInfo.id
  sound : Sound h → Sound h'

structure Plain (h h' : HubManager) : Prop extends Goes h h' where
  ids : h'.connections.ids = h.connections.ids

section

variable {fmt : TextFormat} {h h' h'' : HubManager}

theorem Goes.trans (h₁ : Goes h h') (h₂ : Goes h' h'') : Goes h h'' where
  id := h₂.id.trans h₁.id
  acts := by
    obtain ⟨new, he, hown⟩ := h₁.acts
    obtain ⟨new', he', hown'⟩ := h₂.acts
    refine ⟨new ++ new', by rw [he', he, List.append_assoc], fun m hm => ?_⟩
    rcases List.mem_append.mp hm with hm | hm
    · exact hown m hm
    · exact (hown' m hm).trans h₁.id
  sound hs := h₂.sound (h₁.sound hs)

theorem Plain.trans (h₁ : Plain h h') (h₂ : Plain h' h'') : Plain h h'' :=
  ⟨h₁.toGoes.trans h₂.toGoes, h₂.ids.trans h₁.ids⟩

theorem plain_of (hid : h'.localHubInfo.id = h.localHubInfo.id) (acts : List Act)
    (hacts : h'.acts = h.acts ++ acts) (hown : ∀ m, .sendTCP (.info m) ∈ acts → m.id = h.localHubInfo.id)
    (hmade : h.connections.Made → h'.connections.Made) (hids : h'.connections.ids = h.connections.ids) :
    Plain h h' where
  id := hid
  acts := ⟨acts, hacts, hown⟩
  sound hs := ⟨hmade hs.1, by rw [hids]; exact hs.2⟩
  ids := hids

theorem plain_of_eq (hid : h'.localHubInfo.id = h.localHubInfo.id) (hacts : h'.acts = h.acts)
    (hc : h'.connections = h.connections) : Plain h h' :=
  plain_of hid [] (by rw [hacts, List.append_nil]) (fun m hm => by cases hm) (fun hm => hc ▸ hm)
    (by rw [hc])

theorem Plain.refl (h : HubManager) : Plain h h := plain_of_eq rfl rfl rfl

theorem plain_log (h : HubManager) {acts : List Act}
    (hown : ∀ m, .sendTCP (.info m) ∈ acts → m.id = h.localHubInfo.id) : Plain h (h.log acts) :=
  plain_of rfl acts rfl hown (fun hm => hm) rfl

theorem plain_publish (h : HubManager) (event : BaseEvent) : Plain h (h.publish event) :=
  plain_log h fun m hm => by simp at hm

theorem plain_store {r : Ref} {hubInfo : HubInfo} (hid : hubInfo.id = (h.hubInfo r).id) :
    Plain h (h.store r hubInfo) :=
  plain_of rfl [] (List.append_nil _).symm (fun m hm => by cases hm) (fun hm => hm.store r hubInfo)
    (ConnectionManager.store_ids hid)

theorem plain_sendMessageTCP {message : BaseMessage}
    (hown : ∀ m, message = .info m → m.id = h.localHubInfo.id) : Plain h (h.sendMessageTCP message) := by
  rw [HubManager.sendMessageTCP]
  split
  · refine plain_log h fun m hm => hown m ?_
    simpa using (List.mem_singleton.mp hm).symm
  · exact .refl h

theorem plain_find (h : HubManager) (caller : Caller) (r : Ref) :
    Plain h (h.findReachableEndpoint caller r) :=
  plain_of rfl [.findReachableEndpoint (h.hubInfo r)] rfl (fun m hm => by simp at hm) (fun hm => hm) rfl

/-- **What leaves the connections** leaves what is held. -/
theorem plain_effect (he : Effect h h') : Plain h h' := by
  cases he with
  | publish _ => exact plain_publish h _
  | sendMessageUDP entity endpoint => exact plain_log h fun m hm => by simp at hm
  | findReachableEndpoint caller r => exact plain_find h caller r
  | connectToClient r => exact (plain_sendMessageTCP fun m hm => by cases hm).trans (plain_find ..)
  | store hid => exact plain_store hid
  | inside hl hc ha => exact plain_of_eq (congrArg HubInfo.id hl) ha hc

theorem plain_effects (he : Effects h h') : Plain h h' := by
  induction he with
  | refl => exact .refl h
  | tail _ he ih => exact ih.trans (plain_effect he)

/-- A hub took a message: it holds no more than what it then should. -/
structure Took (m : BaseMessage) (h h' : HubManager) : Prop extends Goes h h' where
  ids : Sound h → ∀ x ∈ h'.connections.ids, heard x (decide (x ∈ h.connections.ids)) m = true

theorem goes_disconnectedGateway (h : HubManager) : Goes h h.disconnectedGateway.state ∧
    h.disconnectedGateway.state.connections.ids ⊆ h.connections.ids := by
  rw [HubManager.disconnectedGateway]
  split
  · refine ⟨⟨rfl, ⟨[], (List.append_nil _).symm, fun m hm => by cases hm⟩, fun _ => ⟨⟨?_, ?_⟩, ?_⟩⟩, ?_⟩
    · intro r hr
      cases hr
    · exact List.nodup_nil
    · exact List.nodup_nil
    · intro x hx
      cases hx
  · exact ⟨(Plain.refl h).toGoes, fun x hx => hx⟩

theorem took_added {msg : HubInfoMessage} {hubInfo : HubInfo} (hid : hubInfo.id = msg.id)
    (hnew : h.connections.getConnection msg.id = none) :
    Took (.info msg) h ({ h with connections := h.connections.addConnection hubInfo }.publish
      (.connectionAdded hubInfo)) := by
  have hnot : msg.id ∉ h.connections.ids := ConnectionManager.getConnection_eq_none.mp hnew
  have hids : ∀ hs : Sound h,
      (h.connections.addConnection hubInfo).ids = h.connections.ids ++ [msg.id] := by
    intro hs
    rw [ConnectionManager.addConnection_ids hs.1, hid]
  refine ⟨⟨rfl, ⟨[.publish (.connectionAdded hubInfo)], rfl, fun m hm => by simp at hm⟩,
    fun hs => ⟨hs.1.addConnection hubInfo, ?_⟩⟩, fun hs x hx => ?_⟩
  · show (h.connections.addConnection hubInfo).ids.Nodup
    rw [hids hs, List.nodup_append]
    refine ⟨hs.2, by simp, fun a ha b hb => ?_⟩
    rw [List.mem_singleton.mp hb]
    exact fun heq => hnot (heq ▸ ha)
  · change x ∈ (h.connections.addConnection hubInfo).ids at hx
    rw [hids hs, List.mem_append, List.mem_singleton] at hx
    rw [heard, Bool.or_eq_true, decide_eq_true_eq, beq_iff_eq]
    exact hx.imp_right Eq.symm

theorem took_removed {item : NotificationMessage} {tag : String} {r : Ref}
    (htype : item.type = .Disconnected) (htag : item.tag = some tag)
    (hget : h.connections.getConnection (some tag) = some r) :
    Took (.notification item) h ({ h with connections := h.connections.removeConnection r }.publish
      (.connectionRemoved (h.hubInfo r))) := by
  have hids : ∀ hs : Sound h,
      (h.connections.removeConnection r).ids = h.connections.ids.erase (some tag) :=
    fun hs => Events.removeConnection_ids_eq hs.1 hget
  refine ⟨⟨rfl, ⟨[.publish (.connectionRemoved (h.hubInfo r))], rfl, fun m hm => by simp at hm⟩,
    fun hs => ⟨hs.1.removeConnection r, ?_⟩⟩, fun hs x hx => ?_⟩
  · show (h.connections.removeConnection r).ids.Nodup
    rw [hids hs]
    exact hs.2.erase _
  · change x ∈ (h.connections.removeConnection r).ids at hx
    rw [hids hs, hs.2.mem_erase_iff] at hx
    simp [heard, htype, htag, hx.2, Ne.symm hx.1]

variable (fmt) in
theorem took_listen (m : BaseMessage) (protocol : ProtocolType) (endpoint : Option IPEndPoint)
    (h : HubManager) : Took m h (h.listen fmt (.ok (some m)) protocol endpoint) := by
  have hhandles := handles_listen fmt m protocol endpoint h
  generalize h.listen fmt (.ok (some m)) protocol endpoint = h' at hhandles
  cases hhandles with
  | effects hno he =>
    have hplain := plain_effects he
    refine ⟨hplain.toGoes, fun _ x hx => ?_⟩
    rw [hplain.ids] at hx
    rw [decide_eq_true hx]
    refine heard_known fun item tag hm htype htag heq => ?_
    exact ConnectionManager.getConnection_eq_none.mp (hno item tag hm htype htag) (heq ▸ hx)
  | added hid hnew => exact took_added hid hnew
  | removed htype htag hget => exact took_removed htype htag hget
  | @cleared item htype _ =>
    obtain ⟨hgoes, hids⟩ := goes_disconnectedGateway h
    refine ⟨hgoes.trans (plain_publish _ .gatewayShutdown).toGoes, fun _ x hx => ?_⟩
    simpa [heard, htype] using hids hx

variable (fmt) in
/-- **A hub does something of its own**: it holds what it held, unless it leaves the gateway. -/
theorem plain_own {a : Events.Step} (ha : ownStep a = true) (hne : a ≠ .disconnectedGateway)
    (h : HubManager) : Plain h (Events.step fmt h a) := by
  cases a with
  | receive message protocol endpoint => cases ha
  | advance t =>
    rw [Events.step]
    cases hadv : h.advance t with
    | none => exact .refl h
    | some h' => exact plain_effects (effects_advance hadv)
  | connectToClient r => exact plain_effect (.connectToClient r)
  | connectGateway serverEndpoint localEndPoint => cases ha
  | connectedGateway =>
    refine (plain_sendMessageTCP fun m hm => ?_).trans (plain_publish ..)
    cases hm
    rfl
  | refusedGateway serverEndpoint => exact plain_publish ..
  | disconnectedGateway => exact absurd rfl hne
  | network connected writeFails => exact plain_of_eq rfl rfl rfl

variable (fmt) in
theorem goes_step {a : Events.Step} (ha : ownStep a = true) (h : HubManager) :
    Goes h (Events.step fmt h a) ∧ (Events.step fmt h a).connections.ids ⊆ h.connections.ids := by
  by_cases hleaves : a = .disconnectedGateway
  · rw [hleaves]
    exact goes_disconnectedGateway h
  · have hplain := plain_own fmt ha hleaves h
    exact ⟨hplain.toGoes, fun x hx => hplain.ids ▸ hx⟩

variable (fmt) in
theorem plain_connectGateway (serverEndpoint : IPEndPoint) (localEndPoint : Option IPEndPoint) (h : HubManager) :
    Plain h (h.connectGateway fmt serverEndpoint localEndPoint) :=
  plain_of rfl [.sendUDP (h.localHubInfo.simplified.toMessage fmt) serverEndpoint] rfl
    (fun m hm => by simp at hm) (fun hm => hm) rfl

end

/-! ### The gateway -/

def ids (g : GatewayManager) : List (Option String) := g.connections.map HubInfo.id

/-- The clients that are told when the hub of this id leaves: those of the others that are connected,
up to the first that cannot be written to. -/
def notified (g : GatewayManager) (x : Option String) : List TcpClient :=
  g.reached (g.liveClients (g.connections.filter fun h => h.id ≠ x))

def Under (g : GatewayManager) (c : TcpClient) (x : Option String) : Prop :=
  ∃ h ∈ g.connections, h.client = some c ∧ h.id = x

/-- The gateway handled a message: it told its clients of no hub it does not have then, and only such
as it tells if that one leaves; it dropped none; an entry that was not under its client before is
the sender's. -/
structure Entered (message : Except Exception (Option BaseMessage)) (client : Option TcpClient)
    (g g' : GatewayManager) : Prop where
  sent : ∃ new, g'.sent = g.sent ++ new ∧ ∀ c hub, .tcp c (.info hub) ∈ new →
    hub.id ∈ ids g' ∧ (Under g' c hub.id ∨ c ∈ notified g' hub.id)
  kept : ids g ⊆ ids g'
  nodup : (ids g).Nodup → (ids g').Nodup
  entries : ∀ x' ∈ g'.connections, ∀ c, x'.client = some c →
    (∃ x ∈ g.connections, x.id = x'.id ∧ x.client = some c) ∨
      client = some c ∧ ∃ m, message = .ok (some (.info m)) ∧ x'.id = m.id
  others : ∀ x, (∀ m, message = .ok (some (.info m)) → m.id = x) → notified g' x = notified g x
  sockets : SameSockets g g'

section

variable {fmt : TextFormat} {g g' g₁ : GatewayManager} {client : Option TcpClient}
  {message : Except Exception (Option BaseMessage)}

theorem notified_congr (hl : g'.connections.map (fun h => (h.id, h.client)) =
      g.connections.map fun h => (h.id, h.client)) (hs : SameSockets g g') (x : Option String) :
    notified g' x = notified g x := by
  have hclients : ∀ l : List HubInfo, (l.filter fun h => h.id ≠ x).filterMap HubInfo.client =
      ((l.map fun h => (h.id, h.client)).filter fun p => p.1 ≠ x).filterMap Prod.snd := by
    intro l
    rw [List.filter_map, List.filterMap_map]
    rfl
  have hconnected : g'.connected = g.connected := funext fun c => by
    rw [GatewayManager.connected, GatewayManager.connected, hs.1]
  rw [notified, notified, GatewayManager.reached, GatewayManager.reached,
    GatewayManager.liveClients_eq_filter, GatewayManager.liveClients_eq_filter, hclients, hclients, hl,
    hconnected, hs.2]

theorem under_congr (hl : g'.connections.map (fun h => (h.id, h.client)) =
      g.connections.map fun h => (h.id, h.client)) {c : TcpClient} {x : Option String} (hu : Under g c x) :
    Under g' c x := by
  obtain ⟨h, hh, hclient, hid⟩ := hu
  have hpair : (h.id, h.client) ∈ g'.connections.map fun h => (h.id, h.client) := by
    rw [hl]
    exact List.mem_map_of_mem hh
  obtain ⟨h', hh', heq⟩ := List.mem_map.mp hpair
  obtain ⟨hid', hclient'⟩ := Prod.mk.inj heq
  exact ⟨h', hh', hclient'.trans hclient, hid'.trans hid⟩

theorem mem_takeWhile_filter {α β : Type} {f : α → Option β} {p : β → Bool} (q : α → Bool) {l : List α}
    {b : β} (h : b ∈ (l.filterMap f).takeWhile p) :
    (∃ a ∈ l, q a = false ∧ f a = some b) ∨ b ∈ ((l.filter q).filterMap f).takeWhile p := by
  induction l with
  | nil => cases h
  | cons a l ih =>
    have hlater : b ∈ (l.filterMap f).takeWhile p → (∃ a' ∈ a :: l, q a' = false ∧ f a' = some b) ∨
        b ∈ ((l.filter q).filterMap f).takeWhile p :=
      fun h => (ih h).imp_left fun ⟨a', ha', hq⟩ => ⟨a', List.mem_cons_of_mem a ha', hq⟩
    cases hf : f a with
    | none =>
      rw [List.filterMap_cons_none hf] at h
      rw [List.filter_cons]
      split
      · rw [List.filterMap_cons_none hf]
        exact hlater h
      · exact hlater h
    | some b' =>
      rw [List.filterMap_cons_some hf] at h
      cases hp : p b' with
      | false =>
        rw [List.takeWhile_cons_of_neg (by simp [hp])] at h
        cases h
      | true =>
        rw [List.takeWhile_cons_of_pos hp] at h
        rw [List.filter_cons]
        split
        · rw [List.filterMap_cons_some hf, List.takeWhile_cons_of_pos hp, List.mem_cons]
          rcases List.mem_cons.mp h with h | h
          · exact Or.inr (Or.inl h)
          · exact (hlater h).imp_right Or.inr
        · next hq =>
          rcases List.mem_cons.mp h with rfl | h
          · exact Or.inl ⟨a, List.mem_cons_self .., by simpa using hq, hf⟩
          · exact hlater h

theorem under_or_notified (x : Option String) {c : TcpClient}
    (hc : c ∈ g.reached (g.liveClients g.connections)) : Under g c x ∨ c ∈ notified g x := by
  rcases mem_takeWhile_filter (fun h : HubInfo => h.id ≠ x) hc with ⟨h, hh, hid, hclient⟩ | hc
  · exact Or.inl ⟨h, hh, (Option.filter_eq_some_iff.mp hclient).1, by simpa using hid⟩
  · exact Or.inr hc

variable (fmt) in
theorem told_announce (protocol : ProtocolType) {hubInfo : HubInfo} {as bs : List HubInfo}
    (hl : g.connections = as ++ hubInfo :: bs) :
    ∃ new, (announce fmt protocol hubInfo as.length g).state.sent = g.sent ++ new ∧
      ∀ c hub, .tcp c (.info hub) ∈ new →
        hub.id = hubInfo.id ∧ c ∈ g.reached (g.liveClients g.connections) := by
  have htold : ∀ (cs : List TcpClient) c hub, .tcp c (.info hub) ∈ cs.map (Sent.tcp · (hubInfo.toMessage fmt)) →
      hub.id = hubInfo.id ∧ c ∈ cs := by
    intro cs c hub hmem
    obtain ⟨d, hd, heq⟩ := List.mem_map.mp hmem
    cases heq
    exact ⟨rfl, hd⟩
  by_cases hw : ∃ c ∈ g.liveClients g.connections, g.writeFails c = true
  · rw [announce_dead hw]
    exact ⟨_, rfl, htold _⟩
  · have halive : ∀ c ∈ g.liveClients g.connections, g.writeFails c = false :=
      fun c hc => by simpa using fun h => hw ⟨c, hc, h⟩
    rw [announce_alive hl halive, GatewayManager.reached_alive halive]
    refine ⟨_, rfl, fun c hub hmem => ?_⟩
    rcases List.mem_append.mp hmem with hmem | hmem
    · exact htold _ c hub hmem
    · -- the rest are texts, and datagrams
      split at hmem
      · cases hmem
      · rw [tests, introductions] at hmem
        simp only [testMessage, Message.toMessage] at hmem
        split at hmem <;> split at hmem <;> split at hmem <;> simp at hmem

theorem entered_of_forall₂ (new : List Sent) (hl : List.Forall₂ Carried g.connections g'.connections)
    (hsent : g'.sent = g.sent ++ new) (hnew : ∀ c hub, .tcp c (.info hub) ∉ new)
    (hsockets : SameSockets g g') : Entered message client g g' := by
  have hids : ids g' = ids g := map_eq_of_carried (fun _ _ h => h.id) hl
  have hpairs := map_eq_of_carried (f := fun h => (h.id, h.client)) (fun _ _ h => by rw [h.id, h.client]) hl
  refine ⟨⟨new, hsent, fun c hub hmem => absurd hmem (hnew c hub)⟩, ?_, ?_, fun x' hx' c hc => ?_,
    fun x _ => notified_congr hpairs hsockets x, hsockets⟩
  · rw [hids]
    exact fun x hx => hx
  · rw [hids]
    exact id
  · obtain ⟨x, hx, hcarried⟩ := exists_of_forall₂ hl hx'
    exact Or.inl ⟨x, hx, hcarried.id.symm, by rw [← hcarried.client, hc]⟩

theorem entered_info (m : HubInfoMessage) (protocol : ProtocolType) (endpoint : Option IPEndPoint)
    (hpeer : ∀ c ∈ client, g.socket c ≠ .closed) :
    Entered (.ok (some (.info m))) client g (processInfo fmt m protocol endpoint client g).state := by
  have hsockets := processInfo_sameSockets fmt m protocol endpoint client g
  by_cases hp : ∃ p, Parses fmt m p
  · obtain ⟨p, hparse⟩ := hp
    obtain ⟨as, found, bs, hcut, henter, hproc⟩ := processInfo_of_parses protocol endpoint client
      (g := g) hparse hpeer
    rw [henter] at hproc
    have hfound : ∀ x ∈ found, x.id = m.id := hcut.key_found
    have hid : (entry p m endpoint client found).id = m.id := entry_id hfound
    rw [hproc] at hsockets ⊢
    generalize hE : entry p m endpoint client found = E at hid hproc hsockets ⊢
    have hsame : (announce fmt protocol E as.length
        { g with connections := as ++ E :: bs }).state.connections.map (fun x => (x.id, x.client)) =
          (as ++ E :: bs).map fun x => (x.id, x.client) := announce_map _ (fun _ _ => rfl) rfl
    have hids : ids (announce fmt protocol E as.length { g with connections := as ++ E :: bs }).state =
        (as ++ E :: bs).map HubInfo.id := announce_map HubInfo.id (fun _ _ => rfl) rfl
    obtain ⟨new, hsent, hnew⟩ := told_announce fmt protocol (g := { g with connections := as ++ E :: bs }) rfl
    have hnotified : ∀ x, notified (announce fmt protocol E as.length
        { g with connections := as ++ E :: bs }).state x = notified { g with connections := as ++ E :: bs } x :=
      fun x => notified_congr hsame (g := { g with connections := as ++ E :: bs }) hsockets x
    refine ⟨⟨new, hsent, fun c hub hmem => ?_⟩, ?_, fun hnodup => ?_, fun x' hx' c hc => ?_, fun x hx => ?_,
      hsockets⟩
    · obtain ⟨hhub, hreached⟩ := hnew c hub hmem
      rw [hids, hnotified, hhub]
      refine ⟨by simp, (under_or_notified E.id hreached).imp_left fun hu => under_congr hsame hu⟩
    · intro x hx
      obtain ⟨y, hy, rfl⟩ := List.mem_map.mp hx
      rw [hids, List.mem_map]
      rw [hcut.eq, List.mem_append, List.mem_append, Option.mem_toList] at hy
      rcases hy with hy | hy | hy
      · exact ⟨y, List.mem_append_left _ hy, rfl⟩
      · exact ⟨E, by simp, hid.trans (hfound y hy).symm⟩
      · exact ⟨y, List.mem_append_right _ (List.mem_cons_of_mem E hy), rfl⟩
    · rw [hids]
      exact hcut.nodup hid hnodup
    · have hpair : (x'.id, x'.client) ∈ (as ++ E :: bs).map fun x => (x.id, x.client) := by
        rw [← hsame]
        exact List.mem_map_of_mem hx'
      obtain ⟨y, hy, heq⟩ := List.mem_map.mp hpair
      obtain ⟨hyid, hyclient⟩ := Prod.mk.inj heq
      rw [← hyid]
      rw [hc] at hyclient
      rw [List.mem_append, List.mem_cons] at hy
      rcases hy with hy | rfl | hy
      · exact Or.inl ⟨y, hcut.mem_of_before hy, rfl, hyclient⟩
      · -- the entry made or updated has the client it came over, or the one it had
        rw [← hE, entry_client] at hyclient
        cases client with
        | some d => exact Or.inr ⟨hyclient, m, rfl, hid⟩
        | none =>
          obtain ⟨z, rfl, hz⟩ := Option.bind_eq_some_iff.mp hyclient
          exact Or.inl ⟨z, hcut.mem_of_found rfl, (hfound z rfl).trans hid.symm, hz⟩
      · exact Or.inl ⟨y, hcut.mem_of_after hy, rfl, hyclient⟩
    · obtain rfl := hx m rfl
      have hothers : (as ++ E :: bs).filter (fun h => h.id ≠ m.id) =
          g.connections.filter fun h => h.id ≠ m.id := by
        have hnone : found.toList.filter (fun h => h.id ≠ m.id) = [] := by
          refine List.filter_eq_nil_iff.mpr fun h hh => ?_
          simpa using hfound h (Option.mem_toList.mp hh)
        rw [hcut.eq, List.filter_append, List.filter_append, List.filter_append, hnone,
          List.filter_cons_of_neg (by simpa using hid), List.nil_append]
      rw [hnotified, notified, hothers]
      rfl
  · obtain ⟨e, l, hproc, hl⟩ := processInfo_refused protocol endpoint client (g := g) hp
    rw [hproc] at hsockets ⊢
    exact entered_of_forall₂ [] hl (List.append_nil _).symm (fun c hub hmem => by cases hmem) hsockets

theorem entered_attempt (protocol : ProtocolType) (endpoint : Option IPEndPoint)
    (hpeer : ∀ c ∈ client, g.socket c ≠ .closed) :
    Entered message client g (attempt fmt message protocol endpoint client g).state := by
  by_cases hinfo : ∃ m, message = .ok (some (.info m))
  · obtain ⟨m, rfl⟩ := hinfo
    rw [attempt_info]
    exact entered_info m protocol endpoint hpeer
  · have hsockets := attempt_sameSockets fmt message protocol endpoint client g
    obtain ⟨sent, hstate, hsent⟩ := attempt_relays fmt hinfo protocol endpoint client g
    rw [hstate] at hsockets ⊢
    refine entered_of_forall₂ sent (List.forall₂_same.mpr fun x _ => .refl x) rfl
      (fun c hub hmem => ?_) hsockets
    obtain ⟨d, m, hmessage, heq⟩ := hsent _ hmem
    cases heq
    exact hinfo ⟨hub, hmessage⟩

/-! ### `Disconnect` -/

/-- The gateway dropped the hub `hubInfo` under a client, and told the others. -/
structure Drops (c : TcpClient) (hubInfo : HubInfo) (g g' : GatewayManager) : Prop where
  mem : hubInfo ∈ g.connections
  client : hubInfo.client = some c
  gone : hubInfo.id ∉ ids g'
  others : ∀ x ∈ ids g, x = hubInfo.id ∨ x ∈ ids g'
  unregistered : ¬ Registered g' c
  socket : ∀ d, d ≠ c → g'.socket d = g.socket d
  told : g'.sent = g.sent ++ (notified g hubInfo.id).map (.tcp · (disconnected hubInfo))

theorem disconnect_drops {c : TcpClient} (hreg : Registered g c) (hsocket : g.socket c ≠ .closed)
    (hone : ∀ x ∈ g.connections, ∀ y ∈ g.connections, x.client = some c → y.client = some c → x.id = y.id)
    (hnodup : (ids g).Nodup) : ∃ hubInfo, Drops c hubInfo g (g.disconnect c).state := by
  obtain ⟨as, hubInfo, bs, hcut, hd⟩ := disconnect_eq hreg
  have hl : g.connections = as ++ hubInfo :: bs := hcut.eq
  have hclient : hubInfo.client = some c := hcut.key_found hubInfo rfl
  have hin : ∀ x ∈ as ++ bs, x ∈ g.connections := fun x hx => hcut.sublist.subset hx
  have hgone : hubInfo.id ∉ (as ++ bs).map HubInfo.id := by
    rw [ids, hl, List.map_append, List.map_cons, List.nodup_middle, List.nodup_cons] at hnodup
    rw [List.map_append]
    exact hnodup.1
  have hunder : ∀ x ∈ as ++ bs, x.client ≠ some c := by
    intro x hx hc
    have hid := hone x (hin x hx) hubInfo (by simp [hl]) hc hclient
    exact hgone (hid ▸ List.mem_map_of_mem hx)
  -- the other clients are as they were
  have hothers : g.connections.filter (fun h => h.id ≠ hubInfo.id) = as ++ bs := by
    rw [hl, List.filter_append, List.filter_cons_of_neg (by simp), ← List.filter_append]
    refine List.filter_eq_self.mpr fun h hh => ?_
    have hne : h.id ≠ hubInfo.id := fun heq => hgone (heq ▸ List.mem_map_of_mem hh)
    simpa using hne
  have hlive : (dropped g c as bs).liveClients (as ++ bs) = g.liveClients (as ++ bs) := by
    refine List.filterMap_congr fun x hx => ?_
    cases hxc : x.client with
    | none => rfl
    | some d =>
      have hne : d ≠ c := fun heq => hunder x hx (heq ▸ hxc)
      have hconn : (dropped g c as bs).connected d = g.connected d := by
        rw [dropped, GatewayManager.close_connected, decide_eq_true hne, Bool.true_and]
        rfl
      rw [Option.filter, Option.filter, hconn]
  have hstate : (g.disconnect c).state =
      (dropped g c as bs).log ((notified g hubInfo.id).map (.tcp · (disconnected hubInfo))) := by
    rw [hd, if_neg hsocket, GatewayManager.broadcastTCP_state, notified, hothers]
    exact congrArg (fun cs => (dropped g c as bs).log ((g.reached cs).map _)) hlive
  rw [hstate]
  refine ⟨hubInfo, by simp [hl], hclient, hgone, fun x hx => ?_, ?_, fun d hne => ?_, rfl⟩
  · rw [ids, hl, List.map_append, List.map_cons, List.mem_append, List.mem_cons] at hx
    show x = hubInfo.id ∨ x ∈ (as ++ bs).map HubInfo.id
    rw [List.map_append, List.mem_append]
    tauto
  · rintro ⟨x, hx, hc⟩
    exact hunder x hx hc
  · exact Function.update_of_ne hne ..

end

/-! ### Where a thread ends -/

/-- The thread of a client gives up on the message: it does not parse, nobody handles it, or
a write of what comes of it fails. -/
def Fatal (fmt : TextFormat) (g : GatewayManager) (c : TcpClient) : BaseMessage → Prop
  | .info m => (¬ ∃ p, Parses fmt m p) ∨
    ∃ d, (d = c ∨ Registered g d) ∧ g.connected d = true ∧ g.writeFails d = true
  | .broadcast _ => ∃ d, Registered g d ∧ g.connected d = true ∧ g.writeFails d = true
  | .req _ => ∃ d, Registered g d ∧ g.connected d = true ∧ g.writeFails d = true
  | .msg _ => False
  | .keepAlive _ => False
  | _ => True

section

variable {fmt : TextFormat} {g : GatewayManager} {c : TcpClient}

theorem done_info {m : HubInfoMessage} {p : Parsed} (hp : Parses fmt m p) (hconn : g.connected c = true)
    (hwrites : ∀ d, d = c ∨ Registered g d → g.connected d = true → g.writeFails d = false) :
    (processInfo fmt m .Tcp none (some c) g).threw = false := by
  obtain ⟨as, found, bs, hcut, henter, hproc⟩ := processInfo_of_parses .Tcp none (some c)
    (g := g) hp (GatewayManager.open_of_connected hconn)
  rw [hproc, henter, announce_alive rfl]
  · rfl
  · intro d hd
    obtain ⟨hlive, x, hx, hxd⟩ := GatewayManager.mem_liveClients.mp hd
    refine hwrites d ?_ hlive
    rcases List.mem_append.mp hx with hx | hx
    · exact Or.inr ⟨x, hcut.mem_of_before hx, hxd⟩
    · rcases List.mem_cons.mp hx with rfl | hx
      · rw [entry_client] at hxd
        exact Or.inl (Option.some.inj hxd).symm
      · exact Or.inr ⟨x, hcut.mem_of_after hx, hxd⟩

theorem fatal_of_threw {message : BaseMessage} (hconn : g.connected c = true)
    (h : (attempt fmt (.ok (some message)) .Tcp none (some c) g).threw = true) :
    Fatal fmt g c message := by
  by_contra hnot
  have hdone : (attempt fmt (.ok (some message)) .Tcp none (some c) g).threw = false := by
    cases message with
    | info m =>
      rw [Fatal, not_or, not_not] at hnot
      obtain ⟨⟨p, hp⟩, hwrites⟩ := hnot
      rw [attempt_info]
      refine done_info hp hconn fun d hd hlive => ?_
      rw [← Bool.not_eq_true]
      exact fun hw => hwrites ⟨d, hd, hlive, hw⟩
    | broadcast m =>
      rw [attempt, dispatch, process_gatewayMaps]
      simp only [processBroadcast]
      split
      · rw [GatewayManager.sendAll_alive]
        · rfl
        · intro d hd
          rw [GatewayManager.liveClients_broadcast] at hd
          obtain ⟨hlive, x, hx, hxd⟩ := GatewayManager.mem_liveClients.mp hd
          rw [← Bool.not_eq_true]
          exact fun hw => hnot ⟨d, ⟨x, hx, hxd⟩, hlive, hw⟩
      · rfl
    | req m =>
      rw [attempt, dispatch, process_gatewayMaps]
      simp only [Gateway.processReq]
      split
      · rfl
      · next x i hget =>
        obtain ⟨as, bs, hcut, _⟩ := cutAt_of_some hget
        rw [sendTCP_alive]
        · rfl
        · intro d hd hlive
          rw [← Bool.not_eq_true]
          exact fun hw => hnot ⟨d, ⟨x, hcut.mem_of_found rfl, hd⟩, hlive, hw⟩
    | msg m =>
      rw [attempt, dispatch, process_gatewayMaps]
      simp only [logPeer, if_neg (GatewayManager.connected_ne_closed hconn)]
      rfl
    | keepAlive m => rfl
    | _ => exact absurd trivial hnot
  rw [hdone] at h
  cases h

end

/-! ### What the gateway tells -/

def Owns {ι : Type} (name : ι → Option String) (opened : List ι) (c : TcpClient) (id : Option String) :
    Prop := ∃ i, opened[c]? = some i ∧ id = name i

/-- The entries are told apart by their ids, and under a client that is not closed is the hub
that opened it. -/
structure Tidy {ι : Type} (name : ι → Option String) (opened : List ι) (g : GatewayManager) : Prop where
  nodup : (ids g).Nodup
  owned : ∀ x ∈ g.connections, ∀ c, x.client = some c → Owns name opened c x.id
  alive : ∀ c, Registered g c → g.socket c ≠ .closed

/-- Of a hub that is not there in the end, a client that is has not been told, or has been
told that it left; `known` says who was told of whom before. -/
structure InStep (known : TcpClient → Option String → Prop) (g g' : GatewayManager) : Prop where
  sent : ∃ new, g'.sent = g.sent ++ new
  told : ∀ d x b, (b = true → known d x) → Registered g' d → x ∉ ids g' →
    holds x b (sentTo (g'.sent.drop g.sent.length) d) = true → b = true ∧ x ∉ ids g

section

variable {ι : Type} {name : ι → Option String} {opened : List ι} {fmt : TextFormat}
  {g g' g₁ : GatewayManager} {client : Option TcpClient}
  {message : Except Exception (Option BaseMessage)} {c : TcpClient}
  {known : TcpClient → Option String → Prop}

theorem Owns.unique {a b : Option String} (ha : Owns name opened c a)
    (hb : Owns name opened c b) : a = b := by
  obtain ⟨i, hi, rfl⟩ := ha
  obtain ⟨j, hj, rfl⟩ := hb
  rw [Option.some.inj (hi.symm.trans hj)]

theorem InStep.refl (g : GatewayManager) : InStep known g g where
  sent := ⟨[], (List.append_nil _).symm⟩
  told d x b _ _ hx h := by
    rw [List.drop_length] at h
    exact ⟨h, hx⟩

def Told (known : TcpClient → Option String → Prop) (g g' : GatewayManager) (d : TcpClient)
    (x : Option String) : Prop :=
  known d x ∨ ∃ hub, .info hub ∈ sentTo (g'.sent.drop g.sent.length) d ∧ hub.id = x

theorem InStep.trans (h₁ : InStep known g g₁) (h₂ : InStep (Told known g g₁) g₁ g')
    (hreg : ∀ d, Registered g' d → Registered g₁ d) : InStep known g g' := by
  obtain ⟨new₁, hnew₁⟩ := h₁.sent
  obtain ⟨new₂, hnew₂⟩ := h₂.sent
  refine ⟨⟨new₁ ++ new₂, by rw [hnew₂, hnew₁, List.append_assoc]⟩, fun d x b hb hd hx h => ?_⟩
  have htold₁ := h₁.told d x b hb (hreg d hd)
  have htold₂ := h₂.told d x (holds x b (sentTo new₁ d)) (fun hholds => ?_) hd hx
  · rw [hnew₁, List.drop_left] at htold₁
    rw [hnew₂, List.drop_left] at htold₂
    rw [hnew₂, hnew₁, List.append_assoc, List.drop_left, sentTo_append, holds_append] at h
    obtain ⟨hb, hx₁⟩ := htold₂ h
    exact htold₁ hx₁ hb
  · by_cases hinfo : ∃ hub, .info hub ∈ sentTo new₁ d ∧ hub.id = x
    · rw [Told, hnew₁, List.drop_left]
      exact Or.inr hinfo
    · exact Or.inl (hb (holds_le (fun hub hmem heq => hinfo ⟨hub, hmem, heq⟩) hholds))

theorem Entered.inStep (he : Entered message client g g') : InStep known g g' := by
  obtain ⟨new, hsent, hnew⟩ := he.sent
  refine ⟨⟨new, hsent⟩, fun d x b _ _ hx h => ⟨?_, fun hmem => hx (he.kept hmem)⟩⟩
  rw [hsent, List.drop_left] at h
  refine holds_le (fun hub hmem heq => hx ?_) h
  rw [← heq]
  exact (hnew d hub (mem_sentTo.mp hmem)).1

theorem Entered.registered (he : Entered message client g g') {d : TcpClient} (hd : Registered g' d) :
    Registered g d ∨ client = some d ∧ ∃ m, message = .ok (some (.info m)) := by
  obtain ⟨x', hx', hclient⟩ := hd
  rcases he.entries x' hx' d hclient with ⟨x, hx, _, hc⟩ | ⟨hc, m, hm, _⟩
  · exact Or.inl ⟨x, hx, hc⟩
  · exact Or.inr ⟨hc, m, hm⟩

theorem Tidy.entered (ht : Tidy name opened g) (he : Entered message client g g')
    (hpeer : ∀ c ∈ client, g.socket c ≠ .closed)
    (hown : ∀ c m, client = some c → message = .ok (some (.info m)) → Owns name opened c m.id) :
    Tidy name opened g' where
  nodup := he.nodup ht.nodup
  owned x' hx' c hc := by
    rcases he.entries x' hx' c hc with ⟨x, hx, hid, hclient⟩ | ⟨hclient, m, hm, hid⟩
    · rw [← hid]
      exact ht.owned x hx c hclient
    · rw [hid]
      exact hown c m hclient hm
  alive c hc := by
    rw [he.sockets.1]
    rcases he.registered hc with hc | ⟨hc, _⟩
    · exact ht.alive c hc
    · exact hpeer c hc

theorem Tidy.under_inj (ht : Tidy name opened g) {x : Option String} {d : TcpClient} (hc : Under g c x)
    (hd : Under g d x) : c = d := by
  obtain ⟨h, hh, hclient, hid⟩ := hc
  obtain ⟨h', hh', hclient', hid'⟩ := hd
  obtain rfl := List.inj_on_of_nodup_map ht.nodup hh hh' (hid.trans hid'.symm)
  exact Option.some.inj (hclient.symm.trans hclient')

/-- **`Disconnect`** keeps the others in step, if those are told that know of the hub. -/
theorem disconnect_inStep (hname : ∀ i, (name i).isSome = true) (ht : Tidy name opened g)
    (htells : ∀ x, Under g c x → ∀ d, d ≠ c → Registered g d → known d x → d ∈ notified g x) :
    Tidy name opened (g.disconnect c).state ∧ InStep known g (g.disconnect c).state ∧
      ∀ d, Registered (g.disconnect c).state d → Registered g d := by
  by_cases hreg : Registered g c
  · obtain ⟨hubInfo, hdrops⟩ := disconnect_drops hreg (ht.alive c hreg)
      (fun x hx y hy hxc hyc => (ht.owned x hx c hxc).unique (ht.owned y hy c hyc)) ht.nodup
    have hsub := disconnect_sublist c g
    have hback : ∀ d, Registered (g.disconnect c).state d → Registered g d := by
      rintro d ⟨x, hx, hd⟩
      exact ⟨x, hsub.subset hx, hd⟩
    have hid : hubInfo.id.isSome = true := by
      obtain ⟨i, _, hi⟩ := ht.owned hubInfo hdrops.mem c hdrops.client
      rw [hi]
      exact hname i
    refine ⟨⟨(hsub.map _).nodup ht.nodup, fun x hx d hd => ht.owned x (hsub.subset hx) d hd,
      fun d hd => ?_⟩, ⟨⟨_, hdrops.told⟩, fun d x b hb hd hx h => ?_⟩, hback⟩
    · rw [hdrops.socket d fun heq => hdrops.unregistered (heq ▸ hd)]
      exact ht.alive d (hback d hd)
    · rw [hdrops.told, List.drop_left] at h
      have hsilent : ∀ hub, BaseMessage.info hub ∈
          sentTo ((notified g hubInfo.id).map (Sent.tcp · (disconnected hubInfo))) d → hub.id ≠ x := by
        intro hub hmem
        obtain ⟨e, _, he⟩ := List.mem_map.mp (mem_sentTo.mp hmem)
        cases he
      have hbefore := holds_le hsilent h
      refine ⟨hbefore, fun hx' => ?_⟩
      rcases hdrops.others x hx' with rfl | hx'
      · -- the one that left: a client that knows of it is told
        have hne : d ≠ c := fun heq => hdrops.unregistered (heq ▸ hd)
        have hnotified := htells hubInfo.id ⟨hubInfo, hdrops.mem, hdrops.client, rfl⟩ d hne (hback d hd)
          (hb hbefore)
        have hleft : left hubInfo.id ∈
            sentTo ((notified g hubInfo.id).map (Sent.tcp · (disconnected hubInfo))) d :=
          mem_sentTo.mpr (List.mem_map_of_mem hnotified)
        have hforgotten : holds hubInfo.id false _ = true := (holds_of_left hid hleft).symm.trans h
        cases holds_le hsilent hforgotten
      · exact hx hx'
  · rw [disconnect_unregistered hreg]
    exact ⟨ht, .refl g, fun d hd => hd⟩

variable (fmt) in
theorem tcp_inStep (message : Except Exception (Option BaseMessage))
    (hname : ∀ i, (name i).isSome = true) (ht : Tidy name opened g)
    (hconn : g.connected c = true)
    (hown : ∀ m, message = .ok (some (.info m)) → Owns name opened c m.id)
    (htells : (attempt fmt message .Tcp none (some c) g).threw = true →
      ∀ x, (Under g c x ∨ ∃ m, message = .ok (some (.info m)) ∧ m.id = x) →
        ∀ d, d ≠ c → Registered g d → known d x → d ∈ notified g x) :
    Tidy name opened (Gateway.step fmt g (.tcp c message)) ∧
      InStep known g (Gateway.step fmt g (.tcp c message)) ∧
      ∀ d, Registered (Gateway.step fmt g (.tcp c message)) d →
        Registered g d ∨ some c = some d ∧ ∃ m, message = .ok (some (.info m)) := by
  have hpeer := GatewayManager.open_of_connected hconn
  have he : Entered message (some c) g (attempt fmt message .Tcp none (some c) g).state :=
    entered_attempt .Tcp none hpeer
  have ht' := ht.entered he hpeer fun d m hd hm => by
    rw [← Option.some.inj hd]
    exact hown m hm
  rw [Gateway.step, if_pos hconn, tcpRound]
  cases ha : attempt fmt message .Tcp none (some c) g with
  | done g₁ =>
    rw [ha] at he ht'
    exact ⟨ht', he.inStep, fun d hd => he.registered hd⟩
  | thrown e g₁ =>
    rw [ha] at he ht' htells
    have htells₁ : ∀ x, Under g₁ c x → ∀ d, d ≠ c → Registered g₁ d → Told known g g₁ d x →
        d ∈ notified g₁ x := by
      rintro x hx d hne hd (hknown | ⟨hub, hhub, rfl⟩)
      · -- it was known before, and is the hub under the client or the one that sent the message
        obtain ⟨h, hh, hclient, rfl⟩ := hx
        have hunder : Under g c h.id ∨ ∃ m, message = .ok (some (.info m)) ∧ m.id = h.id := by
          rcases he.entries h hh c hclient with ⟨h', hh', hid, hc⟩ | ⟨_, m, hm, hid⟩
          · exact Or.inl ⟨h', hh', hc, hid⟩
          · exact Or.inr ⟨m, hm, hid.symm⟩
        have hsame : notified g₁ h.id = notified g h.id :=
          he.others h.id fun m hm => (hown m hm).unique (ht'.owned h hh c hclient)
        have hbefore : Registered g d := by
          refine (he.registered hd).resolve_right fun hself => hne ?_
          exact (Option.some.inj hself.1).symm
        rw [hsame]
        exact htells rfl h.id hunder d hne hbefore hknown
      · obtain ⟨new, hsent, hnew⟩ := he.sent
        have hsent' : g₁.sent = g.sent ++ new := hsent
        rw [hsent', List.drop_left] at hhub
        refine (hnew d hub (mem_sentTo.mp hhub)).2.resolve_left fun hu => hne ?_
        exact ht'.under_inj hu hx
    obtain ⟨htidy, hstep, hback⟩ := disconnect_inStep hname ht' htells₁
    exact ⟨htidy, he.inStep.trans hstep hback, fun d hd => he.registered (hback d hd)⟩

end

end Blockcore.Network.Links
