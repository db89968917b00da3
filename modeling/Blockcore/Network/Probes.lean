import Blockcore.Network.Traffic

/-!
# Who answered a probe

`FindReachableEndpoint` may settle on an endpoint that nobody answered at (`Reachability`).  But it
never settles on a hub that did not answer: a response names the hub that made it, hubs make
them only of requests they take, and a request says where it came from.

`Credible` is what that comes to in one hub, for whichever ids its responses may name: a call
only settles, and a connection is only started, with such a hub.  `started_answered` is
about all of them: whenever a hub tells that a connection was started, it has sent a probe to where
the other hub is, and that hub has replied to it.
-/

namespace Blockcore.Network.Links.Probes

open Lib Networking Gateway Hub

/-! ### One hub -/

def settled : CallPc → Bool
  | .lanReceived _ _ => true
  | .wanReceived _ => true
  | .returned (some _) => true
  | _ => false

/-- Only such hubs have responded, were settled on, or are told to be connected. -/
structure Credible (K : Option String → Prop) (h : HubManager) : Prop where
  responses : ∀ a ∈ h.ackResponces, K a.2.recipientId
  calls : ∀ call ∈ h.calls, settled call.pc = true → K (h.hubInfo call.hubInfo).id
  made : ∀ call ∈ h.calls, call.hubInfo < h.connections.next
  lists : h.connections.Made
  started : ∀ data endpoint, .publish (.connectionStarted data endpoint) ∈ h.acts → K data.id

section

variable {K K' : Option String → Prop} {fmt : TextFormat} {h h' : HubManager}

theorem Credible.mono (hc : Credible K h) (hK : ∀ x, K x → K' x) : Credible K' h where
  responses a ha := hK _ (hc.responses a ha)
  calls call hcall hs := hK _ (hc.calls call hcall hs)
  made := hc.made
  lists := hc.lists
  started data endpoint hmem := hK _ (hc.started data endpoint hmem)

theorem Credible.of_eq (hc : Credible K h) (hconn : h'.connections = h.connections)
    (hcalls : h'.calls = h.calls) (hacks : ∀ a ∈ h'.ackResponces, a ∈ h.ackResponces) (acts : List Act)
    (hacts : h'.acts = h.acts ++ acts)
    (hnew : ∀ data endpoint, .publish (.connectionStarted data endpoint) ∈ acts → K data.id) :
    Credible K h' where
  responses a ha := hc.responses a (hacks a ha)
  calls call hcall hs := by
    rw [hcalls] at hcall
    rw [HubManager.hubInfo, hconn]
    exact hc.calls call hcall hs
  made call hcall := by
    rw [hcalls] at hcall
    rw [hconn]
    exact hc.made call hcall
  lists := by
    rw [hconn]
    exact hc.lists
  started data endpoint hmem := by
    rw [hacts, List.mem_append] at hmem
    rcases hmem with hmem | hmem
    · exact hc.started data endpoint hmem
    · exact hnew data endpoint hmem

theorem Credible.same (hc : Credible K h) (hconn : h'.connections = h.connections)
    (hcalls : h'.calls = h.calls) (hacks : ∀ a ∈ h'.ackResponces, a ∈ h.ackResponces)
    (hacts : h'.acts = h.acts) : Credible K h' :=
  hc.of_eq hconn hcalls hacks [] (by rw [hacts, List.append_nil]) fun _ _ hmem => by cases hmem

theorem Credible.publish (hc : Credible K h) {event : BaseEvent}
    (he : ∀ data endpoint, event = .connectionStarted data endpoint → K data.id) :
    Credible K (h.publish event) := by
  refine hc.of_eq rfl rfl (fun a ha => ha) [.publish event] rfl fun data endpoint hmem => he data endpoint ?_
  exact ((Act.publish.injEq ..).mp (List.mem_singleton.mp hmem)).symm

theorem Credible.sendMessageUDP (hc : Credible K h) (entity : Entity) (endpoint : IPEndPoint) :
    Credible K (h.sendMessageUDP entity endpoint).1 :=
  hc.of_eq rfl rfl (fun a ha => ha) [.sendUDP entity.toMessage endpoint] rfl fun _ _ hmem => by simp at hmem

theorem Credible.sendMessageTCP (hc : Credible K h) (message : BaseMessage) :
    Credible K (h.sendMessageTCP message) := by
  rw [HubManager.sendMessageTCP]
  split
  · exact hc.of_eq rfl rfl (fun a ha => ha) [.sendTCP message] rfl fun _ _ hmem => by simp at hmem
  · exact hc

theorem Credible.store (hc : Credible K h) {r : Ref} {hubInfo : HubInfo}
    (hid : hubInfo.id = (h.hubInfo r).id) : Credible K (h.store r hubInfo) where
  responses := hc.responses
  calls call hcall hs := by
    have hsame : ((h.store r hubInfo).hubInfo call.hubInfo).id = (h.hubInfo call.hubInfo).id :=
      ConnectionManager.store_heap_field HubInfo.id hid call.hubInfo
    rw [hsame]
    exact hc.calls call hcall hs
  made := hc.made
  lists := hc.lists.store r hubInfo
  started := hc.started

theorem Credible.addConnection (hc : Credible K h) (hubInfo : HubInfo) :
    Credible K { h with connections := h.connections.addConnection hubInfo } where
  responses := hc.responses
  calls call hcall hs := by
    have hne : call.hubInfo ≠ h.connections.next := Nat.ne_of_lt (hc.made call hcall)
    show K ((Function.update h.connections.heap h.connections.next hubInfo) call.hubInfo).id
    rw [Function.update_of_ne hne]
    exact hc.calls call hcall hs
  made call hcall := Nat.lt_succ_of_lt (hc.made call hcall)
  lists := hc.lists.addConnection hubInfo
  started := hc.started

theorem Credible.find (hc : Credible K h) (caller : Caller) {r : Ref} (hr : r < h.connections.next) :
    Credible K (h.findReachableEndpoint caller r) where
  responses := hc.responses
  calls call hcall hs := by
    rcases List.mem_append.mp hcall with hcall | hcall
    · exact hc.calls call hcall hs
    · rw [List.mem_singleton.mp hcall] at hs
      cases hs
  made call hcall := by
    rcases List.mem_append.mp hcall with hcall | hcall
    · exact hc.made call hcall
    · rw [List.mem_singleton.mp hcall]
      exact hr
  lists := hc.lists
  started data endpoint hmem := by
    rcases List.mem_append.mp hmem with hmem | hmem
    · exact hc.started data endpoint hmem
    · simp at hmem

theorem Credible.connectToClient (hc : Credible K h) {r : Ref} (hr : r < h.connections.next) :
    Credible K (h.connectToClient r) := by
  refine (hc.sendMessageTCP _).find .connectToClient ?_
  rwa [HubManager.sendMessageTCP_connections]

theorem Credible.publishUpdated (hc : Credible K h) {r : Ref} (hr : r < h.connections.next) :
    Credible K (h.publishUpdated r) := by
  have hpublish : Credible K (h.publish (.connectionUpdated (h.hubInfo r))) :=
    hc.publish fun _ _ heq => by cases heq
  rw [HubManager.publishUpdated]
  split
  · exact hpublish.connectToClient hr
  · exact hpublish

/-! ### A call goes on -/

theorem Credible.goto (hc : Credible K h) (t : Nat) {pc : CallPc}
    (hpc : settled pc = true → ∀ call, h.calls[t]? = some call → K (h.hubInfo call.hubInfo).id) :
    Credible K (h.goto t pc) := by
  have hcall : ∀ call ∈ (h.goto t pc).calls, call ∈ h.calls ∨
      ∃ old, h.calls[t]? = some old ∧ call = { old with pc := pc } := by
    intro call hmem
    obtain ⟨k, hk⟩ := List.mem_iff_getElem?.mp hmem
    have hk : (h.calls.modify t fun call => { call with pc := pc })[k]? = some call := hk
    rw [List.getElem?_modify, Option.map_eq_map] at hk
    obtain ⟨old, hold, heq⟩ := Option.map_eq_some_iff.mp hk
    by_cases htk : t = k
    · subst htk
      rw [if_pos rfl] at heq
      exact Or.inr ⟨old, hold, heq.symm⟩
    · rw [if_neg htk] at heq
      exact Or.inl (heq ▸ List.mem_of_getElem? hold)
  refine ⟨hc.responses, fun call hmem hs => ?_, fun call hmem => ?_, hc.lists, hc.started⟩
  · rcases hcall call hmem with hold | ⟨old, hold, rfl⟩
    · exact hc.calls call hold hs
    · exact hpc hs old hold
  · rcases hcall call hmem with hold | ⟨old, hold, rfl⟩
    · exact hc.made call hold
    · exact hc.made old (List.mem_of_getElem? hold)

theorem Credible.accept (hc : Credible K h) (r : Ref) (type : ConnectionTypes) (response : Nat) :
    Credible K (h.accept r type response) := by
  have hstore : Credible K (h.store r { h.hubInfo r with connectionType := type }) := hc.store rfl
  exact hstore.same rfl rfl (fun a ha => List.mem_of_mem_eraseP ha) rfl

/-- **A call goes on**: it settles on nobody who has not responded. -/
theorem Credible.advance (hc : Credible K h) {t : Nat} (hs : h.advance t = some h') : Credible K h' := by
  cases hcall : h.calls[t]? with
  | none => simp [HubManager.advance, hcall] at hs
  | some call =>
    obtain ⟨caller, r, pc⟩ := call
    have hmem := List.mem_of_getElem? hcall
    have hsearching : ∀ {h'' : HubManager} {pc' : CallPc}, Credible K h'' → settled pc' = false →
        some (h''.goto t pc') = some h' → Credible K h' := by
      intro h'' pc' hc'' hpc' heq
      rw [← Option.some.inj heq]
      exact hc''.goto t fun hs => by rw [hpc'] at hs; cases hs
    -- a response was found, of the hub that the call is for
    have hfound : ∀ {response : Nat × Ack} {pc' : CallPc}, h.getAck (h.hubInfo r).id = some response →
        some (h.goto t pc') = some h' → Credible K h' := by
      intro response pc' hget heq
      rw [← Option.some.inj heq]
      refine hc.goto t fun _ call' hcall' => ?_
      obtain rfl := Option.some.inj (hcall.symm.trans hcall')
      have hid : response.2.recipientId = (h.hubInfo r).id := by simpa using List.find?_some hget
      show K (h.hubInfo r).id
      rw [← hid]
      exact hc.responses response (List.mem_of_find?_eq_some hget)
    have hkept : ∀ {pc' : CallPc} {type : ConnectionTypes} {response : Nat}, K (h.hubInfo r).id →
        some ((h.accept r type response).goto t pc') = some h' → Credible K h' := by
      intro pc' type response hK heq
      rw [← Option.some.inj heq]
      refine (hc.accept r type response).goto t fun _ call' hcall' => ?_
      obtain rfl := Option.some.inj (hcall.symm.trans hcall')
      have hsame : ((h.accept r type response).hubInfo r).id = (h.hubInfo r).id :=
        ConnectionManager.store_heap_field (s := h.connections)
          (h := { h.hubInfo r with connectionType := type }) HubInfo.id rfl r
      rw [hsame]
      exact hK
    cases pc with
    | lan ip =>
      simp only [HubManager.advance, hcall] at hs
      split at hs
      · exact hsearching hc rfl hs
      · split at hs
        · split at hs <;> exact hsearching hc rfl hs
        · exact hsearching hc rfl hs
    | lanTry ip endpoint i =>
      simp only [HubManager.advance, hcall] at hs
      split at hs
      · exact hsearching (hc.sendMessageUDP _ endpoint) rfl hs
      · exact hsearching hc rfl hs
    | lanSleep ip endpoint i =>
      simp only [HubManager.advance, hcall] at hs
      split at hs
      · exact hsearching hc rfl hs
      · next hget => exact hfound hget hs
    | lanReceived endpoint response =>
      simp only [HubManager.advance, hcall] at hs
      exact hkept (hc.calls _ hmem rfl) hs
    | wan =>
      simp only [HubManager.advance, hcall] at hs
      split at hs <;> exact hsearching hc rfl hs
    | wanTry i =>
      simp only [HubManager.advance, hcall] at hs
      split at hs
      · split at hs
        · exact hsearching hc rfl hs
        · next endpoint _ => exact hsearching (hc.sendMessageUDP _ endpoint) rfl hs
      · exact hsearching hc rfl hs
    | wanSleep i =>
      simp only [HubManager.advance, hcall] at hs
      split at hs
      · exact hsearching hc rfl hs
      · next hget => exact hfound hget hs
    | wanReceived response =>
      simp only [HubManager.advance, hcall] at hs
      split at hs
      · exact hsearching hc rfl hs
      · exact hkept (hc.calls _ hmem rfl) hs
    | returned endpoint =>
      cases endpoint with
      | none =>
        simp only [HubManager.advance, hcall] at hs
        exact hsearching hc rfl hs
      | some endpoint =>
        simp only [HubManager.advance, hcall] at hs
        have hK : K (h.hubInfo r).id := hc.calls _ hmem rfl
        have hstarted : Credible K (h.publish (.connectionStarted (h.hubInfo r) endpoint)) := by
          refine hc.publish fun data endpoint heq => ?_
          cases heq
          exact hK
        refine hsearching ?_ rfl hs
        rw [HubManager.resume]
        split
        · exact hstarted
        · exact hstarted.publishUpdated (hc.made _ hmem)
    | threw e => simp [HubManager.advance, hcall] at hs
    | ended => simp [HubManager.advance, hcall] at hs

/-! ### Handlers -/

/-- **A message is taken**; if it is a response, it is from such a hub. -/
theorem Credible.listen (hc : Credible K h) (m : BaseMessage) (protocol : ProtocolType)
    (endpoint : Option IPEndPoint) (hm : ∀ msg, m = .ack msg → msg.response = true → K msg.recipientId) :
    Credible K (h.listen fmt (.ok (some m)) protocol endpoint) := by
  have hknown : ∀ {id : Option String} {r : Ref}, h.connections.getConnection id = some r →
      r < h.connections.next := fun hget => hc.lists.lt _ (List.mem_of_find?_eq_some hget)
  have hother : ∀ {event : BaseEvent}, (∀ data endpoint, event ≠ .connectionStarted data endpoint) →
      ∀ {h' : HubManager}, Credible K h' → Credible K (h'.publish event) :=
    fun hne _ hc' => hc'.publish fun data endpoint heq => absurd heq (hne data endpoint)
  rw [HubManager.listen_some, process_hubMaps]
  cases m with
  | ack msg =>
    simp only
    rw [processAck]
    split
    · next hresponse =>
      have hK := hm msg rfl hresponse
      refine ⟨fun a ha => ?_, hc.calls, hc.made, hc.lists, hc.started⟩
      rcases List.mem_append.mp ha with ha | ha
      · exact hc.responses a ha
      · rw [List.mem_singleton.mp ha]
        exact hK
    · split
      · exact hc
      · next r hget =>
        split
        · next known source _ =>
          refine Credible.sendMessageUDP ?_ _ _
          have hport : Credible K (learnPort r known source h) := by
            rw [learnPort]
            split
            · have hstore : Credible K (h.store r { h.hubInfo r with
                  externalEndpoint := some { known with port := source.port } }) := hc.store rfl
              exact hstore.publishUpdated (hknown hget)
            · exact hc
          rw [learnAddress]
          split
          · exact hport.store rfl
          · exact hport
        · exact hc
  | info msg =>
    simp only
    rw [Hub.processInfo]
    split
    · split
      · exact hc
      · exact hother (fun _ _ heq => by cases heq) (hc.addConnection _)
    · next r hget =>
      have hid := update_state_id fmt (h.hubInfo r) msg
      split
      · next hu =>
        rw [hu] at hid
        exact hc.store hid
      · next hu =>
        rw [hu] at hid
        exact (hc.store hid).publishUpdated (hknown hget)
  | msg msg =>
    simp only
    rw [processMessage]
    split
    · exact hother (fun _ _ heq => by cases heq) hc
    · split
      · exact hother (fun _ _ heq => by cases heq) hc
      · exact hc
  | notification item =>
    simp only
    rw [processNotification]
    split
    · split
      · exact hc
      · split
        · exact hc
        · next r _ =>
          refine hother (fun _ _ heq => by cases heq) ?_
          exact ⟨hc.responses, hc.calls, hc.made, hc.lists.removeConnection r, hc.started⟩
    · rw [HubManager.disconnectedGateway]
      split
      · refine hother (fun _ _ heq => by cases heq) ?_
        exact ⟨hc.responses, hc.calls, hc.made, ⟨(fun r hr => by cases hr), List.nodup_nil⟩, hc.started⟩
      · exact hc
  | req msg =>
    simp only
    rw [Hub.processReq]
    split
    · exact hc
    · next r hget =>
      exact (hother (fun _ _ heq => by cases heq) hc).find _ (hknown hget)
  | keepAlive _ => exact hc
  | broadcast _ => exact hc
  | test _ => exact hc

theorem Credible.own (hc : Credible K h) {a : Events.Step} (hown : ownStep a = true)
    (hr : ∀ r, a = .connectToClient r → r < h.connections.next) : Credible K (Events.step fmt h a) := by
  have hother : ∀ {event : BaseEvent}, (∀ data endpoint, event ≠ .connectionStarted data endpoint) →
      ∀ {h' : HubManager}, Credible K h' → Credible K (h'.publish event) :=
    fun hne _ hc' => hc'.publish fun data endpoint heq => absurd heq (hne data endpoint)
  cases a with
  | receive message protocol endpoint => cases hown
  | advance t =>
    rw [Events.step]
    cases hs : h.advance t with
    | none => exact hc
    | some h' => exact hc.advance hs
  | connectToClient r => exact hc.connectToClient (hr r rfl)
  | connectGateway serverEndpoint localEndPoint => cases hown
  | connectedGateway => exact hother (fun _ _ heq => by cases heq) (hc.sendMessageTCP _)
  | refusedGateway serverEndpoint => exact hother (fun _ _ heq => by cases heq) hc
  | disconnectedGateway =>
    rw [Events.step, HubManager.disconnectedGateway]
    split
    · exact ⟨hc.responses, hc.calls, hc.made, ⟨(fun r hr => by cases hr), List.nodup_nil⟩, hc.started⟩
    · exact hc
  | network connected writeFails => exact hc.same rfl rfl (fun a ha => ha) rfl

theorem Credible.connectGateway (hc : Credible K h) (serverEndpoint : IPEndPoint) (localEndPoint : Option IPEndPoint) :
    Credible K (h.connectGateway fmt serverEndpoint localEndPoint) :=
  hc.of_eq rfl rfl (fun a ha => ha) [.sendUDP (h.localHubInfo.simplified.toMessage fmt) serverEndpoint]
    rfl fun _ _ hmem => by simp at hmem

end

/-! ### All hubs -/

/-- Hub `i` sent a probe to where hub `k` is, and hub `k` replied to it. -/
structure Answered {ι : Type} (name : ι → Option String) (address : ι → IPEndPoint) (hub : ι → HubManager)
    (i k : ι) : Prop where
  probed : .sendUDP (Ack.new (name i)).toMessage (address k) ∈ (hub i).acts
  replied : .sendUDP (.ack { id := name i, recipientId := name k, response := true }) (address i) ∈
    (hub k).acts

/-- The ids of the hubs that answered hub `i`. -/
def Answers {ι : Type} (name : ι → Option String) (address : ι → IPEndPoint) (hub : ι → HubManager) (i : ι)
    (x : Option String) : Prop := ∃ k, x = name k ∧ Answered name address hub i k

/-- A datagram is a probe that a hub sent, or a reply of one to such a probe; or it is about
something else. -/
structure Genuine {ι : Type} (name : ι → Option String) (address : ι → IPEndPoint) (hub : ι → HubManager)
    (d : Datagram) : Prop where
  probe : ∀ m, d.message = .ack m → m.response = false →
    ∃ i, d.source = address i ∧ m = { id := name i } ∧ .sendUDP (.ack m) d.target ∈ (hub i).acts
  reply : ∀ m, d.message = .ack m → m.response = true →
    ∃ i, d.target = address i ∧ Answers name address hub i m.recipientId

structure Inv {ι : Type} (name : ι → Option String) (address : ι → IPEndPoint) (s : State ι) : Prop
    extends Base name s, Wire s where
  hubs : ∀ i, Credible (Answers name address s.hub i) (s.hub i)
  genuine : ∀ d ∈ s.datagrams, Genuine name address s.hub d

/-- Hubs that have just been started. -/
structure Started {ι : Type} (s : State ι) : Prop extends Fresh s where
  acts : ∀ i, (s.hub i).acts = []
  calls : ∀ i, (s.hub i).calls = []
  ackResponces : ∀ i, (s.hub i).ackResponces = []

/-- A hub connects only to objects it has made. -/
def Sensible {ι : Type} (s : State ι) : Label ι → Prop
  | .act i (.connectToClient r) => r < (s.hub i).connections.next
  | _ => True

section

variable {ι : Type} {name : ι → Option String} {address : ι → IPEndPoint} {server : IPEndPoint}
  {fmt : TextFormat} {s s' : State ι} {hub hub' : ι → HubManager} {i k : ι}

theorem Answered.mono (ha : Answered name address hub i k)
    (hacts : ∀ j, ∀ act ∈ (hub j).acts, act ∈ (hub' j).acts) : Answered name address hub' i k :=
  ⟨hacts i _ ha.probed, hacts k _ ha.replied⟩

theorem Answers.mono {x : Option String} (ha : Answers name address hub i x)
    (hacts : ∀ j, ∀ act ∈ (hub j).acts, act ∈ (hub' j).acts) : Answers name address hub' i x := by
  obtain ⟨k, hk, hanswered⟩ := ha
  exact ⟨k, hk, hanswered.mono hacts⟩

theorem Genuine.mono {d : Datagram} (hg : Genuine name address hub d)
    (hacts : ∀ j, ∀ act ∈ (hub j).acts, act ∈ (hub' j).acts) : Genuine name address hub' d := by
  refine ⟨fun m hm hr => ?_, fun m hm hr => ?_⟩
  · obtain ⟨i, hsource, hmessage, hsent⟩ := hg.probe m hm hr
    exact ⟨i, hsource, hmessage, hacts i _ hsent⟩
  · obtain ⟨i, htarget, hanswers⟩ := hg.reply m hm hr
    exact ⟨i, htarget, hanswers.mono hacts⟩

theorem inv_started (hs : Started s) : Inv (fun i => (s.hub i).localHubInfo.id) address s := by
  refine ⟨(inv_fresh hs.toFresh).toBase, wire_fresh hs.toFresh, fun i => ?_, fun d hd => ?_⟩
  · refine ⟨fun a ha => ?_, fun call hcall => ?_, fun call hcall => ?_, ?_, fun data endpoint hmem => ?_⟩
    · rw [hs.ackResponces] at ha
      cases ha
    · rw [hs.calls] at hcall
      cases hcall
    · rw [hs.calls] at hcall
      cases hcall
    · rw [hs.empty]
      exact ConnectionManager.made_empty
    · rw [hs.acts] at hmem
      cases hmem
  · rw [hs.datagrams] at hd
    cases hd

/-- **The gateway takes a step**: it sends neither probes nor replies. -/
theorem Inv.setGateway (hi : Inv name address s) {message : Option BaseMessage} {g : GatewayManager}
    (hspoken : Says (Said message) s.gateway g) (hb : Base name (s.setGateway server g)) :
    Inv name address (s.setGateway server g) := by
  refine ⟨hb, hi.toWire.setGateway hspoken, hi.hubs, fun d hd => ?_⟩
  rcases List.mem_append.mp hd with hd | hd
  · exact (hi.genuine d hd).mono fun _ _ hact => hact
  · have hsaid := hspoken.drop (mem_gatewayDatagrams.mp hd).2
    have hnone : ∀ m, d.message ≠ .ack m := by
      intro m hm
      rw [hm] at hsaid
      cases hsaid
    exact ⟨fun m hm => absurd hm (hnone m), fun m hm => absurd hm (hnone m)⟩

theorem Inv.popped (hi : Inv name address s) {toHub : TcpClient → List BaseMessage} {datagrams : List Datagram}
    {taken : Option BaseMessage} (hb : ∀ d ∈ datagrams, d ∈ s.datagrams)
    (hw : Wire { s with toHub := toHub, datagrams := datagrams, taken := taken }) :
    Inv name address { s with toHub := toHub, datagrams := datagrams, taken := taken } :=
  ⟨⟨hi.id, hi.sound, hi.link, hi.infos, hi.tidy⟩, hw, hi.hubs, fun d hd =>
    (hi.genuine d (hb d hd)).mono fun _ _ hact => hact⟩

variable [DecidableEq ι]

/-- **A hub takes a step**: what it sends is a probe, or a reply to one it has taken. -/
theorem Inv.setHub (hi : Inv name address s) {P : BaseMessage → Prop} {i : ι} {h : HubManager}
    {new : List (BaseMessage × IPEndPoint)} (hp : Puts P (s.hub i) h new)
    (hb : Base name (s.setHub address i h)) (hw : Wire (s.setHub address i h))
    (hcred : Credible (Answers name address s.hub i) (s.hub i) → Credible (Answers name address s.hub i) h)
    (hnew : ∀ d ∈ new, ∀ m, d.1 = .ack m → m = { id := name i } ∨ ∃ k, d.2 = address k ∧
      m = { id := name k, recipientId := name i, response := true } ∧
        .sendUDP (Ack.new (name k)).toMessage (address i) ∈ (s.hub k).acts) :
    Inv name address (s.setHub address i h) := by
  obtain ⟨more, hmore, _⟩ := hp.writes
  have hacts : ∀ j, ∀ act ∈ (s.hub j).acts, act ∈ ((s.setHub address i h).hub j).acts := by
    intro j act hact
    show act ∈ (Function.update s.hub i h j).acts
    by_cases hj : j = i
    · subst hj
      rw [Function.update_self, hmore]
      exact List.mem_append_left _ hact
    · rwa [Function.update_of_ne hj]
  have hself : (s.setHub address i h).hub i = h := Function.update_self ..
  refine ⟨hb, hw, fun j => ?_, fun d hd => ?_⟩
  · have hmono : ∀ x, Answers name address s.hub j x →
        Answers name address (s.setHub address i h).hub j x :=
      fun x hx => hx.mono hacts
    by_cases hj : j = i
    · subst hj
      rw [hself]
      exact (hcred (hi.hubs j)).mono hmono
    · have hother : (s.setHub address i h).hub j = s.hub j := Function.update_of_ne hj ..
      rw [hother]
      exact (hi.hubs j).mono hmono
  · rcases List.mem_append.mp hd with hd | hd
    · exact (hi.genuine d hd).mono hacts
    · obtain ⟨hsource, hmem⟩ := hp.datagrams hd
      have hsent : .sendUDP d.message d.target ∈ h.acts := by
        have hdatagrams : (d.message, d.target) ∈ Learning.datagrams h.acts := by
          rw [hp.sends.datagrams]
          exact List.mem_append_right _ hmem
        obtain ⟨act, hact, heq⟩ := List.mem_filterMap.mp hdatagrams
        cases act with
        | sendUDP message endpoint =>
          obtain ⟨rfl, rfl⟩ := Prod.mk.inj (Option.some.inj heq)
          exact hact
        | _ => cases heq
      refine ⟨fun m hm hr => ?_, fun m hm hr => ?_⟩
      · rcases hnew _ hmem m hm with rfl | ⟨k, _, rfl, _⟩
        · refine ⟨i, hsource, rfl, ?_⟩
          rw [hself, ← hm]
          exact hsent
        · cases hr
      · rcases hnew _ hmem m hm with rfl | ⟨k, htarget, rfl, hprobed⟩
        · cases hr
        · refine ⟨k, htarget, i, rfl, hacts k _ hprobed, ?_⟩
          rw [hself, ← hm, ← htarget]
          exact hsent

theorem Inv.step (hinj : Function.Injective address) (hi : Inv name address s) {l : Label ι}
    (hl : Sensible s l) (hs : step fmt address server s l = some s') : Inv name address s' := by
  have hb := hi.toBase.step hs
  have hw := hi.toWire.step hs
  cases stepped hs with
  | connect j localEndPoint =>
    have hi' : Inv name address (s.accept j) := by
      refine ⟨hi.toBase.accept j, ⟨hi.toHub, hi.toWire.datagrams, hi.toWire.taken⟩, hi.hubs, fun d hd => ?_⟩
      exact (hi.genuine d hd).mono fun _ _ hact => hact
    refine hi'.setHub (puts_connectGateway fmt server localEndPoint (s.hub j)) hb hw
      (fun hc => hc.connectGateway server localEndPoint) fun d hd m hm => ?_
    rw [List.mem_singleton.mp hd] at hm
    cases hm
  | @act j a hown =>
    obtain ⟨new, hputs, hprobes⟩ := puts_own fmt hown (s.hub j)
    refine hi.setHub hputs hb hw (fun hc => hc.own hown fun r hr => ?_) fun d hd m hm => Or.inl ?_
    · subst hr
      exact hl
    · rw [hprobes d hd, hi.id] at hm
      cases hm
      rfl
  | @send j message _ =>
    exact hi.setHub (puts_sendMessageTCP message (s.hub j)) hb hw (fun hc => hc.sendMessageTCP message)
      fun d hd => by cases hd
  | @receive j c message rest hlink hq _ =>
    have hi' : Inv name address { s with toHub := Function.update s.toHub c rest } :=
      hi.popped (fun d hd => hd) ⟨fun d m hm => hi.toHub d m (mem_of_update hq hm), hi.toWire.datagrams,
        hi.toWire.taken⟩
    obtain ⟨new, hputs, hreplies⟩ := puts_listen fmt message .Tcp none (s.hub j)
    have hnoack : ∀ msg, message ≠ .ack msg := by
      rintro msg rfl
      exact hi.toHub c (.ack msg) (hq ▸ List.mem_cons_self ..)
    refine hi'.setHub hputs hb hw (fun hc => hc.listen message .Tcp none fun msg hm => absurd hm (hnoack msg))
      fun d hd => ?_
    obtain ⟨msg, source, hm, _⟩ := hreplies d hd
    exact absurd hm (hnoack msg)
  | @datagram j n d hd htarget _ =>
    have hmem := List.mem_of_getElem? hd
    have hgenuine := hi.genuine d hmem
    have hi' : Inv name address { s with datagrams := s.datagrams.eraseIdx n } :=
      hi.popped (fun d hd => List.mem_of_mem_eraseIdx hd)
        ⟨hi.toHub, fun d hd => hi.toWire.datagrams d (List.mem_of_mem_eraseIdx hd), hi.toWire.taken⟩
    obtain ⟨new, hputs, hreplies⟩ := puts_listen fmt d.message .Udp (some d.source) (s.hub j)
    refine hi'.setHub hputs hb hw (fun hc => hc.listen d.message .Udp (some d.source) fun msg hm hr => ?_)
      fun e he m hm => Or.inr ?_
    · -- the response was sent to this hub, and to no other
      obtain ⟨i, haddress, hanswers⟩ := hgenuine.reply msg hm hr
      rw [hinj (htarget.symm.trans haddress)]
      exact hanswers
    · -- the reply goes to where the probe came from
      obtain ⟨msg, source, hmsg, hr, hsource, rfl⟩ := hreplies e he
      obtain ⟨i, haddress, rfl, hsent⟩ := hgenuine.probe msg hmsg hr
      refine ⟨i, (Option.some.inj hsource).symm.trans haddress, ?_, ?_⟩
      · rw [← BaseMessage.ack.inj hm, hi.id]
      · rw [← htarget]
        exact hsent
  | lose n =>
    exact hi.popped (fun d hd => List.mem_of_mem_eraseIdx hd) hw
  | network lost writeFails =>
    exact ⟨hb, hw, hi.hubs, fun d hd => (hi.genuine d hd).mono fun _ _ hact => hact⟩
  | @gatewayDatagram n d hd =>
    have hw' : Wire { s with datagrams := s.datagrams.eraseIdx n, taken := some d.message } := by
      refine ⟨hi.toHub, fun d hd => hi.toWire.datagrams d (List.mem_of_mem_eraseIdx hd), fun m hm => ?_⟩
      rw [← Option.some.inj hm]
      exact hi.toWire.datagrams d (List.mem_of_getElem? hd)
    have hi' := hi.popped (fun d hd => List.mem_of_mem_eraseIdx hd) hw'
    exact hi'.setGateway (says_step fmt (.receive d.source) s.gateway) hb
  | @gatewayHandle message htaken =>
    have hi' : Inv name address { s with taken := none } :=
      hi.popped (fun d hd => hd) ⟨hi.toHub, hi.toWire.datagrams, fun m hm => by cases hm⟩
    exact hi'.setGateway (says_step fmt (.udp (.ok (some message))) s.gateway) hb
  | @gatewayReceive c message rest hq hconn =>
    have hi' : Inv name address { s with toGateway := Function.update s.toGateway c rest } := by
      refine ⟨?_, ⟨hi.toHub, hi.toWire.datagrams, hi.toWire.taken⟩, hi.hubs, fun d hd => ?_⟩
      · exact ⟨hi.id, hi.sound, hi.link, fun d m hm => hi.infos d m (mem_of_update hq hm), hi.tidy⟩
      · exact (hi.genuine d hd).mono fun _ _ hact => hact
    exact hi'.setGateway (says_step fmt (.tcp c (.ok (some message))) s.gateway) hb
  | gatewayEnd c e => exact hi.setGateway (says_step fmt (.tcp c (.error e)) s.gateway) hb

/-- **A connection is started only with a hub that answered**: the hub has probed it where it is,
and it has replied. -/
theorem started_answered (fmt : TextFormat) (server : IPEndPoint) (hinj : Function.Injective address)
    {s₀ : State ι} {ls : List (Label ι)} (h₀ : Started s₀)
    (hrun : Reaches (Links.step fmt address server) Sensible s₀ ls s) {i : ι} {data : HubInfo}
    {endpoint : IPEndPoint}
    (hstarted : .publish (.connectionStarted data endpoint) ∈ (s.hub i).acts) :
    Answers (fun k => (s₀.hub k).localHubInfo.id) address s.hub i data.id := by
  have hinv : Inv (fun k => (s₀.hub k).localHubInfo.id) address s :=
    hrun.inv (P := fun _ s => Inv (fun k => (s₀.hub k).localHubInfo.id) address s) (inv_started h₀)
      fun _ _ _ _ hi hl hs => hi.step hinj hl hs
  exact (hinv.hubs i).started data endpoint hstarted

end

/-! ### A probe that is answered -/

theorem started_apart : Started apart where
  toFresh := fresh_apart
  acts _ := rfl
  calls _ := rfl
  ackResponces _ := rfl

theorem injective_homes : Function.Injective homes := by
  intro i j h
  revert i j
  decide

/-- `b` probes `a`, which replies, and `b` finds the response. -/
def answered : List (Label Bool) :=
  Senders.probes ++ [.datagram true 4, .datagram false 4, .act false (.advance 0), .act false (.advance 0),
    .act false (.advance 0)]

def sensible (s : State Bool) : Label Bool → Bool
  | .act i (.connectToClient r) => decide (r < (s.hub i).connections.next)
  | _ => true

theorem sensible_of_eq_true (s : State Bool) (l : Label Bool) (h : sensible s l = true) : Sensible s l := by
  cases l with
  | act i a =>
    cases a with
    | connectToClient r => exact (of_decide_eq_true h : r < (s.hub i).connections.next)
    | _ => trivial
  | _ => trivial

/-- The ids of the hubs that a hub has told were connected. -/
def connectedIds (h : HubManager) : List (Option String) :=
  h.acts.filterMap fun
    | .publish (.connectionStarted data _) => some data.id
    | _ => none

theorem mem_connectedIds {h : HubManager} {x : Option String} : x ∈ connectedIds h ↔
    ∃ data endpoint, .publish (.connectionStarted data endpoint) ∈ h.acts ∧ data.id = x := by
  rw [connectedIds, List.mem_filterMap]
  refine ⟨?_, ?_⟩
  · rintro ⟨act, hact, heq⟩
    cases act with
    | publish event =>
      cases event with
      | connectionStarted data endpoint => exact ⟨data, endpoint, hact, Option.some.inj heq⟩
      | _ => cases heq
    | _ => cases heq
  · rintro ⟨data, endpoint, hact, rfl⟩
    exact ⟨_, hact, rfl⟩

/-- `b` is connected with `a`, which answered it. -/
theorem started_answered_homes :
    ∃ s, Reaches (Links.step dottedText homes Gateway.anyEndPoint) Sensible apart answered s ∧
      connectedIds (s.hub false) = [some "a"] ∧
      Answers (fun k => (apart.hub k).localHubInfo.id) homes s.hub false (some "a") := by
  have hexec : (exec (fun s l => if sensible s l = true then
      Links.step dottedText homes Gateway.anyEndPoint s l else none) apart answered).any
        (fun s => connectedIds (s.hub false) == [some "a"]) = true := by
    decide +kernel
  obtain ⟨s, hs, hcheck⟩ := (Option.any_eq_true _ _).mp hexec
  have hconnected := beq_iff_eq.mp hcheck
  have hrun := (reaches_of_exec hs).mono sensible_of_eq_true
  obtain ⟨data, endpoint, hmem, hid⟩ := mem_connectedIds.mp (hconnected ▸ List.mem_singleton.mpr rfl)
  refine ⟨s, hrun, hconnected, ?_⟩
  rw [← hid]
  exact started_answered dottedText Gateway.anyEndPoint injective_homes started_apart hrun hmem

end Blockcore.Network.Links.Probes
