import Blockcore.Network.Steps
import Blockcore.Hub.Effects
import Blockcore.Networking.DottedText

/-!
# Who is probed on a request

`ConnectToClient` sends a `Req` with the caller's id and that of the hub it looks for;
the gateway passes it on, both ids as they are, to that hub; and that hub looks its
`RecipientId` up, which is its own id.

`Called` says of a `Req` that a hub's `ConnectToClient` made it, and
`req_called` that every `Req` under way in a run is one, so that the ids are those
of the caller and of the hub it looks for on every hop.  `requester_never_probed`
is what comes of it at the end: the handler starts a connection to whatever entry
has its own id, and never to the caller.
-/

namespace Blockcore.Network

open Lib Networking Gateway Hub

/-- `ConnectToClient` made this request: it was sent with the caller's id and that of
the hub that was then looked for. -/
def Called (h : HubManager) (m : ReqMessage) : Prop :=
  ∃ hubInfo, [.sendTCP (.req m), .findReachableEndpoint hubInfo] <:+: h.acts ∧
    m.id = h.localHubInfo.id ∧ m.recipientId = hubInfo.id

/-! ### What a hub does -/

/-- Every request sent is that of a call made with this id. -/
def Paired (id : Option String) (acts : List Act) : Prop :=
  ∀ m, .sendTCP (.req m) ∈ acts → ∃ hubInfo,
    [.sendTCP (.req m), .findReachableEndpoint hubInfo] <:+: acts ∧
      m.id = id ∧ m.recipientId = hubInfo.id

/-- A hub went on from one state to the other: it did more, and every request it
sent is that of a call. -/
structure Goes (h h' : HubManager) : Prop where
  acts : ∃ new, h'.acts = h.acts ++ new ∧ Paired h.localHubInfo.id new
  localHubInfo : h'.localHubInfo = h.localHubInfo

variable {h h' h'' : HubManager}

theorem paired_nil (id : Option String) : Paired id [] := fun m hm => by cases hm

theorem Paired.append {id : Option String} {as bs : List Act} (ha : Paired id as)
    (hb : Paired id bs) : Paired id (as ++ bs) := by
  intro m hm
  rcases List.mem_append.mp hm with hm | hm
  · obtain ⟨hubInfo, hin, hids⟩ := ha m hm
    exact ⟨hubInfo, hin.trans (List.infix_append' [] as bs), hids⟩
  · obtain ⟨hubInfo, hin, hids⟩ := hb m hm
    exact ⟨hubInfo, hin.trans ⟨as, [], by simp⟩, hids⟩

theorem Goes.refl (h : HubManager) : Goes h h := ⟨⟨[], by simp, paired_nil _⟩, rfl⟩

theorem Goes.trans (h1 : Goes h h') (h2 : Goes h' h'') : Goes h h'' := by
  obtain ⟨new, he, hp⟩ := h1.acts
  obtain ⟨new', he', hp'⟩ := h2.acts
  refine ⟨⟨new ++ new', by rw [he', he, List.append_assoc], ?_⟩, h2.localHubInfo.trans h1.localHubInfo⟩
  exact hp.append (h1.localHubInfo ▸ hp')

theorem goes_of_eq (ha : h'.acts = h.acts) (hl : h'.localHubInfo = h.localHubInfo) : Goes h h' :=
  ⟨⟨[], by rw [ha, List.append_nil], paired_nil _⟩, hl⟩

theorem goes_log (h : HubManager) {acts : List Act} (ha : ∀ m, .sendTCP (.req m) ∉ acts) :
    Goes h (h.log acts) :=
  ⟨⟨acts, rfl, fun m hm => absurd hm (ha m)⟩, rfl⟩

theorem goes_publish (h : HubManager) (event : BaseEvent) : Goes h (h.publish event) :=
  goes_log h (by simp)

theorem goes_find (h : HubManager) (caller : Caller) (r : Ref) :
    Goes h (h.findReachableEndpoint caller r) :=
  ⟨⟨[.findReachableEndpoint (h.hubInfo r)], rfl, fun m hm => by simp at hm⟩, rfl⟩

/-- **A call of `ConnectToClient`** sends its own request. -/
theorem goes_connectToClient (h : HubManager) (r : Ref) : Goes h (h.connectToClient r) := by
  rw [HubManager.connectToClient, HubManager.sendMessageTCP]
  split
  · refine ⟨⟨[.sendTCP (Req.new h.localHubInfo.id (h.hubInfo r).id).toMessage,
      .findReachableEndpoint (h.hubInfo r)], ?_, ?_⟩, rfl⟩
    · simp [HubManager.findReachableEndpoint, HubManager.log, HubManager.hubInfo]
    · intro m hm
      simp [Req.toMessage, Req.new] at hm
      subst hm
      exact ⟨h.hubInfo r, List.infix_rfl, rfl, rfl⟩
  · exact goes_find h .connectToClient r

theorem goes_effect (he : Effect h h') : Goes h h' := by
  cases he with
  | publish _ => exact goes_publish h _
  | sendMessageUDP entity endpoint => exact goes_log h (by simp)
  | findReachableEndpoint caller r => exact goes_find h caller r
  | connectToClient r => exact goes_connectToClient h r
  | store _ => exact goes_of_eq rfl rfl
  | inside hl _ ha => exact goes_of_eq ha hl

theorem goes_effects (he : Effects h h') : Goes h h' := by
  induction he with
  | refl => exact .refl h
  | tail _ he ih => exact ih.trans (goes_effect he)

theorem goes_handles {m : BaseMessage} (ht : Handles h m h') : Goes h h' := by
  cases ht with
  | effects _ he => exact goes_effects he
  | added _ _ =>
    refine Goes.trans ?_ (goes_publish ..)
    exact goes_of_eq rfl rfl
  | removed _ _ _ =>
    refine Goes.trans ?_ (goes_publish ..)
    exact goes_of_eq rfl rfl
  | cleared _ hconn =>
    refine Goes.trans ?_ (goes_publish ..)
    rw [HubManager.disconnectedGateway, if_pos hconn]
    exact goes_of_eq rfl rfl

/-- **Whatever a listener takes**, the requests sent are those of calls. -/
theorem goes_listen (fmt : TextFormat) (message : Except Exception (Option BaseMessage))
    (protocol : ProtocolType) (endpoint : Option IPEndPoint) (h : HubManager) :
    Goes h (h.listen fmt message protocol endpoint) := by
  rcases message with e | _ | message
  · exact .refl h
  · exact .refl h
  · exact goes_handles (handles_listen fmt message protocol endpoint h)

/-! ### What the gateway sends -/

/-- The message is no request but the one at hand. -/
def Relayed (message : Option BaseMessage) (m : BaseMessage) : Prop :=
  ∀ req, m = .req req → message = some (.req req)

/-- **The gateway passes requests on as they are**, and makes none. -/
theorem sends_attempt (fmt : TextFormat) (message : Except Exception (Option BaseMessage))
    (protocol : ProtocolType) (endpoint : Option IPEndPoint) (client : Option TcpClient)
    (g : GatewayManager) :
    Sends (Relayed (message.toOption.getD none)) g
      (attempt fmt message protocol endpoint client g).state := by
  by_cases hinfo : ∃ m, message = .ok (some (.info m))
  · obtain ⟨m, rfl⟩ := hinfo
    rw [attempt_info]
    exact (Sends.refl g).processInfo (fun m req h => by cases h) (fun m req h => by cases h) ..
  · obtain ⟨sent, hstate, hsent⟩ := attempt_relays fmt hinfo protocol endpoint client g
    rw [hstate]
    refine (Sends.refl g).log fun c m hm req hreq => ?_
    obtain ⟨d, m', hmessage, heq⟩ := hsent _ hm
    cases heq
    rw [hmessage, hreq]
    rfl

def taken : Gateway.Event → Option BaseMessage
  | .receive _ => none
  | .udp message => message.toOption.getD none
  | .tcp _ message => message.toOption.getD none

theorem sends_step (fmt : TextFormat) (e : Gateway.Event) (g : GatewayManager) :
    Sends (Relayed (taken e)) g (Gateway.step fmt g e) := by
  cases e with
  | receive source => exact (Sends.refl g).silent rfl
  | udp message =>
    rw [step_udp]
    exact sends_attempt ..
  | tcp client message =>
    have hn : ∀ n, Relayed (message.toOption.getD none) (.notification n) := by
      intro n req h
      cases h
    exact step_tcp_inv fmt (fun _ => sends_attempt fmt message .Tcp none (some client) g)
      (fun g' h => h.disconnect hn client) (Sends.refl g)

/-! ### On every hop -/

theorem Called.goes {m : ReqMessage} (hc : Called h m) (hg : Goes h h') : Called h' m := by
  obtain ⟨hubInfo, hin, hid, hrec⟩ := hc
  obtain ⟨new, hnew, _⟩ := hg.acts
  refine ⟨hubInfo, hin.trans ⟨[], new, by simp [hnew]⟩, ?_, hrec⟩
  rw [hid, hg.localHubInfo]

theorem Goes.called (hg : Goes h h') {m : ReqMessage} (hm : .req m ∈ sentTCP (reaction h h')) :
    Called h' m := by
  obtain ⟨new, hnew, hp⟩ := hg.acts
  rw [reaction_eq hnew, mem_sentTCP] at hm
  obtain ⟨hubInfo, hin, hid, hrec⟩ := hp m hm
  refine ⟨hubInfo, hin.trans ⟨h.acts, [], by simp [hnew]⟩, ?_, hrec⟩
  rw [hid, hg.localHubInfo]

/-- What goes to the gateway or reaches it otherwise is no request but those of
calls. -/
def Ordinary {ι : Type} : Label ι → Prop
  | .send _ message => ∀ m, message ≠ .req m
  | .gatewayDatagram message => ∀ m, message ≠ .ok (some (.req m))
  | _ => True

/-- Every request under way was called. -/
structure AllCalled {ι : Type} (s : State ι) : Prop where
  toGateway : ∀ i m, .req m ∈ s.toGateway i → Called (s.hub i) m
  toHub : ∀ i m, .req m ∈ s.toHub i → ∃ a, Called (s.hub a) m

section

variable {ι : Type} [DecidableEq ι] {fmt : TextFormat} {client : ι → TcpClient} {s s' : State ι}

theorem Called.setHub {i : ι} {h' : HubManager} (hg : Goes (s.hub i) h') {a : ι} {m : ReqMessage}
    (hc : Called (s.hub a) m) : Called ((s.setHub i h').hub a) m := by
  by_cases ha : a = i
  · subst ha
    simpa [State.setHub] using hc.goes hg
  · simpa [State.setHub, ha] using hc

theorem AllCalled.setHub (hs : AllCalled s) {i : ι} {h' : HubManager} (hg : Goes (s.hub i) h') :
    AllCalled (s.setHub i h') := by
  refine ⟨?_, ?_⟩
  · intro j m hm
    by_cases hj : j = i
    · subst hj
      simp only [State.setHub, Function.update_self, List.mem_append] at hm
      rcases hm with hm | hm
      · exact (hs.toGateway j m hm).setHub hg
      · simpa [State.setHub] using hg.called hm
    · simp only [State.setHub, Function.update_of_ne hj] at hm
      exact (hs.toGateway j m hm).setHub hg
  · intro j m hm
    obtain ⟨a, hc⟩ := hs.toHub j m hm
    exact ⟨a, hc.setHub hg⟩

theorem mem_of_update {q : ι → List BaseMessage} {i : ι} {message : BaseMessage}
    {rest : List BaseMessage} (hq : q i = message :: rest) {j : ι} {m : BaseMessage}
    (hm : m ∈ Function.update q i rest j) : m ∈ q j := by
  by_cases hj : j = i
  · subst hj
    rw [Function.update_self] at hm
    exact hq ▸ List.mem_cons_of_mem _ hm
  · rwa [Function.update_of_ne hj] at hm

omit [DecidableEq ι] in
theorem AllCalled.setGateway (hs : AllCalled s) {g' : GatewayManager} {message : Option BaseMessage}
    (hg : Sends (Relayed message) s.gateway g')
    (hm : ∀ m, message = some (.req m) → ∃ a, Called (s.hub a) m) :
    AllCalled (s.setGateway client g') := by
  refine ⟨hs.toGateway, fun i m hmem => ?_⟩
  obtain ⟨new, hnew, hP⟩ := hg
  simp only [State.setGateway, hnew, List.drop_left, List.mem_append] at hmem
  rcases hmem with hmem | hmem
  · exact hs.toHub i m hmem
  · exact hm m (hP _ _ (mem_sentTo.mp hmem) m rfl)

/-- **One step keeps it**: a hub sends requests of calls only, and the gateway passes
them on with both ids. -/
theorem AllCalled.step (hs : AllCalled s) {l : Label ι} (hl : Ordinary l)
    (h : step fmt client s l = some s') : AllCalled s' := by
  cases l with
  | connectToClient i r =>
    rw [Network.step] at h
    split at h
    · cases h
      exact hs.setHub (goes_connectToClient ..)
    · cases h
  | send i message =>
    cases h
    refine hs.setHub ?_
    rw [HubManager.sendMessageTCP]
    split
    · exact goes_log _ (fun m hm => hl m (by simpa using (List.mem_singleton.mp hm).symm))
    · exact Goes.refl _
  | advance i t =>
    obtain ⟨h', hadv, rfl⟩ := Option.map_eq_some_iff.mp h
    exact hs.setHub (goes_effects (effects_advance hadv))
  | datagram i message source =>
    rw [Network.step] at h
    split at h
    · cases h
      exact hs.setHub (goes_listen ..)
    · cases h
  | receive i =>
    rw [Network.step] at h
    split at h
    · cases h
    · next message rest htoHub =>
      split at h
      · cases h
        have hrest : AllCalled { s with toHub := Function.update s.toHub i rest } :=
          ⟨hs.toGateway, fun j m hm => hs.toHub j m (mem_of_update htoHub hm)⟩
        exact hrest.setHub (goes_listen ..)
      · cases h
  | lose i =>
    cases h
    exact hs.setHub (goes_of_eq rfl rfl)
  | gatewayReceive i =>
    rw [Network.step] at h
    split at h
    · cases h
    · next message rest htoGateway =>
      cases h
      have hrest : AllCalled { s with toGateway := Function.update s.toGateway i rest } :=
        ⟨fun j m hm => hs.toGateway j m (mem_of_update htoGateway hm), hs.toHub⟩
      refine hrest.setGateway (sends_step fmt (.tcp (client i) (.ok (some message))) s.gateway) ?_
      intro m hm
      have hm : message = .req m := Option.some.inj hm
      exact ⟨i, hs.toGateway i m (by rw [htoGateway, hm]; exact List.mem_cons_self ..)⟩
  | gatewayEndpoint source =>
    cases h
    exact hs.setGateway (sends_step fmt (.receive source) s.gateway) (fun m hm => by cases hm)
  | gatewayDatagram message =>
    cases h
    refine hs.setGateway (sends_step fmt (.udp message) s.gateway) fun m hm => ?_
    cases message with
    | error e => cases hm
    | ok message => exact absurd (congrArg Except.ok hm) (hl m)

/-- **Every request under way in a run was called**: it has the id of a hub that
called `ConnectToClient` and the id of the hub it called it on. -/
theorem req_called {s₀ : State ι} (hq : Quiet s₀) {ls : List (Label ι)}
    (hr : Reaches (step fmt client) (fun _ => Ordinary) s₀ ls s) : AllCalled s := by
  refine Reaches.inv (P := fun _ s => AllCalled s) ?_ (fun _ _ _ _ hs hl h => hs.step hl h) hr
  refine ⟨fun i m hm => ?_, fun i m hm => ?_⟩
  · rw [hq.toGateway] at hm
    cases hm
  · rw [hq.toHub] at hm
    cases hm

/-! ### At the end -/

/-- The hub `b` answers a request of the hub `a`: it announces a connection to `a` and
looks for it, and it does not look for itself. -/
def ProbesRequester (a b b' : HubManager) : Prop :=
  (∃ hubInfo, hubInfo.id = a.localHubInfo.id ∧
    .publish (.connectionStarting hubInfo) ∈ reaction b b' ∧
    .findReachableEndpoint hubInfo ∈ reaction b b') ∧
  ∀ hubInfo, .findReachableEndpoint hubInfo ∈ reaction b b' → hubInfo.id ≠ b.localHubInfo.id

/-- **What a request makes a hub do**: nothing, or look for the hub whose id is the
request's `RecipientId`. -/
theorem reaction_req (fmt : TextFormat) (m : ReqMessage) (h : HubManager) :
    reaction h (h.listen fmt (.ok (some (.req m))) .Tcp none) = [] ∨
    ∃ hubInfo, hubInfo.id = m.recipientId ∧
      reaction h (h.listen fmt (.ok (some (.req m))) .Tcp none) =
        [.publish (.connectionStarting hubInfo), .findReachableEndpoint hubInfo] := by
  have hlisten : h.listen fmt (.ok (some (.req m))) .Tcp none = Hub.processReq m .Tcp h := by
    rw [HubManager.listen_some, process_hubMaps]
    rfl
  rw [hlisten, Hub.processReq]
  split
  · exact Or.inl (reaction_eq (by simp))
  · next r hr =>
    refine Or.inr ⟨h.hubInfo r, ConnectionManager.getConnection_id hr, reaction_eq ?_⟩
    simp [HubManager.findReachableEndpoint, HubManager.publish, HubManager.log, HubManager.hubInfo]

/-- **A requester is never probed.** In every run, whatever request a hub takes was
called by some hub, with that hub's id; and unless a hub called itself, the hub that
takes it starts no connection to the caller. -/
theorem requester_never_probed (fmt : TextFormat) (client : ι → TcpClient) {s₀ : State ι}
    (hq : Quiet s₀) {ls : List (Label ι)}
    (hr : Reaches (step fmt client) (fun _ => Ordinary) s₀ ls s) {b : ι} {m : ReqMessage}
    {rest : List BaseMessage} (hm : s.toHub b = .req m :: rest)
    (hs : step fmt client s (.receive b) = some s') :
    ∃ a, Called (s.hub a) m ∧
      ((s.hub a).localHubInfo.id ≠ m.recipientId →
        ¬ ProbesRequester (s.hub a) (s.hub b) (s'.hub b)) := by
  obtain ⟨a, hc⟩ := (req_called hq hr).toHub b m (by rw [hm]; exact List.mem_cons_self ..)
  refine ⟨a, hc, fun hne hprobes => ?_⟩
  have hs' : s'.hub b = (s.hub b).listen fmt (.ok (some (.req m))) .Tcp none := by
    rw [Network.step, hm] at hs
    simp only at hs
    split at hs
    · cases hs
      simp [State.setHub]
    · cases hs
  obtain ⟨⟨hubInfo, hid, _, hfind⟩, _⟩ := hprobes
  rw [hs'] at hfind
  rcases reaction_req fmt m (s.hub b) with hr | ⟨hubInfo', hid', hr⟩
  · rw [hr] at hfind
    cases hfind
  · rw [hr] at hfind
    have heq : hubInfo = hubInfo' := by simpa using hfind
    exact hne (hid.symm.trans (heq ▸ hid'))

/-! ### On the way -/

theorem connectToClient_sends {a : ι} {r : Ref} (hr : r ∈ (s.hub a).connections.connections)
    (hconn : (s.hub a).connected = true) (hw : (s.hub a).writeFails = false) :
    ∃ s', step fmt client s (.connectToClient a r) = some s' ∧
      s'.toGateway a = s.toGateway a ++
        [.req { id := (s.hub a).localHubInfo.id, recipientId := ((s.hub a).hubInfo r).id }] := by
  refine ⟨_, by rw [Network.step, if_pos hr], ?_⟩
  have hreaction : reaction (s.hub a) ((s.hub a).connectToClient r) =
      [.sendTCP (Req.new (s.hub a).localHubInfo.id ((s.hub a).hubInfo r).id).toMessage,
        .findReachableEndpoint ((s.hub a).hubInfo r)] := by
    refine reaction_eq ?_
    simp [HubManager.connectToClient, HubManager.sendMessageTCP, hconn, hw,
      HubManager.findReachableEndpoint, HubManager.log, HubManager.hubInfo]
  simp [State.setHub, hreaction, sentTCP, Req.toMessage, Req.new]

theorem req_relayed {a b : ι} {m : ReqMessage} {rest : List BaseMessage} {hubInfo : HubInfo} {k : Nat}
    (hm : s.toGateway a = .req m :: rest) (hconn : s.gateway.connected (client a) = true)
    (hreg : s.gateway.getConnection m.recipientId = some (hubInfo, k))
    (hclient : hubInfo.client = some (client b)) (hlive : s.gateway.connected (client b) = true)
    (hw : s.gateway.writeFails (client b) = false) :
    ∃ s', step fmt client s (.gatewayReceive a) = some s' ∧
      s'.toHub b = s.toHub b ++ [.req m] := by
  have hg : Gateway.step fmt s.gateway (.tcp (client a) (.ok (some (.req m)))) =
      s.gateway.log [.tcp (client b) (.req m)] := by
    rw [Gateway.step, if_pos hconn, tcpRound, attempt, dispatch, process_gatewayMaps]
    simp only [Gateway.processReq, hreg, hclient, GatewayManager.sendTCP, hlive, hw]
    rfl
  refine ⟨_, by rw [Network.step, hm], ?_⟩
  simp [State.setGateway, hg, sentTo]

end

/-! ### Two hubs -/

/-- A hub `id` connected to its gateway, that holds hubs of these ids. -/
def hubOf (id : String) (known : List String) : HubManager where
  localHubInfo := { id := some id }
  connections := known.foldl (fun cs id => cs.addConnection { id := some id }) .empty
  ackResponces := []
  nextAck := 0
  connected := true
  writeFails := false
  tcpListen := true
  udpListen := true
  calls := []
  acts := []

/-- The hubs `a` and `b`, each of which holds both, registered under clients 1
and 2. -/
def twoHubs : State (Fin 2) where
  hub i := if i = 0 then hubOf "a" ["a", "b"] else hubOf "b" ["a", "b"]
  gateway :=
    { GatewayManager.start anyEndPoint (fun _ => .connected) with
      connections := [{ id := some "a", client := some 1 }, { id := some "b", client := some 2 }] }
  toGateway _ := []
  toHub _ := []

theorem quiet_twoHubs : Quiet twoHubs := by
  refine ⟨fun i => ?_, fun i => rfl, fun i => rfl⟩
  fin_cases i <;> rfl

/-- `a` calls `ConnectToClient` on `b`, and the gateway relays the request. -/
def request : List (Label (Fin 2)) := [.connectToClient 0 1, .gatewayReceive 0]

def clientOf (i : Fin 2) : TcpClient := i.val + 1

/-- The request of `a` for `b`. -/
def requestOf : ReqMessage := { id := some "a", recipientId := some "b" }

/-- Two hubs are registered under their clients, and each holds the other. -/
structure Acquainted {ι : Type} (client : ι → TcpClient) (s : State ι) (a b : ι) : Prop where
  registered : ∀ i, i = a ∨ i = b →
    ((s.hub i).localHubInfo.id, some (client i)) ∈ s.gateway.connections.map fun h => (h.id, h.client)
  holds : (s.hub b).localHubInfo.id ∈ (s.hub a).connections.ids
  held : (s.hub a).localHubInfo.id ∈ (s.hub b).connections.ids

theorem acquainted_of {s : State (Fin 2)} (ha : (s.hub 0).localHubInfo.id = some "a")
    (hb : (s.hub 1).localHubInfo.id = some "b")
    (hg : s.gateway.connections.map (fun h => (h.id, h.client)) = [(some "a", some 1), (some "b", some 2)])
    (hids : ∀ i, (s.hub i).connections.ids = [some "a", some "b"]) : Acquainted clientOf s 0 1 := by
  refine ⟨fun i hi => ?_, ?_, ?_⟩
  · rw [hg]
    rcases hi with rfl | rfl
    · rw [ha]
      decide
    · rw [hb]
      decide
  · rw [hids, hb]
    decide
  · rw [hids, ha]
    decide

theorem request_arrives : ∃ s s',
    Reaches (step dottedText clientOf) (fun _ => Ordinary) twoHubs request s ∧
    s.toHub 1 = [.req requestOf] ∧ step dottedText clientOf s (.receive 1) = some s' ∧
    (s.hub 0).localHubInfo.id = some "a" ∧ (s.hub 1).localHubInfo.id = some "b" ∧
    Acquainted clientOf s 0 1 ∧
    reaction (s.hub 1) (s'.hub 1) = [.publish (.connectionStarting { id := some "b" }),
      .findReachableEndpoint { id := some "b" }] := by
  have hrun : (exec (step dottedText clientOf) twoHubs request).bind (fun s =>
      (step dottedText clientOf s (.receive 1)).map fun s' =>
        (s.toHub 1, (s.hub 0).localHubInfo.id, (s.hub 1).localHubInfo.id,
          decide (s.gateway.connections.map (fun h => (h.id, h.client)) =
            [(some "a", some 1), (some "b", some 2)] ∧ ∀ i, (s.hub i).connections.ids = [some "a", some "b"]),
          reaction (s.hub 1) (s'.hub 1))) =
      some ([.req requestOf], some "a", some "b", true,
        [.publish (.connectionStarting { id := some "b" }), .findReachableEndpoint { id := some "b" }]) := by
    decide
  obtain ⟨s, hexec, hstep⟩ := Option.bind_eq_some_iff.mp hrun
  obtain ⟨s', hs', heq⟩ := Option.map_eq_some_iff.mp hstep
  simp only [Prod.mk.injEq] at heq
  obtain ⟨hto, ha, hb, hknown, hreaction⟩ := heq
  obtain ⟨hg, hids⟩ := of_decide_eq_true hknown
  simp only [request, exec, Option.bind_eq_some_iff] at hexec
  obtain ⟨s1, h1, s2, h2, h3⟩ := hexec
  obtain rfl := Option.some.inj h3
  exact ⟨s2, s', .step (.step .start trivial h1) trivial h2, hto, hs', ha, hb, acquainted_of ha hb hg hids,
    hreaction⟩

theorem requester_never_probed_twoHubs : ∃ s s',
    Reaches (step dottedText clientOf) (fun _ => Ordinary) twoHubs request s ∧
    step dottedText clientOf s (.receive 1) = some s' ∧
    ∃ a, Called (s.hub a) requestOf ∧ ((s.hub a).localHubInfo.id ≠ requestOf.recipientId →
      ¬ ProbesRequester (s.hub a) (s.hub 1) (s'.hub 1)) := by
  obtain ⟨s, s', hr, hm, hs, _⟩ := request_arrives
  exact ⟨s, s', hr, hs, requester_never_probed dottedText clientOf quiet_twoHubs hr hm hs⟩

/-- **The hub that is asked for looks for itself.** -/
theorem probes_itself : ¬ ∀ (fmt : TextFormat) (client : Fin 2 → TcpClient) (s₀ : State (Fin 2))
    (ls : List (Label (Fin 2))) (s s' : State (Fin 2)) (a b : Fin 2) (m : ReqMessage)
    (rest : List BaseMessage), Quiet s₀ → Acquainted client s₀ a b →
    Reaches (step fmt client) (fun _ => Ordinary) s₀ ls s → Acquainted client s a b →
    m.id = (s.hub a).localHubInfo.id → (s.hub a).localHubInfo.id ≠ (s.hub b).localHubInfo.id →
    s.toHub b = .req m :: rest → step fmt client s (.receive b) = some s' →
    ProbesRequester (s.hub a) (s.hub b) (s'.hub b) := by
  intro hall
  obtain ⟨s, s', hr, hm, hs, hida, hidb, hacquainted, hreaction⟩ := request_arrives
  have hbefore : Acquainted clientOf twoHubs 0 1 := by
    refine acquainted_of rfl rfl rfl fun i => ?_
    fin_cases i <;> decide
  obtain ⟨_, hself⟩ := hall dottedText clientOf twoHubs request s s' 0 1 requestOf [] quiet_twoHubs
    hbefore hr hacquainted (by rw [hida]; rfl) (by rw [hida, hidb]; decide) hm hs
  refine hself { id := some "b" } ?_ (by rw [hidb])
  rw [hreaction]
  decide

end Blockcore.Network
