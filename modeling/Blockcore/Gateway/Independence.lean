import Blockcore.Gateway.Sessions

/-!
# One hub's share of the gateway

The gateway is one state that all threads share: a list of every hub, the source of the last
datagram, the sockets.  What a hub is registered with is its own affair all the same, as long as
no send fails and every client brings the messages of one hub.

`Session` is the share of one hub, a machine of its own that knows of no other: its entry, its
sockets, and where the last datagram came from.  `registry_of_sessions` says that the gateway is
nothing but these machines side by side, each fed the turns that concern it.
-/

namespace Blockcore.Gateway.Independence

open Lib Networking

/-! ### The machine of one hub -/

/-- What the gateway knows of one hub. -/
structure Session where
  entry : Option HubInfo
  udpEndpoint : IPEndPoint
  socket : TcpClient → SocketState

/-- The sockets of these clients; the others do not matter. -/
def restrict (mine : TcpClient → Bool) (socket : TcpClient → SocketState) (c : TcpClient) : SocketState :=
  if mine c then socket c else .closed

def entryAfter (fmt : TextFormat) (m : HubInfoMessage) (endpoint : Option IPEndPoint)
    (client : Option TcpClient) (found : Option HubInfo) : Outcome Exception (Option HubInfo) :=
  match found with
  | none =>
    match HubInfo.ofMessage fmt m with
    | .error e => .thrown e none
    | .ok hubInfo => .done (some (introduced (heardFrom endpoint client hubInfo)))
  | some hubInfo =>
    match hubInfo.update fmt m with
    | .thrown e hubInfo => .thrown e (some hubInfo)
    | .done hubInfo => .done (some (introduced (heardFrom endpoint client hubInfo)))

def handled : BaseMessage → Bool
  | .ack _ => false
  | .notification _ => false
  | .test _ => false
  | _ => true

namespace Session

def register (entry : Option HubInfo) (s : Session) : Session := { s with entry := entry }

/-- A client is through; the hub leaves if it is registered under it. -/
def leave (c : TcpClient) (s : Session) : Session :=
  if s.entry.bind HubInfo.client = some c then
    { s with entry := none, socket := Function.update s.socket c .closed }
  else s

def step (fmt : TextFormat) (s : Session) : Event → Session
  | .receive source => { s with udpEndpoint := source }
  | .udp (.ok (some (.info m))) => s.register (entryAfter fmt m (some s.udpEndpoint) none s.entry).state
  | .udp _ => s
  | .tcp c message =>
    if s.socket c = .connected then
      match message with
      | .ok (some (.info m)) =>
        if (entryAfter fmt m none (some c) s.entry).threw then
          (s.register (entryAfter fmt m none (some c) s.entry).state).leave c
        else s.register (entryAfter fmt m none (some c) s.entry).state
      | .ok (some m) => if handled m then s else s.leave c
      | _ => s.leave c
    else s.leave c

def turn (fmt : TextFormat) (mine : TcpClient → Bool) (s : Session) : Turn → Session
  | .event e => s.step fmt e
  | .network socket _ => { s with socket := restrict mine socket }

end Session

section

variable (owner : TcpClient → Option String) (x : Option String)

def mine (c : TcpClient) : Bool := owner c == x

def view (g : GatewayManager) : Session where
  entry := g.connections.find? fun h => h.id == x
  udpEndpoint := g.udpEndpoint
  socket := restrict (mine owner x) g.socket

/-- What concerns a hub: its messages, what its clients do, and all datagrams and networks. -/
def concerns : Turn → Bool
  | .event (.receive _) => true
  | .event (.udp (.ok (some (.info m)))) => m.id == x
  | .event (.udp _) => false
  | .event (.tcp c _) => owner c == x
  | .network _ _ => true

/-- A client brings the messages of the hub whose it is, and no write fails. -/
def Orderly : Turn → Prop
  | .event (.tcp c (.ok (some (.info m)))) => m.id = owner c
  | .network _ writeFails => ∀ c, writeFails c = false
  | _ => True

/-- The hubs are told apart by their ids, each under a client of its own, and no write fails. -/
structure Apart (g : GatewayManager) : Prop where
  nodup : (g.connections.map HubInfo.id).Nodup
  owned : ∀ h ∈ g.connections, ∀ c ∈ h.client, owner c = h.id
  alive : ∀ c, g.writeFails c = false

end

/-! ### Lists cut at an entry -/

section

variable {fmt : TextFormat} {owner : TcpClient → Option String} {x : Option String} {g : GatewayManager}
  {c : TcpClient} {m : HubInfoMessage} {protocol : ProtocolType} {endpoint : Option IPEndPoint}
  {client : Option TcpClient} {as bs l : List HubInfo} {found : Option HubInfo}

theorem find_cut (hcut : CutAt (fun h : HubInfo => h.id == x) l as found bs) :
    l.find? (fun h => h.id == x) = found := by
  have has : as.find? (fun h => h.id == x) = none := List.find?_eq_none.mpr fun h hh => by
    simpa using hcut.not_before h hh
  rw [hcut.eq, List.find?_append, has, Option.none_or]
  cases found with
  | none => rw [hcut.at_end rfl]; rfl
  | some h => exact List.find?_cons_of_pos (hcut.matches_found h rfl)

theorem find_replaced (hcut : CutAt (fun h : HubInfo => h.id == x) l as found bs) {new : Option HubInfo}
    (hnew : ∀ h ∈ new, h.id = x) (hnone : new = none → found = none) :
    (as ++ (new.toList ++ bs)).find? (fun h => h.id == x) = new := by
  refine find_cut ⟨rfl, fun h hh => beq_iff_eq.mpr (hnew h hh), hcut.not_before, fun hn => ?_⟩
  exact hcut.at_end (hnone hn)

theorem find_other {y : Option String} (hcut : CutAt (fun h : HubInfo => h.id == y) l as found bs)
    {new : Option HubInfo} (hnew : ∀ h ∈ new, h.id = y) (hne : y ≠ x) :
    (as ++ (new.toList ++ bs)).find? (fun h => h.id == x) = l.find? fun h => h.id == x := by
  have hskip : ∀ {o : Option HubInfo}, (∀ h ∈ o, h.id = y) →
      o.toList.find? (fun h => h.id == x) = none := by
    intro o ho
    refine List.find?_eq_none.mpr fun h hh => ?_
    rw [ho h (Option.mem_toList.mp hh)]
    simpa using hne
  rw [hcut.eq, List.find?_append, List.find?_append, List.find?_append, List.find?_append, hskip hnew,
    hskip hcut.key_found]

/-! ### A hub's message -/

theorem introduced_id (h : HubInfo) : (introduced h).id = h.id := by
  rw [introduced]
  split <;> rfl

theorem introduced_client (h : HubInfo) : (introduced h).client = h.client := by
  rw [introduced]
  split <;> rfl

variable (fmt endpoint client) in
theorem entryAfter_id (hfound : ∀ h ∈ found, h.id = m.id) :
    ∀ h ∈ (entryAfter fmt m endpoint client found).state, h.id = m.id := by
  intro h hh
  cases found with
  | none =>
    simp only [entryAfter] at hh
    split at hh
    · cases hh
    · next hm =>
      rw [← Option.some.inj hh, introduced_id]
      exact (ofMessage_id hm : _)
  | some old =>
    have hid := (update_carried fmt old m).id
    simp only [entryAfter] at hh
    split at hh
    · next hu =>
      rw [hu] at hid
      rw [← Option.some.inj hh]
      exact hid.trans (hfound old rfl)
    · next hu =>
      rw [hu] at hid
      rw [← Option.some.inj hh, introduced_id]
      exact hid.trans (hfound old rfl)

theorem entryAfter_client {P : TcpClient → Prop} (hfound : ∀ h ∈ found, ∀ c ∈ h.client, P c)
    (hclient : ∀ c ∈ client, P c) :
    ∀ h ∈ (entryAfter fmt m endpoint client found).state, ∀ c ∈ h.client, P c := by
  have hheard : ∀ {h : HubInfo} {o : Option TcpClient}, h.client = o → (∀ c ∈ o, P c) →
      ∀ c ∈ (introduced (heardFrom endpoint client h)).client, P c := by
    intro h o ho hP c hc
    rw [introduced_client] at hc
    change c ∈ (client <|> h.client) at hc
    cases client with
    | none =>
      rw [ho] at hc
      exact hP c hc
    | some d => exact hclient c hc
  intro h hh c hc
  cases found with
  | none =>
    simp only [entryAfter] at hh
    split at hh
    · cases hh
    · next hubInfo hm =>
      rw [← Option.some.inj hh] at hc
      obtain ⟨p, hp⟩ := parses_of_ofMessage hm
      rw [ofMessage_of_parses hp] at hm
      exact hheard (o := none) (by rw [← Except.ok.inj hm]; rfl) (fun _ hd => by cases hd) c hc
  | some old =>
    have hold := (update_carried fmt old m).client
    simp only [entryAfter] at hh
    split at hh
    · next hu =>
      rw [hu, Outcome.state_thrown] at hold
      rw [← Option.some.inj hh, hold] at hc
      exact hfound old rfl c hc
    · next hu =>
      rw [hu] at hold
      rw [← Option.some.inj hh] at hc
      exact hheard hold (hfound old rfl) c hc

theorem entryAfter_eq_none (h : (entryAfter fmt m endpoint client found).state = none) : found = none := by
  cases found with
  | none => rfl
  | some old =>
    simp only [entryAfter] at h
    split at h <;> cases h

theorem entered_alive {hubInfo : HubInfo} (halive : ∀ c, g.writeFails c = false)
    (hpeer : ∀ c ∈ client, g.socket c ≠ .closed) (hg : g.connections = as ++ hubInfo :: bs) :
    ∃ sent, entered fmt protocol endpoint client hubInfo as.length g = .done
      ({ g with connections := as ++ introduced (heardFrom endpoint client hubInfo) :: bs }.log sent) := by
  rw [entered_eq hpeer hg]
  exact ⟨_, announce_alive rfl fun c _ => halive c⟩

variable (fmt m protocol endpoint client) in
/-- **A hub's message**, where no write fails, changes the entry of the hub and no other. -/
theorem processInfo_registers (halive : ∀ c, g.writeFails c = false)
    (hpeer : ∀ c ∈ client, g.socket c ≠ .closed) :
    ∃ as found bs sent, CutAt (fun h => h.id == m.id) g.connections as found bs ∧
      (processInfo fmt m protocol endpoint client g).state = { g with connections :=
        as ++ ((entryAfter fmt m endpoint client found).state.toList ++ bs) }.log sent ∧
      (processInfo fmt m protocol endpoint client g).threw =
        (entryAfter fmt m endpoint client found).threw := by
  rw [processInfo, GatewayManager.getConnection]
  cases hf : firstMatch (fun h => h.id == m.id) g.connections with
  | none =>
    refine ⟨g.connections, none, [], ?_⟩
    simp only [entryAfter]
    cases hm : HubInfo.ofMessage fmt m with
    | error e => exact ⟨[], cutAt_of_none hf, by simp, rfl⟩
    | ok hubInfo =>
      have hadded : ∃ sent, entered fmt protocol endpoint client hubInfo g.connections.length
          (g.addConnection hubInfo) = .done
            ({ g with
              connections := g.connections ++ [introduced (heardFrom endpoint client hubInfo)] }.log sent) :=
        entered_alive halive hpeer rfl
      obtain ⟨sent, hsent⟩ := hadded
      simp only [hsent]
      exact ⟨sent, cutAt_of_none hf, rfl, rfl⟩
  | some found =>
    obtain ⟨hubInfo, i⟩ := found
    obtain ⟨as, bs, hcut, rfl⟩ := cutAt_of_some hf
    have hl : g.connections = as ++ hubInfo :: bs := hcut.eq
    refine ⟨as, some hubInfo, bs, ?_⟩
    simp only [entryAfter]
    cases hu : hubInfo.update fmt m with
    | thrown e h => exact ⟨[], hcut, by simp [GatewayManager.store, hl], rfl⟩
    | done h =>
      have hstored : ∃ sent, entered fmt protocol endpoint client h as.length
          { g with connections := as ++ h :: bs } = .done
            ({ g with connections := as ++ introduced (heardFrom endpoint client h) :: bs }.log sent) :=
        entered_alive (g := { g with connections := as ++ h :: bs }) halive hpeer rfl
      obtain ⟨sent, hsent⟩ := hstored
      simp only [GatewayManager.store, hl, set_cut, hsent]
      exact ⟨sent, hl ▸ hcut, rfl, rfl⟩

/-! ### What a message does to the share of a hub -/

theorem view_log (owner : TcpClient → Option String) (x : Option String) (g : GatewayManager)
    (sent : List Sent) : view owner x (g.log sent) = view owner x g := rfl

variable (fmt m protocol endpoint client owner x) in
theorem view_own (halive : ∀ c, g.writeFails c = false) (hpeer : ∀ c ∈ client, g.socket c ≠ .closed)
    (hx : m.id = x) :
    view owner x (processInfo fmt m protocol endpoint client g).state =
      (view owner x g).register (entryAfter fmt m endpoint client (view owner x g).entry).state ∧
    (processInfo fmt m protocol endpoint client g).threw =
      (entryAfter fmt m endpoint client (view owner x g).entry).threw := by
  obtain ⟨as, found, bs, sent, hcut, hstate, hthrew⟩ :=
    processInfo_registers fmt m protocol endpoint client halive hpeer
  subst hx
  have hentry : (view owner m.id g).entry = found := find_cut hcut
  rw [hentry, hstate, hthrew]
  have hfind := find_replaced hcut (entryAfter_id fmt endpoint client hcut.key_found) entryAfter_eq_none
  refine ⟨?_, rfl⟩
  rw [view_log]
  exact congrArg (Session.mk · _ _) hfind

variable (fmt m protocol endpoint client owner) in
theorem view_other (halive : ∀ c, g.writeFails c = false) (hpeer : ∀ c ∈ client, g.socket c ≠ .closed)
    (hx : m.id ≠ x) : view owner x (processInfo fmt m protocol endpoint client g).state = view owner x g := by
  obtain ⟨as, found, bs, sent, hcut, hstate, _⟩ :=
    processInfo_registers fmt m protocol endpoint client halive hpeer
  rw [hstate, view_log]
  exact congrArg (Session.mk · _ _) (find_other hcut (entryAfter_id fmt endpoint client hcut.key_found) hx)

theorem attempt_threw {message : BaseMessage} (halive : ∀ c, g.writeFails c = false)
    (hpeer : ∀ c ∈ client, g.socket c ≠ .closed) (hno : ∀ m, message ≠ .info m) :
    (attempt fmt (.ok (some message)) protocol endpoint client g).threw = !handled message := by
  rw [attempt, dispatch, process_gatewayMaps]
  cases message with
  | info m => exact absurd rfl (hno m)
  | broadcast msg =>
    simp only [processBroadcast, handled]
    split
    · rw [GatewayManager.sendAll_alive _ fun c _ => halive c]
      rfl
    · rfl
  | req req =>
    simp only [processReq, handled]
    split
    · rfl
    · rw [sendTCP_alive fun c _ _ => halive c]
      rfl
  | msg msg =>
    simp only [logPeer, handled]
    split
    · next c =>
      rw [if_neg (hpeer c rfl)]
      rfl
    · rfl
  | _ => rfl

/-! ### What `Disconnect` does to the share of a hub -/

theorem disconnect_left (h : Registered g c) : ∃ as hubInfo bs, g.connections = as ++ hubInfo :: bs ∧
    hubInfo.client = some c ∧ (g.disconnect c).state.connections = as ++ bs ∧
      (g.disconnect c).state.udpEndpoint = g.udpEndpoint ∧
      (g.disconnect c).state.socket = Function.update g.socket c .closed := by
  obtain ⟨as, hubInfo, bs, hcut, hd⟩ := disconnect_eq h
  refine ⟨as, hubInfo, bs, hcut.eq, hcut.key_found hubInfo rfl, ?_⟩
  rw [hd]
  split
  · next hclosed =>
    refine ⟨rfl, rfl, ?_⟩
    rw [← hclosed, Function.update_eq_self]
    rfl
  · rw [GatewayManager.broadcastTCP_state]
    exact ⟨rfl, rfl, rfl⟩

theorem cut_entry {hubInfo : HubInfo} (hnodup : (g.connections.map HubInfo.id).Nodup)
    (hl : g.connections = as ++ hubInfo :: bs) :
    CutAt (fun h : HubInfo => h.id == hubInfo.id) g.connections as (some hubInfo) bs ∧
      ∀ h ∈ as ++ bs, h.id ≠ hubInfo.id := by
  rw [hl, List.map_append, List.map_cons, List.nodup_middle, List.nodup_cons, ← List.map_append] at hnodup
  have hother : ∀ h ∈ as ++ bs, h.id ≠ hubInfo.id := fun h hh heq =>
    hnodup.1 (heq ▸ List.mem_map_of_mem hh)
  refine ⟨⟨hl, fun h hh => ?_, fun h hh => ?_, fun hnone => by cases hnone⟩, hother⟩
  · rw [Option.some.inj hh]
    exact beq_self_eq_true _
  · exact beq_eq_false_iff_ne.mpr (hother h (List.mem_append_left _ hh))

theorem restrict_update {p : TcpClient → Bool} (hc : p c = true) (socket : TcpClient → SocketState)
    (state : SocketState) :
    restrict p (Function.update socket c state) = Function.update (restrict p socket) c state := by
  funext d
  by_cases hd : d = c
  · subst hd
    rw [restrict, if_pos hc, Function.update_self, Function.update_self]
  · rw [restrict, Function.update_of_ne hd, Function.update_of_ne hd, restrict]

theorem restrict_update_other {p : TcpClient → Bool} (hc : p c = false) (socket : TcpClient → SocketState)
    (state : SocketState) : restrict p (Function.update socket c state) = restrict p socket := by
  funext d
  by_cases hd : d = c
  · subst hd
    rw [restrict, restrict, hc]
    rfl
  · rw [restrict, Function.update_of_ne hd, restrict]

/-- **The hub's own client** is through. -/
theorem view_leave (hg : Apart owner g) (hx : owner c = x) :
    view owner x (g.disconnect c).state = (view owner x g).leave c := by
  have hmine : mine owner x c = true := beq_iff_eq.mpr hx
  by_cases h : Registered g c
  · obtain ⟨as, hubInfo, bs, hl, hclient, hconnections, hudp, hsocket⟩ := disconnect_left h
    obtain ⟨hcut, hother⟩ := cut_entry hg.nodup hl
    have hid : hubInfo.id = x := (hg.owned hubInfo (by simp [hl]) c hclient).symm.trans hx
    rw [hid] at hcut hother
    have hentry : (view owner x g).entry = some hubInfo := find_cut hcut
    have hgone : (as ++ bs).find? (fun h => h.id == x) = none :=
      List.find?_eq_none.mpr fun h hh => by simpa using hother h hh
    rw [Session.leave, hentry, if_pos (by rw [Option.bind_some, hclient]), view, hconnections, hudp, hsocket,
      hgone, restrict_update hmine]
    rfl
  · rw [disconnect_unregistered h, Outcome.state_done, Session.leave, if_neg]
    intro hclient
    obtain ⟨hubInfo, hentry, hclient⟩ := Option.bind_eq_some_iff.mp hclient
    exact h ⟨hubInfo, List.mem_of_find?_eq_some hentry, hclient⟩

/-- **Another hub's client** is through. -/
theorem view_leave_other (hg : Apart owner g) (hx : owner c ≠ x) :
    view owner x (g.disconnect c).state = view owner x g := by
  have hmine : mine owner x c = false := beq_eq_false_iff_ne.mpr hx
  by_cases h : Registered g c
  · obtain ⟨as, hubInfo, bs, hl, hclient, hconnections, hudp, hsocket⟩ := disconnect_left h
    obtain ⟨hcut, _⟩ := cut_entry hg.nodup hl
    have hid : hubInfo.id ≠ x := by
      rw [← hg.owned hubInfo (by simp [hl]) c hclient]
      exact hx
    have hsame : (as ++ ((none : Option HubInfo).toList ++ bs)).find? (fun h => h.id == x) =
        g.connections.find? fun h => h.id == x := find_other hcut (fun _ hh => by cases hh) hid
    rw [view, hconnections, hudp, hsocket, restrict_update_other hmine]
    exact congrArg (Session.mk · _ _) hsame
  · rw [disconnect_unregistered h, Outcome.state_done]

/-! ### The hubs stay apart -/

theorem Apart.disconnect (hg : Apart owner g) (c : TcpClient) : Apart owner (g.disconnect c).state := by
  have hsub := disconnect_sublist c g
  refine ⟨(hsub.map _).nodup hg.nodup, fun h hh => hg.owned h (hsub.subset hh), ?_⟩
  rw [disconnect_writeFails]
  exact hg.alive

theorem Apart.log (hg : Apart owner g) (sent : List Sent) : Apart owner (g.log sent) :=
  ⟨hg.nodup, hg.owned, hg.alive⟩

theorem Apart.processInfo (hg : Apart owner g) (hpeer : ∀ c ∈ client, g.socket c ≠ .closed)
    (hclient : ∀ c ∈ client, owner c = m.id) :
    Apart owner (processInfo fmt m protocol endpoint client g).state := by
  obtain ⟨as, found, bs, sent, hcut, hstate, _⟩ :=
    processInfo_registers fmt m protocol endpoint client hg.alive hpeer
  have hapart : Apart owner { g with
      connections := as ++ ((entryAfter fmt m endpoint client found).state.toList ++ bs) } := by
    refine ⟨?_, fun h hh c hc => ?_, hg.alive⟩
    · cases hnew : (entryAfter fmt m endpoint client found).state with
      | none => exact (hcut.sublist.map _).nodup hg.nodup
      | some h => exact hcut.nodup (entryAfter_id fmt endpoint client hcut.key_found h hnew) hg.nodup
    · rcases List.mem_append.mp hh with hh | hh
      · exact hg.owned h (hcut.mem_of_before hh) c hc
      · rcases List.mem_append.mp hh with hh | hh
        · have hfound : ∀ h ∈ found, ∀ c ∈ h.client, owner c = m.id := fun h hh c hc => by
            rw [hg.owned h (hcut.mem_of_found hh) c hc]
            exact hcut.key_found h hh
          have hh := Option.mem_toList.mp hh
          rw [entryAfter_client hfound hclient h hh c hc, entryAfter_id fmt endpoint client hcut.key_found h hh]
        · exact hg.owned h (hcut.mem_of_after hh) c hc
  rw [hstate]
  exact hapart.log sent

theorem Apart.attempt (hg : Apart owner g) {message : Except Exception (Option BaseMessage)}
    (hno : ¬ ∃ m, message = .ok (some (.info m))) :
    Apart owner (attempt fmt message protocol endpoint client g).state := by
  obtain ⟨sent, hstate, _⟩ := attempt_relays fmt hno protocol endpoint client g
  rw [hstate]
  exact hg.log sent

variable (fmt) in
/-- **Every turn** leaves them apart. -/
theorem Apart.turn (hg : Apart owner g) {t : Turn} (ht : Orderly owner t) : Apart owner (turn fmt g t) := by
  cases t with
  | network socket writeFails => exact ⟨hg.nodup, hg.owned, ht⟩
  | event e =>
    cases e with
    | receive source => exact ⟨hg.nodup, hg.owned, hg.alive⟩
    | udp message =>
      rw [Gateway.turn, step_udp]
      by_cases hinfo : ∃ m, message = .ok (some (.info m))
      · obtain ⟨m, rfl⟩ := hinfo
        rw [attempt_info]
        exact hg.processInfo (fun _ hc => by cases hc) fun _ hc => by cases hc
      · exact hg.attempt hinfo
    | tcp c message =>
      refine step_tcp_inv (P := Apart owner) fmt (fun hconn => ?_) (fun g h => h.disconnect c) hg
      by_cases hinfo : ∃ m, message = .ok (some (.info m))
      · obtain ⟨m, rfl⟩ := hinfo
        rw [attempt_info]
        refine hg.processInfo (GatewayManager.open_of_connected hconn) fun d hd => ?_
        rw [← Option.some.inj hd]
        exact ht.symm
      · exact hg.attempt hinfo

/-! ### One turn -/

variable (fmt owner x protocol endpoint client g) in
theorem view_attempt {message : Except Exception (Option BaseMessage)}
    (hno : ¬ ∃ m, message = .ok (some (.info m))) :
    view owner x (attempt fmt message protocol endpoint client g).state = view owner x g := by
  obtain ⟨sent, hstate, _⟩ := attempt_relays fmt hno protocol endpoint client g
  rw [hstate, view_log]

variable (fmt) in
theorem view_turn_other (hg : Apart owner g) {t : Turn} (ht : Orderly owner t)
    (hx : concerns owner x t = false) : view owner x (turn fmt g t) = view owner x g := by
  cases t with
  | network socket writeFails => cases hx
  | event e =>
    cases e with
    | receive source => cases hx
    | udp message =>
      rw [Gateway.turn, step_udp]
      by_cases hinfo : ∃ m, message = .ok (some (.info m))
      · obtain ⟨m, rfl⟩ := hinfo
        rw [attempt_info]
        exact view_other fmt owner m .Udp _ none hg.alive (fun _ hc => by cases hc)
          (by simpa [concerns] using hx)
      · exact view_attempt fmt owner x g .Udp _ none hinfo
    | tcp c message =>
      have hc : owner c ≠ x := by simpa [concerns] using hx
      have hkeep : Apart owner g ∧ view owner x g = view owner x g := ⟨hg, rfl⟩
      refine (step_tcp_inv (P := fun g' => Apart owner g' ∧ view owner x g' = view owner x g) fmt
        (fun hconn => ?_) (fun g' h => ⟨h.1.disconnect c, (view_leave_other h.1 hc).trans h.2⟩) hkeep).2
      by_cases hinfo : ∃ m, message = .ok (some (.info m))
      · obtain ⟨m, rfl⟩ := hinfo
        have hm : m.id = owner c := ht
        have hpeer := GatewayManager.open_of_connected hconn
        rw [attempt_info]
        refine ⟨hg.processInfo hpeer fun d hd => ?_, ?_⟩
        · rw [← Option.some.inj hd]
          exact hm.symm
        · exact view_other fmt owner m .Tcp none (some c) hg.alive hpeer (by rwa [hm])
      · exact ⟨hg.attempt hinfo, view_attempt fmt owner x g .Tcp none (some c) hinfo⟩

theorem tcpRound_state (fmt : TextFormat) (c : TcpClient) (message : Except Exception (Option BaseMessage))
    (g : GatewayManager) : (tcpRound fmt c message g).state =
      if (attempt fmt message .Tcp none (some c) g).threw then
        ((attempt fmt message .Tcp none (some c) g).state.disconnect c).state
      else (attempt fmt message .Tcp none (some c) g).state := by
  rw [tcpRound]
  cases attempt fmt message .Tcp none (some c) g <;> rfl

theorem view_tcp (hg : Apart owner g) (hx : owner c = x) {message : Except Exception (Option BaseMessage)}
    (ht : Orderly owner (.event (.tcp c message))) :
    view owner x (step fmt g (.tcp c message)) = (view owner x g).step fmt (.tcp c message) := by
  have hsocket : (view owner x g).socket c = g.socket c := if_pos (beq_iff_eq.mpr hx)
  by_cases hconn : g.connected c = true
  · have hopen : (view owner x g).socket c = .connected := by
      rw [hsocket]
      exact beq_iff_eq.mp hconn
    have hpeer := GatewayManager.open_of_connected hconn
    rw [step, if_pos hconn, tcpRound_state]
    -- an exception ends in `Disconnect`, whatever was registered before it
    rcases message with e | _ | message
    · exact (view_leave hg hx).trans (if_pos hopen).symm
    · exact (view_leave hg hx).trans (if_pos hopen).symm
    · by_cases hinfo : ∃ m, message = .info m
      · obtain ⟨m, rfl⟩ := hinfo
        have hm : m.id = x := (show m.id = owner c from ht).trans hx
        have hown : Apart owner (processInfo fmt m .Tcp none (some c) g).state := by
          refine hg.processInfo hpeer fun d hd => ?_
          rw [← Option.some.inj hd, hx, hm]
        obtain ⟨hview, hthrew⟩ := view_own fmt owner x m .Tcp none (some c) hg.alive hpeer hm
        refine Eq.trans ?_ (if_pos hopen).symm
        rw [attempt_info, hthrew]
        split
        · rw [view_leave hown hx, hview]
        · exact hview
      · have hno : ∀ m, message ≠ .info m := fun m hm => hinfo ⟨m, hm⟩
        have hno' : ¬ ∃ m, (.ok (some message) : Except Exception (Option BaseMessage)) =
            .ok (some (.info m)) := by
          rintro ⟨m, hm⟩
          exact hno m (Option.some.inj (Except.ok.inj hm))
        have hview := view_attempt fmt owner x g .Tcp none (some c) hno'
        have happly : (view owner x g).step fmt (.tcp c (.ok (some message))) =
            if handled message then view owner x g else (view owner x g).leave c := by
          cases message with
          | info m => exact absurd rfl (hno m)
          | _ => exact (if_pos hopen).trans rfl
        rw [happly, attempt_threw hg.alive hpeer hno]
        cases handled message with
        | true => exact hview
        | false => exact (view_leave (hg.attempt hno') hx).trans (by rw [hview]; rfl)
  · have hshut : ¬ (view owner x g).socket c = .connected := by
      rw [hsocket]
      exact fun h => hconn (beq_iff_eq.mpr h)
    rw [step, if_neg hconn]
    exact (view_leave hg hx).trans (if_neg hshut).symm

variable (fmt) in
/-- **A turn that concerns the hub** is one of its session. -/
theorem view_turn (hg : Apart owner g) {t : Turn} (ht : Orderly owner t)
    (hx : concerns owner x t = true) :
    view owner x (turn fmt g t) = (view owner x g).turn fmt (mine owner x) t := by
  cases t with
  | network socket writeFails => rfl
  | event e =>
    cases e with
    | receive source => rfl
    | udp message =>
      rw [Gateway.turn, step_udp]
      rcases message with e | _ | message
      · cases hx
      · cases hx
      · cases message with
        | info m =>
          have hm : m.id = x := beq_iff_eq.mp hx
          rw [attempt_info]
          exact (view_own fmt owner x m .Udp _ none hg.alive (fun _ hc => by cases hc) hm).1
        | _ => cases hx
    | tcp c message => exact view_tcp hg (beq_iff_eq.mp hx) ht

end

/-! ### Runs -/

section

variable {owner : TcpClient → Option String} {g : GatewayManager}

/-- The session of a hub after the turns that concern it. -/
def session (fmt : TextFormat) (owner : TcpClient → Option String) (x : Option String) (s : Session)
    (ts : List Turn) : Session :=
  (ts.filter (concerns owner x)).foldl (Session.turn fmt (mine owner x)) s

/-- **A hub's share of a run is a run of its session.** -/
theorem view_turns (fmt : TextFormat) (hg : Apart owner g) {ts : List Turn}
    (hts : ∀ t ∈ ts, Orderly owner t) (x : Option String) :
    view owner x (turns fmt g ts) = session fmt owner x (view owner x g) ts := by
  induction ts generalizing g with
  | nil => rfl
  | cons t ts ih =>
    have ht := hts t (List.mem_cons_self ..)
    have hrest := ih (hg.turn fmt ht) fun t ht => hts t (List.mem_cons_of_mem _ ht)
    rw [turns, List.foldl_cons]
    refine hrest.trans ?_
    rw [session, session, List.filter_cons]
    cases hx : concerns owner x t with
    | true => rw [if_pos rfl, List.foldl_cons, view_turn fmt hg ht hx]
    | false => rw [if_neg (by simp), view_turn_other fmt hg ht hx]

theorem apart_turns (fmt : TextFormat) (hg : Apart owner g) {ts : List Turn}
    (hts : ∀ t ∈ ts, Orderly owner t) : Apart owner (turns fmt g ts) := by
  induction ts generalizing g with
  | nil => exact hg
  | cons t ts ih =>
    exact ih (hg.turn fmt (hts t (List.mem_cons_self ..))) fun t ht => hts t (List.mem_cons_of_mem _ ht)

/-- **The registry is that of the sessions**, each of which ran on what concerns it alone. -/
theorem registry_of_sessions (fmt : TextFormat) (hg : Apart owner g) {ts : List Turn}
    (hts : ∀ t ∈ ts, Orderly owner t) (hubInfo : HubInfo) :
    hubInfo ∈ (turns fmt g ts).connections ↔
      (session fmt owner hubInfo.id (view owner hubInfo.id g) ts).entry = some hubInfo := by
  rw [← view_turns fmt hg hts]
  refine ⟨fun hmem => ?_, fun hentry => List.mem_of_find?_eq_some hentry⟩
  obtain ⟨as, bs, hl⟩ := List.append_of_mem hmem
  exact find_cut (cut_entry (apart_turns fmt hg hts).nodup hl).1

end

/-! ### Two hubs -/

def owners (c : TcpClient) : Option String := if c = 0 then some "a" else some "b"

def comes (c : TcpClient) (id : String) : Turn :=
  .event (.tcp c (.ok (some (({ id := some id } : HubInfo).toMessage dottedText))))

def visits : List Turn := [comes 0 "a", comes 1 "b", .event (.tcp 0 (.error .endOfStream))]

theorem apart_start (owner : TcpClient → Option String) (udpEndpoint : IPEndPoint)
    (socket : TcpClient → SocketState) : Apart owner (.start udpEndpoint socket) :=
  ⟨List.nodup_nil, (fun h hh => by cases hh), fun _ => rfl⟩

theorem registry_of_sessions_visits : ({ id := some "b", client := some 1 } : HubInfo) ∈
    (turns dottedText (.start anyEndPoint fun _ => .connected) visits).connections := by
  have hapart : Apart owners (.start anyEndPoint fun _ => .connected) := apart_start ..
  refine (registry_of_sessions dottedText hapart (fun t ht => ?_) _).mpr (by decide +kernel)
  simp only [visits, List.mem_cons, List.not_mem_nil, or_false] at ht
  rcases ht with rfl | rfl | rfl
  · rfl
  · rfl
  · trivial

end Blockcore.Gateway.Independence
