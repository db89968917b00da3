import Blockcore.Gateway.Departure
import Blockcore.Gateway.Relay

/-!
# What a dead peer does to the others

A client may report that it is connected while every write to it throws.  The
first such client ends a broadcast; the exception leaves the handler, and on the
thread of the sender the `catch` disconnects the sender.

`unharmed_iff` is the exact condition for this to do no harm, for a hub's message
or a broadcast over either protocol and for a disconnect: every live client
stands once, before the first dead one (`Ahead`), and if the sender is
registered over TCP there is no dead one at all.
-/

namespace Blockcore.Gateway

open Lib Networking

/-! ### The operations -/

/-- The operations that tell every registered client something: a hub's message
and a broadcast, from a datagram or over a client, and a disconnect. -/
inductive Operation (fmt : TextFormat) where
  | info (sender : Option TcpClient) (m : HubInfoMessage) (p : Parsed) (parses : Parses fmt m p)
  | broadcast (sender : Option TcpClient) (m : BroadcastMessage) (hub : m.to = some "HUB")
  | disconnect (client : TcpClient)

/-- What the worker does with a message: the UDP worker, or the thread of the
client. -/
def round (fmt : TextFormat) (sender : Option TcpClient) (m : BaseMessage) (g : GatewayManager) :
    GatewayManager :=
  match sender with
  | none => udpRound fmt (.ok (some m)) g
  | some c => (tcpRound fmt c (.ok (some m)) g).state

namespace Operation

variable {fmt : TextFormat}

/-- The client the operation's message came over. -/
def sender : Operation fmt → Option TcpClient
  | info sender .. => sender
  | broadcast sender .. => sender
  | disconnect _ => none

def after : Operation fmt → GatewayManager → GatewayManager
  | info sender m _ _, g => round fmt sender (.info m) g
  | broadcast sender m _, g => round fmt sender (.broadcast m) g
  | disconnect c, g => (g.disconnect c).state

def entered : Operation fmt → GatewayManager → GatewayManager
  | info none m p _, g => (enter p m (some g.udpEndpoint) none g).1
  | info (some c) m p _, g => (enter p m none (some c) g).1
  | broadcast .., g => g
  | disconnect c, g =>
    match g.getConnectionOf c with
    | none => g
    | some (_, i) => (g.removeConnection i).close c

def announcement : Operation fmt → GatewayManager → BaseMessage
  | info none m p _, g => (enter p m (some g.udpEndpoint) none g).2.toMessage fmt
  | info (some c) m p _, g => (enter p m none (some c) g).2.toMessage fmt
  | broadcast _ m _, _ => .broadcast m
  | disconnect c, g => disconnected (((g.getConnectionOf c).map Prod.fst).getD {})

/-- The connected clients it is meant for; a client nobody is registered under
leaves without a word. -/
def recipients (op : Operation fmt) (g : GatewayManager) : List TcpClient :=
  match op with
  | disconnect c =>
    if (g.getConnectionOf c).isSome then (op.entered g).liveClients (op.entered g).connections else []
  | _ => (op.entered g).liveClients (op.entered g).connections

def own : Operation fmt → HubInfo → Bool
  | info none m _ _, h => h.id == m.id
  | info (some c) .., h => h.client == some c
  | broadcast none m _, h => h.id == m.from
  | broadcast (some c) .., h => h.client == some c
  | disconnect _, _ => false

end Operation

/-- The live clients are told once each, and the sender's entries are all still
there. -/
structure Unharmed {fmt : TextFormat} (op : Operation fmt) (g : GatewayManager) : Prop where
  told : ∀ c ∈ op.recipients g, g.writeFails c = false →
    (sentTo ((op.after g).sent.drop g.sent.length) c).count (op.announcement g) = 1
  kept : ((op.after g).connections.filter op.own).map HubInfo.id =
    ((op.entered g).connections.filter op.own).map HubInfo.id

/-- Among these clients every live one stands once, before the first dead one. -/
structure Ahead (g : GatewayManager) (clients : List TcpClient) : Prop where
  once : (g.reached clients).Nodup
  before : ∀ c ∈ clients, g.writeFails c = false → c ∈ g.reached clients

/-- The condition under which dead clients do no harm. -/
structure Spared {fmt : TextFormat} (op : Operation fmt) (g : GatewayManager) : Prop where
  ahead : Ahead g (op.recipients g)
  sender : ∀ c, op.sender = some c → Registered (op.entered g) c →
    ∀ d ∈ op.recipients g, g.writeFails d = false
  closed : ∀ c, op = .disconnect c → g.socket c = .closed →
    ∀ d ∈ op.recipients g, g.writeFails d = true

section

variable {g g₁ : GatewayManager} {message : BaseMessage} {clients : List TcpClient}

/-! ### One broadcast -/

theorem mem_reached {c : TcpClient} (h : c ∈ g.reached clients) :
    c ∈ clients ∧ g.writeFails c = false :=
  ⟨(List.takeWhile_prefix _).subset h, by simpa using List.mem_takeWhile_imp h⟩

/-- **Every live client is reached once** exactly when it stands once, before the
first dead one. -/
theorem ahead_iff_count :
    (∀ c ∈ clients, g.writeFails c = false → (g.reached clients).count c = 1) ↔ Ahead g clients := by
  refine ⟨?_, ?_⟩
  · intro h
    refine ⟨?_, ?_⟩
    · rw [List.nodup_iff_count_le_one]
      intro c
      by_cases hc : c ∈ g.reached clients
      · obtain ⟨hmem, hlive⟩ := mem_reached hc
        rw [h c hmem hlive]
      · rw [List.count_eq_zero_of_not_mem hc]
        omega
    · intro c hc hlive
      rw [← List.count_pos_iff, h c hc hlive]
      omega
  · intro h c hc hlive
    exact List.count_eq_one_of_mem h.once (h.before c hc hlive)

def key (h : HubInfo) : Option String × Option TcpClient := (h.id, h.client)

/-- How a handler tells everyone something: it is done when all are alive, having
sent nothing else of the kind, and stops at the first dead one. -/
structure Tells (o : Outcome Exception GatewayManager) (g : GatewayManager)
    (message : BaseMessage) : Prop where
  alive : (∀ c ∈ g.liveClients g.connections, g.writeFails c = false) →
    ∃ l extra, o = .done ({ g with connections := l }.log
        ((g.liveClients g.connections).map (Sent.tcp · message) ++ extra)) ∧
      l.map key = g.connections.map key ∧ ∀ c, message ∉ sentTo extra c
  dead : (∃ c ∈ g.liveClients g.connections, g.writeFails c = true) →
    o = .thrown .io (g.log ((g.reached (g.liveClients g.connections)).map (Sent.tcp · message)))

theorem broadcastTCP_tells (message : BaseMessage) :
    Tells (g.broadcastTCP message) g message where
  alive hw := ⟨g.connections, [], by rw [GatewayManager.broadcastTCP_alive _ hw, List.append_nil],
    rfl, fun c => by simp [sentTo]⟩
  dead hw := GatewayManager.broadcastTCP_dead _ hw

theorem broadcast_tells {m : BroadcastMessage} (hub : m.to = some "HUB") :
    Tells (processBroadcast m g) g (.broadcast m) where
  alive hw := ⟨g.connections, [], by rw [processBroadcast_hub hub hw, List.append_nil], rfl,
    fun c => by simp [sentTo]⟩
  dead hw := by
    rw [processBroadcast, if_pos hub, Broadcast.toMessage_ofMessage]
    exact GatewayManager.sendAll_dead _ hw

theorem info_not_mem_tests (protocol : ProtocolType) (hubInfo : HubInfo) (m : HubInfoMessage)
    (c : TcpClient) : BaseMessage.info m ∉ sentTo (tests protocol hubInfo g) c := by
  intro h
  simp only [sentTo, tests, List.mem_filterMap, List.mem_append] at h
  obtain ⟨s, hs, hm⟩ := h
  rcases hs with hs | hs
  · split at hs
    · rw [List.mem_singleton.mp hs] at hm
      cases hm
    · cases hs
  · split at hs
    · obtain ⟨d, _, rfl⟩ := List.mem_map.mp hs
      dsimp only at hm
      split at hm <;> cases hm
    · cases hs

theorem sentTo_introductions (fmt : TextFormat) (hubInfo : HubInfo) (c : TcpClient) :
    sentTo (introductions fmt hubInfo g) c = [] := by
  rw [introductions]
  split
  · exact sentTo_map_udp ..
  · rfl

theorem info_tells {fmt : TextFormat} {m : HubInfoMessage} {p : Parsed} (hp : Parses fmt m p)
    (protocol : ProtocolType) (endpoint : Option IPEndPoint) (client : Option TcpClient)
    (hpeer : ∀ c ∈ client, g.socket c ≠ .closed) :
    Tells (processInfo fmt m protocol endpoint client g) (enter p m endpoint client g).1
      ((enter p m endpoint client g).2.toMessage fmt) := by
  obtain ⟨as, found, bs, _, henter, hproc⟩ := processInfo_of_parses protocol endpoint client hp hpeer
  rw [hproc, henter]
  generalize entry p m endpoint client found = e
  refine ⟨?_, ?_⟩
  · intro hw
    rw [announce_alive rfl hw]
    refine ⟨_, _, rfl, ?_, fun c => ?_⟩
    · have hkey : key (introduced e) = key e := by
        rw [introduced]
        split <;> rfl
      simp [hkey]
    · split
      · simp [sentTo]
      · rw [sentTo_append, sentTo_introductions, List.append_nil]
        exact info_not_mem_tests _ _ _ _
  · intro hw
    exact announce_dead hw

/-! ### What the others are told, and who is kept -/

variable {o : Outcome Exception GatewayManager}

theorem Tells.sent (h : Tells o g message) : ∃ extra,
    o.state.sent = g.sent ++
      ((g.reached (g.liveClients g.connections)).map (Sent.tcp · message) ++ extra) ∧
    ∀ c, message ∉ sentTo extra c := by
  by_cases hw : ∃ c ∈ g.liveClients g.connections, g.writeFails c = true
  · exact ⟨[], by rw [h.dead hw, List.append_nil]; rfl, fun c => by simp [sentTo]⟩
  · have halive : ∀ c ∈ g.liveClients g.connections, g.writeFails c = false := by
      intro c hc
      by_contra hf
      exact hw ⟨c, hc, by simpa using hf⟩
    obtain ⟨l, extra, ho, _, hextra⟩ := h.alive halive
    exact ⟨extra, by rw [ho, GatewayManager.reached_alive halive]; rfl, hextra⟩

theorem Tells.map_key (h : Tells o g message) :
    o.state.connections.map key = g.connections.map key := by
  by_cases hw : ∃ c ∈ g.liveClients g.connections, g.writeFails c = true
  · rw [h.dead hw]
    rfl
  · obtain ⟨l, extra, ho, hl, _⟩ := h.alive fun c hc => by
      by_contra hf
      exact hw ⟨c, hc, by simpa using hf⟩
    rw [ho]
    exact hl

/-- **The live clients are told once each** exactly when they stand ahead. -/
theorem Tells.told_iff (h : Tells o g message) :
    (∀ c ∈ g.liveClients g.connections, g.writeFails c = false →
      (sentTo (o.state.sent.drop g.sent.length) c).count message = 1) ↔
    Ahead g (g.liveClients g.connections) := by
  obtain ⟨extra, hsent, hextra⟩ := h.sent
  rw [← ahead_iff_count]
  refine forall_congr' fun c => forall_congr' fun _ => forall_congr' fun _ => ?_
  rw [hsent, List.drop_left, sentTo_append, sentTo_map_tcp, List.count_append,
    List.count_replicate_self, List.count_eq_zero_of_not_mem (hextra c), Nat.add_zero]

theorem map_id_filter_of_map_key {own : HubInfo → Bool} (hown : ∀ h h', key h = key h' → own h = own h') :
    ∀ {l l' : List HubInfo}, l.map key = l'.map key →
      (l.filter own).map HubInfo.id = (l'.filter own).map HubInfo.id := by
  intro l
  induction l with
  | nil =>
    intro l' h
    rw [List.map_eq_nil_iff.mp h.symm]
  | cons x l ih =>
    intro l' h
    cases l' with
    | nil => cases h
    | cons y l' =>
      obtain ⟨hk, hl⟩ := List.cons.inj h
      rw [List.filter_cons, List.filter_cons, hown x y hk]
      split
      · rw [List.map_cons, List.map_cons, ih hl, (Prod.mk.inj hk).1]
      · exact ih hl

theorem disconnect_drops {c : TcpClient} (h : Registered g c) :
    (((g.disconnect c).state.connections.filter (fun x => x.client == some c)).length <
      (g.connections.filter (fun x => x.client == some c)).length) := by
  obtain ⟨as, hubInfo, bs, hcut, hd⟩ := disconnect_eq h
  have hl : g.connections = as ++ hubInfo :: bs := hcut.eq
  have hconn : (g.disconnect c).state.connections = as ++ bs := by
    rw [hd]
    split
    · rfl
    · rw [GatewayManager.broadcastTCP_state]
      rfl
  rw [hconn, hl, List.filter_append, List.filter_append, List.filter_cons,
    if_pos (hcut.matches_found hubInfo rfl)]
  simp

/-- What the worker that caught the outcome leaves. -/
def caught (sender : Option TcpClient) (o : Outcome Exception GatewayManager) : GatewayManager :=
  match sender with
  | none => o.state
  | some c => (o.handle fun _ g => g.disconnect c).state

/-- **What the worker makes of it**: the live clients are told once each and the
sender is kept, exactly when the live ones stand ahead and a sender that is
registered over TCP has no dead one beside it. -/
theorem Tells.caught_iff (h : Tells o g message) (sender : Option TcpClient) (own : HubInfo → Bool)
    (hown : ∀ x y, key x = key y → own x = own y)
    (hsender : ∀ c, sender = some c → ∀ x, own x = (x.client == some c)) :
    ((∀ c ∈ g.liveClients g.connections, g.writeFails c = false →
        (sentTo ((caught sender o).sent.drop g.sent.length) c).count message = 1) ∧
      ((caught sender o).connections.filter own).map HubInfo.id =
        (g.connections.filter own).map HubInfo.id) ↔
    (Ahead g (g.liveClients g.connections) ∧
      ∀ c, sender = some c → Registered g c →
        ∀ d ∈ g.liveClients g.connections, g.writeFails d = false) := by
  by_cases hbad : ∃ c, sender = some c ∧ Registered g c ∧
      ∃ d ∈ g.liveClients g.connections, g.writeFails d = true
  · -- the exception disconnects the sender
    obtain ⟨c, rfl, hreg, d, hd, hf⟩ := hbad
    have hdead := h.dead ⟨d, hd, hf⟩
    refine iff_of_false ?_ ?_
    · rintro ⟨_, hkept⟩
      rw [caught, hdead, Outcome.thrown_handle, funext (hsender c rfl)] at hkept
      have hlen := congrArg List.length hkept
      rw [List.length_map, List.length_map] at hlen
      exact absurd hlen (Nat.ne_of_lt (disconnect_drops ((registered_log _).mpr hreg)))
    · rintro ⟨_, hall⟩
      rw [hall c rfl hreg d hd] at hf
      cases hf
  · -- nothing more happens than the handler did
    have hsame : caught sender o = o.state := by
      cases sender with
      | none => rfl
      | some c =>
        by_cases hw : ∃ d ∈ g.liveClients g.connections, g.writeFails d = true
        · have hreg : ¬ Registered g c := fun hreg => hbad ⟨c, rfl, hreg, hw⟩
          rw [caught, h.dead hw, Outcome.thrown_handle,
            disconnect_unregistered (mt (registered_log _).mp hreg)]
          rfl
        · obtain ⟨l, extra, ho, _⟩ := h.alive fun d hd => by
            by_contra hf
            exact hw ⟨d, hd, by simpa using hf⟩
          rw [ho]
          rfl
    rw [hsame, h.told_iff]
    refine and_congr_right fun _ => iff_of_true (map_id_filter_of_map_key hown h.map_key) ?_
    intro c hc hreg d hd
    by_contra hf
    exact hbad ⟨c, hc, hreg, d, hd, by simpa using hf⟩

end

/-! ### The operations -/

section

variable {fmt : TextFormat} {g : GatewayManager}

theorem round_none (m : BaseMessage) : round fmt none m g =
    caught none (attempt fmt (.ok (some m)) .Udp (some g.udpEndpoint) none g) :=
  Outcome.state_handle_done _

theorem round_some (c : TcpClient) (m : BaseMessage) : round fmt (some c) m g =
    caught (some c) (attempt fmt (.ok (some m)) .Tcp none (some c) g) := rfl

variable (fmt) in
theorem attempt_broadcast (m : BroadcastMessage) (protocol : ProtocolType)
    (endpoint : Option IPEndPoint) (client : Option TcpClient) :
    attempt fmt (.ok (some (.broadcast m))) protocol endpoint client g = processBroadcast m g := by
  rw [attempt, dispatch, process_gatewayMaps]

theorem enter_same (p : Parsed) (m : HubInfoMessage) (endpoint : Option IPEndPoint)
    (client : Option TcpClient) (g : GatewayManager) :
    (enter p m endpoint client g).1.sent = g.sent ∧
      (enter p m endpoint client g).1.writeFails = g.writeFails := by
  rw [enter]
  split <;> exact ⟨rfl, rfl⟩

theorem ahead_congr {g₁ : GatewayManager} (h : g₁.writeFails = g.writeFails)
    (clients : List TcpClient) : Ahead g₁ clients ↔ Ahead g clients := by
  have hreached : g₁.reached clients = g.reached clients := by
    rw [GatewayManager.reached, h]
    rfl
  refine ⟨?_, ?_⟩
  · intro ha
    exact ⟨hreached ▸ ha.once, fun c hc hf => hreached ▸ ha.before c hc (by rwa [h])⟩
  · intro ha
    exact ⟨hreached ▸ ha.once, fun c hc hf => hreached ▸ ha.before c hc (by rwa [← h])⟩

theorem unharmed_iff_of_tells {op : Operation fmt} {o : Outcome Exception GatewayManager}
    (h : Tells o (op.entered g) (op.announcement g)) (hafter : op.after g = caught op.sender o)
    (hrec : op.recipients g = (op.entered g).liveClients (op.entered g).connections)
    (hsent : (op.entered g).sent = g.sent) (hw : (op.entered g).writeFails = g.writeFails)
    (hown : ∀ x y, key x = key y → op.own x = op.own y)
    (hsender : ∀ c, op.sender = some c → ∀ x, op.own x = (x.client == some c))
    (hmessage : ∀ c, op ≠ .disconnect c) : Unharmed op g ↔ Spared op g := by
  have hiff := h.caught_iff op.sender op.own hown hsender
  rw [← hafter, ← hrec, hsent, hw, ahead_congr hw] at hiff
  refine ⟨?_, ?_⟩
  · intro hu
    obtain ⟨hahead, hall⟩ := hiff.mp ⟨hu.told, hu.kept⟩
    exact ⟨hahead, hall, fun c hc => absurd hc (hmessage c)⟩
  · intro hsp
    obtain ⟨htold, hkept⟩ := hiff.mpr ⟨hsp.ahead, hsp.sender⟩
    exact ⟨htold, hkept⟩

variable (fmt) in
theorem filter_own_disconnect (c : TcpClient) (l : List HubInfo) :
    l.filter (Operation.disconnect c : Operation fmt).own = [] :=
  List.filter_eq_nil_iff.mpr fun x _ => by simp [Operation.own]

variable (fmt) in
theorem unharmed_disconnect_of_none {c : TcpClient} (hf : g.getConnectionOf c = none) :
    Unharmed (.disconnect c : Operation fmt) g ∧ Spared (.disconnect c : Operation fmt) g := by
  have hrec : (Operation.disconnect c : Operation fmt).recipients g = [] := by
    rw [Operation.recipients, hf]
    rfl
  refine ⟨⟨?_, ?_⟩, ⟨⟨?_, ?_⟩, ?_, ?_⟩⟩
  · rw [hrec]
    intro d hd
    cases hd
  · rw [filter_own_disconnect, filter_own_disconnect]
  · rw [hrec]
    exact List.nodup_nil
  · rw [hrec]
    intro d hd
    cases hd
  · intro d hd
    cases hd
  · rw [hrec]
    intro d _ _ e he
    cases he

theorem unharmed_disconnect_of_some {c : TcpClient} {hubInfo : HubInfo} {i : Nat}
    (hf : g.getConnectionOf c = some (hubInfo, i)) :
    Unharmed (.disconnect c : Operation fmt) g ↔ Spared (.disconnect c : Operation fmt) g := by
  have hentered : (Operation.disconnect c : Operation fmt).entered g =
      (g.removeConnection i).close c := by
    rw [Operation.entered, hf]
  have hrec : (Operation.disconnect c : Operation fmt).recipients g =
      ((g.removeConnection i).close c).liveClients ((g.removeConnection i).close c).connections := by
    rw [Operation.recipients, hentered, hf]
    rfl
  have hmessage : (Operation.disconnect c : Operation fmt).announcement g = disconnected hubInfo := by
    rw [Operation.announcement, hf]
    rfl
  have hkept : (((Operation.disconnect c : Operation fmt).after g).connections.filter
      (Operation.disconnect c : Operation fmt).own).map HubInfo.id =
      (((Operation.disconnect c : Operation fmt).entered g).connections.filter
        (Operation.disconnect c : Operation fmt).own).map HubInfo.id := by
    rw [filter_own_disconnect, filter_own_disconnect]
  by_cases hclosed : g.socket c = .closed
  · -- the log line throws before anyone is told
    have hafter : (Operation.disconnect c : Operation fmt).after g = g.removeConnection i := by
      rw [Operation.after, GatewayManager.disconnect, hf]
      exact congrArg Outcome.state (if_pos hclosed)
    refine ⟨?_, ?_⟩
    · intro hu
      have hdead : ∀ d ∈ (Operation.disconnect c : Operation fmt).recipients g,
          g.writeFails d = true := by
        intro d hd
        by_contra hfd
        have htold := hu.told d hd (by simpa using hfd)
        rw [hafter, show (g.removeConnection i).sent = g.sent from rfl, List.drop_length] at htold
        cases htold
      refine ⟨ahead_iff_count.mp fun d hd hfd => ?_, (fun d hd => by cases hd),
        fun _ _ _ => hdead⟩
      rw [hdead d hd] at hfd
      cases hfd
    · intro hsp
      refine ⟨fun d hd hfd => ?_, hkept⟩
      rw [hsp.closed c rfl hclosed d hd] at hfd
      cases hfd
  · have hafter : (Operation.disconnect c : Operation fmt).after g =
        (((g.removeConnection i).close c).broadcastTCP (disconnected hubInfo)).state := by
      rw [Operation.after, GatewayManager.disconnect, hf]
      exact congrArg Outcome.state (if_neg hclosed)
    have htold := (broadcastTCP_tells (g := (g.removeConnection i).close c)
      (disconnected hubInfo)).told_iff
    rw [← hafter, ← hrec, ← hmessage,
      ahead_congr (show ((g.removeConnection i).close c).writeFails = g.writeFails from rfl)] at htold
    refine ⟨?_, ?_⟩
    · intro hu
      exact ⟨htold.mp hu.told, (fun d hd => by cases hd),
        fun d hd hd' => absurd (Operation.disconnect.inj hd ▸ hd') hclosed⟩
    · intro hsp
      exact ⟨htold.mpr hsp.ahead, hkept⟩

/-- **One dead peer does not harm the others exactly when** the live clients stand
once, before every dead one, and a sender registered over TCP has no dead one
beside it. -/
theorem unharmed_iff (op : Operation fmt) (g : GatewayManager)
    (hs : ∀ c, op.sender = some c → g.connected c = true) : Unharmed op g ↔ Spared op g := by
  cases op with
  | info sender m p parses =>
    cases sender with
    | none =>
      obtain ⟨hsent, hw⟩ := enter_same p m (some g.udpEndpoint) none g
      have htells := info_tells (g := g) parses .Udp (some g.udpEndpoint) none (by simp)
      rw [← attempt_info] at htells
      exact unharmed_iff_of_tells htells (round_none _) rfl hsent hw
        (fun x y hk => by simp only [Operation.own, (Prod.mk.inj hk).1])
        (fun c hc => by cases hc) (fun c hc => by cases hc)
    | some c =>
      obtain ⟨hsent, hw⟩ := enter_same p m none (some c) g
      have htells := info_tells (g := g) parses .Tcp none (some c)
        (GatewayManager.open_of_connected (hs c rfl))
      rw [← attempt_info] at htells
      exact unharmed_iff_of_tells htells (round_some c _) rfl hsent hw
        (fun x y hk => by simp only [Operation.own, (Prod.mk.inj hk).2])
        (fun d hd x => by rw [← Option.some.inj hd]; rfl) (fun d hd => by cases hd)
  | broadcast sender m hub =>
    have htells := broadcast_tells (g := g) hub
    cases sender with
    | none =>
      rw [← attempt_broadcast fmt] at htells
      exact unharmed_iff_of_tells htells (round_none _) rfl rfl rfl
        (fun x y hk => by simp only [Operation.own, (Prod.mk.inj hk).1])
        (fun c hc => by cases hc) (fun c hc => by cases hc)
    | some c =>
      rw [← attempt_broadcast fmt] at htells
      exact unharmed_iff_of_tells htells (round_some c _) rfl rfl rfl
        (fun x y hk => by simp only [Operation.own, (Prod.mk.inj hk).2])
        (fun d hd x => by rw [← Option.some.inj hd]; rfl) (fun d hd => by cases hd)
  | disconnect c =>
    cases hf : g.getConnectionOf c with
    | none =>
      obtain ⟨hu, hsp⟩ := unharmed_disconnect_of_none fmt hf
      exact iff_of_true hu hsp
    | some x => exact unharmed_disconnect_of_some hf

end

/-- Three hubs; the second no longer takes what is written to it. -/
def threeHubs : GatewayManager where
  connections := [{ id := some "a", client := some 1 }, { id := some "b", client := some 2 },
    { id := some "c", client := some 3 }]
  udpEndpoint := anyEndPoint
  socket _ := .connected
  writeFails c := c == 2
  sent := []

def fromFirst : Operation dottedText :=
  .broadcast (some 1) { «from» := some "a", «to» := some "HUB" } rfl

theorem unharmed_iff_fromFirst : Unharmed fromFirst threeHubs ↔ Spared fromFirst threeHubs :=
  unharmed_iff fromFirst threeHubs (fun _ _ => rfl)

/-- **The third does not get the broadcast**, and the first is disconnected. -/
theorem third_not_told :
    ¬ ∀ (fmt : TextFormat) (op : Operation fmt) (g : GatewayManager),
      (∀ c, op.sender = some c → g.connected c = true ∧ g.writeFails c = false) →
      Unharmed op g := by
  intro hall
  have hu := hall dottedText fromFirst threeHubs (by
    intro c hc
    rw [← Option.some.inj hc]
    exact ⟨rfl, rfl⟩)
  exact absurd (hu.told 3 (by decide) rfl) (by decide)

end Blockcore.Gateway
