import Blockcore.Lib.Delivery
import Blockcore.Hub.WebSocketHub
import Blockcore.Network.Traffic

/-!
# Broadcasts from hub to hub

A user has a hub send a broadcast to all hubs; it waits on the hub's client for the gateway,
which passes a copy on to each client it has registered; and it waits there for the
other hub.  Any of this may fail: the hub is not connected, the gateway's thread or a write
of its fails, a client is given up for another.

For two hubs this is a `Delivery`, in which nothing is lost in a step that is `Lossless`
(`mail_steps`).  So the broadcasts a hub takes from another are among those the other was asked
for, each as often at most (`broadcasts_kept`); and in their order, if the other connected
only once (`broadcasts_inOrder`).
-/

namespace Blockcore.Network.Links.Broadcasts

open Lib Networking Gateway Hub

/-- The broadcasts to all hubs that name this one as their source. -/
def broadcasts (id : Option String) (messages : List BaseMessage) : List BroadcastMessage :=
  messages.filterMap fun
    | .broadcast m => if m.from = id ∧ m.to = some "HUB" then some m else none
    | _ => none

section

variable {id : Option String}

theorem broadcasts_append (l l' : List BaseMessage) :
    broadcasts id (l ++ l') = broadcasts id l ++ broadcasts id l' := List.filterMap_append

theorem broadcasts_cons (m : BaseMessage) (l : List BaseMessage) :
    broadcasts id (m :: l) = broadcasts id [m] ++ broadcasts id l := broadcasts_append [m] l

theorem broadcasts_eq_nil {l : List BaseMessage} (hl : ∀ m, .broadcast m ∉ l) : broadcasts id l = [] := by
  refine List.filterMap_eq_nil_iff.mpr fun m hm => ?_
  cases m with
  | broadcast m => exact absurd hm (hl m)
  | _ => rfl

theorem broadcasts_singleton (m : BroadcastMessage) :
    broadcasts id [.broadcast m] = if m.from = id ∧ m.to = some "HUB" then [m] else [] := by
  rw [broadcasts, List.filterMap_cons, List.filterMap_nil]
  by_cases h : m.from = id ∧ m.to = some "HUB"
  · simp only [if_pos h]
  · simp only [if_neg h]

theorem broadcasts_one (id : Option String) (message : BaseMessage) : broadcasts id [message] = [] ∨
    ∃ m, message = .broadcast m ∧ broadcasts id [message] = [m] := by
  cases message with
  | broadcast m =>
    rw [broadcasts_singleton]
    split
    · exact Or.inr ⟨m, rfl, rfl⟩
    · exact Or.inl rfl
  | _ => exact Or.inl rfl

end

section

variable {ι : Type} [DecidableEq ι]

/-- The broadcasts to all hubs that the users of hub `i` asked for. -/
def asked (i : ι) (ls : List (Label ι)) : List BroadcastMessage :=
  ls.filterMap fun
    | .send k (.broadcast m) => if k = i ∧ m.to = some "HUB" then some m else none
    | _ => none

/-- The broadcast of this hub that hub `j` takes. -/
def takes (j : ι) (id : Option String) (s : State ι) : Label ι → List BroadcastMessage
  | .receive k => if k = j then (s.link j).elim [] fun c => broadcasts id ((s.toHub c).take 1) else []
  | _ => []

def received (fmt : TextFormat) (address : ι → IPEndPoint) (server : IPEndPoint) (j : ι)
    (id : Option String) (s₀ : State ι) (ls : List (Label ι)) : List BroadcastMessage :=
  trace (step fmt address server) (takes j id) s₀ ls

/-- Broadcasts are asked for by `WebSocketHub`. -/
def Honest (s : State ι) : Label ι → Prop
  | .send i (.broadcast m) => WebSocketHub.Asked (s.hub i) m
  | _ => True

/-- What is on its way from hub `i` to hub `j`. -/
def mail (name : ι → Option String) (i j : ι) (s : State ι) (asked taken : List BroadcastMessage) :
    Delivery BroadcastMessage where
  asked := asked
  queues := (List.range s.opened.length).map fun c => broadcasts (name i) (s.toGateway c)
  inbox := (s.link j).elim [] fun c => broadcasts (name i) (s.toHub c)
  taken := taken

/-- A client is opened before anything is under way on it, and the gateway relays to clients
that were opened. -/
structure Inv (name : ι → Option String) (s : State ι) : Prop extends Base name s, Wire s where
  unopened : ∀ c, s.opened.length ≤ c → s.toGateway c = []
  relayed : ∀ c m, .broadcast m ∈ s.toHub c → c < s.opened.length

variable {name : ι → Option String} {fmt : TextFormat} {address : ι → IPEndPoint} {server : IPEndPoint}
  {s s' : State ι} {i j : ι} {via : Nat → Prop} {loses : Prop}

omit [DecidableEq ι] in
theorem mail_congr (hopened : s'.opened = s.opened) (hlink : s'.link = s.link)
    (hgateway : ∀ c, broadcasts (name i) (s'.toGateway c) = broadcasts (name i) (s.toGateway c))
    (hhub : ∀ c, broadcasts (name i) (s'.toHub c) = broadcasts (name i) (s.toHub c))
    (A R : List BroadcastMessage) : mail name i j s' A R = mail name i j s A R := by
  simp only [mail, hopened, hlink, hgateway, hhub]

theorem broadcasts_setHub {P : BaseMessage → Prop} {k : ι} {h : HubManager} (hw : Writes P (s.hub k) h)
    {id : Option String} (hP : ∀ m, P m → broadcasts id [m] = []) (c : TcpClient) :
    broadcasts id ((s.setHub address k h).toGateway c) = broadcasts id (s.toGateway c) := by
  show broadcasts id (if s.link k = some c then _ else _) = _
  split
  · rw [broadcasts_append, List.append_right_eq_self]
    have hnone : ∀ l : List BaseMessage, (∀ m ∈ l, P m) → broadcasts id l = [] := by
      intro l
      induction l with
      | nil => exact fun _ => rfl
      | cons m l ih =>
        intro hl
        rw [broadcasts_cons, hP m (hl m (List.mem_cons_self ..)),
          ih fun m' hm' => hl m' (List.mem_cons_of_mem m hm'), List.append_nil]
    exact hnone _ fun m hm => hw.sentTCP hm
  · rfl

theorem broadcasts_requestOrInfo {id : Option String} (m : BaseMessage) (hm : requestOrInfo m) :
    broadcasts id [m] = [] := by
  cases m with
  | req _ => rfl
  | info _ => rfl
  | _ => cases hm

omit [DecidableEq ι] in
theorem broadcasts_setGateway {message : Option BaseMessage} {g : GatewayManager}
    (hspoken : Says (Said message) s.gateway g) {id : Option String}
    (hno : ∀ m, message = some (.broadcast m) → broadcasts id [.broadcast m] = []) (c : TcpClient) :
    broadcasts id ((s.setGateway server g).toHub c) = broadcasts id (s.toHub c) := by
  show broadcasts id (_ ++ _) = _
  rw [broadcasts_append, List.append_right_eq_self]
  refine List.filterMap_eq_nil_iff.mpr fun m hm => ?_
  have hsaid := hspoken.drop (mem_sentTo.mp hm)
  cases m with
  | broadcast m =>
    cases hsaid with
    | broadcast _ hmessage =>
      have hnone := hno m hmessage
      rw [broadcasts_singleton] at hnone
      simp only
      split
      · next h =>
        rw [if_pos h] at hnone
        cases hnone
      · rfl
  | _ => rfl

/-! ### A relayed broadcast -/

/-- Of broadcasts, no client was sent more than this one, once, and none that was not registered;
and each that the gateway reaches was sent this one. -/
def Relays (m : BroadcastMessage) (id : Option String) (g g' : GatewayManager) : Prop :=
  ∃ new, g'.sent = g.sent ++ new ∧
    (∀ c, broadcasts id (sentTo new c) = [] ∨ broadcasts id (sentTo new c) = broadcasts id [.broadcast m]) ∧
      (∀ c b, .broadcast b ∈ sentTo new c → Registered g c) ∧
        ∀ c ∈ g.reached (g.liveClients g.connections),
          broadcasts id (sentTo new c) = broadcasts id [.broadcast m]

omit [DecidableEq ι] in
theorem clients_nodup {opened : List ι} {g : GatewayManager} (ht : Tidy name opened g) :
    (g.connections.filterMap HubInfo.client).Nodup := by
  have hids := ht.nodup
  rw [ids, List.Nodup, List.pairwise_map] at hids
  rw [List.Nodup, List.pairwise_filterMap]
  refine hids.imp_of_mem fun {x y} hx hy hne c hc d hd heq => hne ?_
  subst heq
  exact (ht.owned x hx c hc).unique (ht.owned y hy c hd)

variable (fmt) in
omit [DecidableEq ι] in
/-- **A broadcast is relayed to each client once**, or not at all. -/
theorem relays_step {opened : List ι} {g : GatewayManager} (ht : Tidy name opened g) {c : TcpClient}
    (hconn : g.connected c = true) (m : BroadcastMessage) (id : Option String) :
    Relays m id g (Gateway.step fmt g (.tcp c (.ok (some (.broadcast m))))) := by
  have hattempt : Relays m id g (attempt fmt (.ok (some (.broadcast m))) .Tcp none (some c) g).state := by
    rw [attempt, dispatch, process_gatewayMaps]
    simp only [processBroadcast]
    split
    · rw [GatewayManager.sendAll_state, Broadcast.toMessage_ofMessage, GatewayManager.liveClients_broadcast]
      have hnodup : (g.reached (g.liveClients g.connections)).Nodup := by
        refine (List.takeWhile_sublist _).nodup ?_
        rw [GatewayManager.liveClients_eq_filter]
        exact (clients_nodup ht).filter _
      refine ⟨_, rfl, fun d => ?_, fun d b hb => ?_, fun d hd => ?_⟩
      · rw [sentTo_map_tcp]
        rcases Nat.le_one_iff_eq_zero_or_eq_one.mp (List.nodup_iff_count_le_one.mp hnodup d) with h | h
        · rw [h]
          exact Or.inl rfl
        · rw [h]
          exact Or.inr rfl
      · obtain ⟨e, he, heq⟩ := List.mem_map.mp (mem_sentTo.mp hb)
        cases heq
        exact (GatewayManager.mem_liveClients.mp ((List.takeWhile_sublist _).subset he)).2
      · rw [sentTo_map_tcp, List.count_eq_one_of_mem hnodup hd]
        rfl
    · next hto =>
      refine ⟨[], (List.append_nil _).symm, fun _ => Or.inl rfl, fun _ _ hb => ?_, fun _ _ => ?_⟩
      · cases hb
      · rw [broadcasts_singleton, if_neg fun h => hto h.2]
        rfl
  -- what `Disconnect` tells is no broadcast
  have hdisconnect : ∀ g', Relays m id g g' → Relays m id g (g'.disconnect c).state := by
    rintro g' ⟨new, hnew, hrelayed, hregistered, hreached⟩
    obtain ⟨more, hmore, hsaid⟩ := (Says.refl (P := Said none) g').disconnect c
    have hsilent : ∀ d b, .broadcast b ∉ sentTo more d := by
      intro d b hb
      cases hsaid _ (mem_sentTo.mp hb) with
      | broadcast _ hm => cases hm
    have hsame : ∀ d, broadcasts id (sentTo (new ++ more) d) = broadcasts id (sentTo new d) := by
      intro d
      rw [sentTo_append, broadcasts_append, broadcasts_eq_nil (hsilent d), List.append_nil]
    refine ⟨new ++ more, by rw [hmore, hnew, List.append_assoc], fun d => ?_, fun d b hb => ?_, fun d hd => ?_⟩
    · rw [hsame]
      exact hrelayed d
    · rw [sentTo_append, List.mem_append] at hb
      exact hregistered d b (hb.resolve_right (hsilent d b))
    · rw [hsame]
      exact hreached d hd
  rw [Gateway.step, if_pos hconn, tcpRound]
  cases ha : attempt fmt (.ok (some (.broadcast m))) .Tcp none (some c) g with
  | done g₁ =>
    rw [ha] at hattempt
    exact hattempt
  | thrown e g₁ =>
    rw [ha] at hattempt
    exact hdisconnect g₁ hattempt

/-! ### What every run keeps -/

omit [DecidableEq ι] in
theorem inv_fresh (hf : Fresh s) : Inv (fun i => (s.hub i).localHubInfo.id) s := by
  refine ⟨(Links.inv_fresh hf).toBase, wire_fresh hf, fun c _ => hf.toGateway c, fun c m hm => ?_⟩
  rw [hf.toHub] at hm
  cases hm

variable (server) in
omit [DecidableEq ι] in
theorem relayed_setGateway (ht : Tidy name s.opened s.gateway)
    (hr : ∀ c m, .broadcast m ∈ s.toHub c → c < s.opened.length) {g : GatewayManager}
    (hnew : ∃ new, g.sent = s.gateway.sent ++ new ∧ ∀ c b, .broadcast b ∈ sentTo new c → Registered s.gateway c)
    (c : TcpClient) (m : BroadcastMessage) (hm : .broadcast m ∈ (s.setGateway server g).toHub c) :
    c < s.opened.length := by
  obtain ⟨new, hsent, hregistered⟩ := hnew
  change _ ∈ s.toHub c ++ sentTo (g.sent.drop s.gateway.sent.length) c at hm
  rw [hsent, List.drop_left, List.mem_append] at hm
  rcases hm with hm | hm
  · exact hr c m hm
  · obtain ⟨x, hx, hxc⟩ := hregistered c m hm
    obtain ⟨k, hk, _⟩ := ht.owned x hx c hxc
    exact (List.getElem?_eq_some_iff.mp hk).1

omit [DecidableEq ι] in
theorem silent_of_spoken {message : Option BaseMessage} {g g' : GatewayManager}
    (hspoken : Says (Said message) g g') (hno : ∀ b, message ≠ some (.broadcast b)) :
    ∃ new, g'.sent = g.sent ++ new ∧ ∀ c b, .broadcast b ∈ sentTo new c → Registered g c := by
  obtain ⟨new, hnew, hsaid⟩ := hspoken
  refine ⟨new, hnew, fun c b hb => ?_⟩
  cases hsaid _ (mem_sentTo.mp hb) with
  | broadcast _ hm => exact absurd hm (hno b)

/-- **Every step** keeps the invariant. -/
theorem Inv.step (hi : Inv name s) {l : Label ι} (hs : step fmt address server s l = some s') :
    Inv name s' := by
  refine ⟨hi.toBase.step hs, hi.toWire.step hs, unopened_step hi.toBase hi.unopened hs, ?_⟩
  cases stepped hs with
  | connect k localEndPoint =>
    intro c m hm
    have hlen : (s.accept k).opened.length = s.opened.length + 1 := by simp [State.accept]
    exact hlen ▸ Nat.lt_succ_of_lt (hi.relayed c m hm)
  | receive hlink hq hlistening => exact fun c m hm => hi.relayed c m (mem_of_update hq hm)
  | @gatewayDatagram k d hd =>
    exact relayed_setGateway server hi.tidy hi.relayed
      (silent_of_spoken (says_step fmt (.receive d.source) s.gateway) fun b hb => by cases hb)
  | @gatewayHandle message htaken =>
    refine relayed_setGateway server hi.tidy hi.relayed
      (silent_of_spoken (says_step fmt (.udp (.ok (some message))) s.gateway) fun b hb => ?_)
    obtain rfl : message = .broadcast b := Option.some.inj hb
    exact hi.taken _ htaken
  | @gatewayReceive c message rest hq hconn =>
    refine relayed_setGateway server (s := { s with toGateway := Function.update s.toGateway c rest })
      hi.tidy hi.relayed ?_
    by_cases hm : ∃ b, message = .broadcast b
    · obtain ⟨b, rfl⟩ := hm
      obtain ⟨new, hnew, _, hregistered, _⟩ := relays_step fmt hi.tidy hconn b b.from
      exact ⟨new, hnew, hregistered⟩
    · refine silent_of_spoken (says_step fmt (.tcp c (.ok (some message))) s.gateway) fun b hb => ?_
      exact hm ⟨b, Option.some.inj hb⟩
  | gatewayEnd c e =>
    exact relayed_setGateway server hi.tidy hi.relayed
      (silent_of_spoken (says_step fmt (.tcp c (.error e)) s.gateway) fun b hb => by cases hb)
  | _ => exact hi.relayed

/-! ### Steps of the delivery -/

/-- Nothing that hub `i` sends hub `j` is lost in a step: hub `j` keeps its client, hub `i` can write
what it is asked for, and the gateway reaches the client of hub `j`. -/
def Lossless (i j : ι) (s : State ι) : Label ι → Prop
  | .connect k _ => k ≠ j
  | .send k (.broadcast _) =>
    k = i → (s.link i).isSome = true ∧ (s.hub i).connected = true ∧ (s.hub i).writeFails = false
  | .gatewayReceive _ =>
    ∃ d, s.link j = some d ∧ d ∈ s.gateway.reached (s.gateway.liveClients s.gateway.connections)
  | _ => True

theorem asked_send (i k : ι) (m : BroadcastMessage) :
    asked i [.send k (.broadcast m)] = if k = i ∧ m.to = some "HUB" then [m] else [] := by
  rw [asked, List.filterMap_cons, List.filterMap_nil]
  by_cases h : k = i ∧ m.to = some "HUB"
  · simp only [if_pos h]
  · simp only [if_neg h]

variable (address s) in
theorem mail_setHub {P : BaseMessage → Prop} {k : ι} {h : HubManager} (hw : Writes P (s.hub k) h)
    (hP : ∀ m, P m → broadcasts (name i) [m] = []) (A R : List BroadcastMessage) :
    mail name i j (s.setHub address k h) A R = mail name i j s A R := by
  refine mail_congr ?_ ?_ (broadcasts_setHub hw hP) (fun _ => ?_) A R <;> rfl

theorem map_range_update {α β : Type} (f : α → β) (q : Nat → α) (n c : Nat) (x : α) :
    ((List.range n).map fun d => f (Function.update q c x d)) =
      ((List.range n).map fun d => f (q d)).set c (f x) := by
  refine List.ext_getElem (by simp) fun d hd _ => ?_
  rw [List.getElem_set, List.getElem_map, List.getElem_map, List.getElem_range, Function.update_apply]
  by_cases h : d = c
  · rw [if_pos h, if_pos h.symm]
  · rw [if_neg h, if_neg (Ne.symm h)]

theorem getElem?_map_range {β : Type} (f : Nat → β) {n c : Nat} (hc : c < n) :
    ((List.range n).map f)[c]? = some (f c) := by
  rw [List.getElem?_map, List.getElem?_range hc, Option.map_some]

theorem mail_connect (hi : Inv name s) (k : ι) (localEndPoint : Option IPEndPoint) (hloses : k = j → loses)
    (A R : List BroadcastMessage) :
    Delivery.Steps via loses (mail name i j s A R)
      (mail name i j
        ((s.accept k).setHub address k ((s.hub k).connectGateway fmt server localEndPoint)) A R) := by
  have hw : Writes requestOrInfo ((s.accept k).hub k) ((s.hub k).connectGateway fmt server localEndPoint) :=
    writes_connectGateway fmt server localEndPoint (s.hub k)
  rw [mail_setHub address (s.accept k) hw broadcasts_requestOrInfo]
  have hqueues : ((List.range (s.accept k).opened.length).map fun c => broadcasts (name i) (s.toGateway c)) =
      ((List.range s.opened.length).map fun c => broadcasts (name i) (s.toGateway c)) ++ [[]] := by
    have hlen : (s.accept k).opened.length = s.opened.length + 1 := by simp [State.accept]
    rw [hlen, List.range_succ, List.map_append, List.map_singleton, hi.unopened _ (Nat.le_refl _)]
    rfl
  have hopened : Delivery.Steps via loses (mail name i j s A R)
      { mail name i j s A R with queues := (mail name i j s A R).queues ++ [[]] } := .single (.opened _)
  by_cases hjk : j = k
  · subst hjk
    have hinbox : broadcasts (name i) (s.toHub s.opened.length) = [] :=
      broadcasts_eq_nil fun m hm => Nat.lt_irrefl _ (hi.relayed _ m hm)
    have heq : mail name i j (s.accept j) A R =
        { mail name i j s A R with queues := (mail name i j s A R).queues ++ [[]], inbox := [] } := by
      simp only [mail]
      refine congrArg₂ (fun queues inbox => Delivery.mk A queues inbox R) hqueues ?_
      show ((Function.update s.link j (some s.opened.length)) j).elim [] _ = []
      rw [Function.update_self]
      exact hinbox
    rw [heq]
    exact hopened.tail (.cleared _ (hloses rfl))
  · have heq : mail name i j (s.accept k) A R =
        { mail name i j s A R with queues := (mail name i j s A R).queues ++ [[]] } := by
      simp only [mail]
      refine congrArg₂ (fun queues inbox => Delivery.mk A queues inbox R) hqueues ?_
      show ((Function.update s.link k (some s.opened.length)) j).elim [] _ = _
      rw [Function.update_of_ne hjk]
      rfl
    rw [heq]
    exact hopened

theorem mail_send (hi : Inv name s) (hvia : ∀ c, s.link i = some c → via c) {m : BroadcastMessage}
    (hm : broadcasts (name i) [.broadcast m] = [m])
    (hloses : ¬ ((s.link i).isSome = true ∧ (s.hub i).connected = true ∧ (s.hub i).writeFails = false) → loses)
    (A R : List BroadcastMessage) :
    Delivery.Steps via loses (mail name i j s A R)
      (mail name i j (s.setHub address i ((s.hub i).sendMessageTCP (.broadcast m))) (A ++ [m]) R) := by
  have hlost : ∀ s', loses → mail name i j s' A R = mail name i j s A R →
      Delivery.Steps via loses (mail name i j s A R) (mail name i j s' (A ++ [m]) R) := by
    intro s' h heq
    have hmail : mail name i j s' (A ++ [m]) R = { mail name i j s A R with asked := A ++ [m] } := by
      rw [← heq]
      rfl
    rw [hmail]
    exact .single (.lost _ m h)
  cases hlink : s.link i with
  | none =>
    refine hlost _ (hloses fun h => ?_) (mail_congr (by rfl) (by rfl) (fun c => ?_) (fun c => by rfl) A R)
    · rw [hlink] at h
      cases h.1
    · rw [setHub_toGateway_none address hlink]
  | some c =>
    have hc : c < s.opened.length := (List.getElem?_eq_some_iff.mp (hi.link i c hlink)).1
    have hqueues := setHub_toGateway address hlink ((s.hub i).sendMessageTCP (.broadcast m))
    rw [sentTCP_sendMessageTCP] at hqueues
    split at hqueues
    · have hmail : mail name i j (s.setHub address i ((s.hub i).sendMessageTCP (.broadcast m))) (A ++ [m]) R =
          { mail name i j s A R with
            asked := A ++ [m]
            queues := (mail name i j s A R).queues.set c (broadcasts (name i) (s.toGateway c) ++ [m]) } := by
        refine congrArg (fun queues => Delivery.mk (A ++ [m]) queues _ R) ?_
        rw [hqueues, ← hm, ← broadcasts_append]
        exact map_range_update (broadcasts (name i)) ..
      rw [hmail]
      exact .single (.queued m (hvia c hlink)
        (getElem?_map_range (fun c => broadcasts (name i) (s.toGateway c)) hc))
    · next hfails =>
      refine hlost _ (hloses fun h => hfails ?_)
        (mail_congr (by rfl) (by rfl) (fun d => ?_) (fun d => by rfl) A R)
      · rw [h.2.1, h.2.2]
        rfl
      · rw [hqueues, List.append_nil, Function.update_eq_self]

/-- **A hub takes a message**: if it is a broadcast of hub `i`, it is taken. -/
theorem mail_receive (hb : Base name s) {k : ι} {c : TcpClient} {message : BaseMessage}
    {rest : List BaseMessage} (hlink : s.link k = some c) (hq : s.toHub c = message :: rest)
    (A R : List BroadcastMessage) :
    Delivery.Steps via loses (mail name i j s A R)
      (mail name i j { s with toHub := Function.update s.toHub c rest } A
        (R ++ takes j (name i) s (.receive k))) := by
  by_cases hkj : k = j
  · subst hkj
    have htakes : takes k (name i) s (.receive k) = broadcasts (name i) [message] := by
      rw [takes, if_pos rfl, hlink, Option.elim_some, hq]
      rfl
    have hinbox : (mail name i k s A R).inbox = broadcasts (name i) [message] ++ broadcasts (name i) rest := by
      rw [← broadcasts_cons, ← hq]
      show (s.link k).elim [] _ = _
      rw [hlink]
      rfl
    have hafter : mail name i k { s with toHub := Function.update s.toHub c rest } A
        (R ++ broadcasts (name i) [message]) =
          { mail name i k s A R with
            inbox := broadcasts (name i) rest, taken := R ++ broadcasts (name i) [message] } := by
      refine congrArg (fun inbox => Delivery.mk A _ inbox _) ?_
      show (s.link k).elim [] (fun d => broadcasts (name i) (Function.update s.toHub c rest d)) = _
      rw [hlink, Option.elim_some, Function.update_self]
    rw [htakes, hafter]
    rcases broadcasts_one (name i) message with hnone | ⟨m, _, hone⟩
    · rw [hnone, List.nil_append] at hinbox
      rw [hnone, List.append_nil, ← hinbox]
      exact .refl
    · rw [hone] at hinbox ⊢
      exact .single (.taken hinbox)
  · have htakes : takes j (name i) s (.receive k) = [] := by rw [takes, if_neg hkj]
    have hafter : mail name i j { s with toHub := Function.update s.toHub c rest } A R =
        mail name i j s A R := by
      refine congrArg (fun inbox => Delivery.mk A _ inbox R) ?_
      show (s.link j).elim [] (fun d => broadcasts (name i) (Function.update s.toHub c rest d)) = _
      cases hj : s.link j with
      | none => rfl
      | some d =>
        have hdc : d ≠ c := fun heq => hkj (hb.link_inj hlink (heq ▸ hj))
        rw [Option.elim_some, Option.elim_some, Function.update_of_ne hdc]
    rw [htakes, List.append_nil, hafter]

omit [DecidableEq ι] in
/-- **The gateway takes a message**: a broadcast of hub `i` leaves its queue, and is passed on to
hub `j` or lost. -/
theorem mail_gatewayReceive (hi : Inv name s) {c : TcpClient} {message : BaseMessage} {rest : List BaseMessage}
    (hq : s.toGateway c = message :: rest) (hconn : s.gateway.connected c = true)
    (hloses : ¬ Lossless i j s (.gatewayReceive c) → loses) (A R : List BroadcastMessage) :
    Delivery.Steps via loses (mail name i j s A R)
      (mail name i j (State.setGateway server { s with toGateway := Function.update s.toGateway c rest }
        (Gateway.step fmt s.gateway (.tcp c (.ok (some message))))) A R) := by
  have hc : c < s.opened.length := by
    by_contra hnot
    rw [hi.unopened c (Nat.le_of_not_lt hnot)] at hq
    cases hq
  rcases broadcasts_one (name i) message with hnone | ⟨m, rfl, hone⟩
  · have hspoken := says_step fmt (.tcp c (.ok (some message))) s.gateway
    have hsame : mail name i j
        (State.setGateway server { s with toGateway := Function.update s.toGateway c rest }
        (Gateway.step fmt s.gateway (.tcp c (.ok (some message))))) A R = mail name i j s A R := by
      refine mail_congr (by rfl) (by rfl) (fun d => ?_) (fun d => ?_) A R
      · show broadcasts (name i) (Function.update s.toGateway c rest d) = _
        by_cases hd : d = c
        · rw [hd, Function.update_self, hq, broadcasts_cons, hnone, List.nil_append]
        · rw [Function.update_of_ne hd]
      · refine broadcasts_setGateway (s := { s with toGateway := Function.update s.toGateway c rest }) hspoken
          (fun b hb => ?_) d
        rw [← Option.some.inj hb]
        exact hnone
    rw [hsame]
  · obtain ⟨new, hnew, hrelayed, _, hreached⟩ := relays_step fmt hi.tidy hconn m (name i)
    rw [hone] at hrelayed hreached
    have hhead : (mail name i j s A R).queues[c]? = some (m :: broadcasts (name i) rest) := by
      have hget := getElem?_map_range (fun c => broadcasts (name i) (s.toGateway c)) hc
      rw [hq, broadcasts_cons, hone] at hget
      exact hget
    have hqueues : ((List.range s.opened.length).map fun d =>
        broadcasts (name i) (Function.update s.toGateway c rest d)) =
          (mail name i j s A R).queues.set c (broadcasts (name i) rest) :=
      map_range_update (broadcasts (name i)) ..
    have hafter : ∀ inbox, ((s.link j).elim [] fun d => broadcasts (name i)
        (s.toHub d ++ sentTo ((Gateway.step fmt s.gateway (.tcp c (.ok (some (.broadcast m))))).sent.drop
          s.gateway.sent.length) d)) = inbox →
        mail name i j (State.setGateway server { s with toGateway := Function.update s.toGateway c rest }
          (Gateway.step fmt s.gateway (.tcp c (.ok (some (.broadcast m)))))) A R =
            { mail name i j s A R with
              queues := (mail name i j s A R).queues.set c (broadcasts (name i) rest), inbox := inbox } :=
      fun inbox hinbox => congrArg₂ (fun queues inbox => Delivery.mk A queues inbox R) hqueues hinbox
    rw [hnew, List.drop_left] at hafter
    cases hlink : s.link j with
    | none =>
      have hinbox : (mail name i j s A R).inbox = [] := by
        show (s.link j).elim [] _ = _
        rw [hlink]
        rfl
      rw [hafter _ rfl, hlink, Option.elim_none, ← hinbox]
      refine .single (.dropped hhead (hloses ?_))
      rintro ⟨d, hd, _⟩
      rw [hlink] at hd
      cases hd
    | some d =>
      have hinbox : (mail name i j s A R).inbox = broadcasts (name i) (s.toHub d) := by
        show (s.link j).elim [] _ = _
        rw [hlink]
        rfl
      rw [hafter _ rfl, hlink, Option.elim_some, broadcasts_append, ← hinbox]
      rcases hrelayed d with h | h
      · rw [h, List.append_nil]
        refine .single (.dropped hhead (hloses ?_))
        rintro ⟨e, he, hin⟩
        obtain rfl : d = e := Option.some.inj (hlink.symm.trans he)
        rw [hreached d hin] at h
        cases h
      · rw [h]
        exact .single (.passed hhead)

/-- **Every step is some of the delivery's**, whoever else does what. -/
theorem mail_steps (hinj : Function.Injective name) (hi : Inv name s) {l : Label ι} (hl : Honest s l)
    (hs : step fmt address server s l = some s') (hvia : ∀ c, s.link i = some c → via c)
    (hloses : ¬ Lossless i j s l → loses) (A R : List BroadcastMessage) :
    Delivery.Steps via loses (mail name i j s A R)
      (mail name i j s' (A ++ asked i [l]) (R ++ takes j (name i) s l)) := by
  have hsame : ∀ {s'}, mail name i j s' A R = mail name i j s A R →
      Delivery.Steps via loses (mail name i j s A R) (mail name i j s' (A ++ []) (R ++ [])) := by
    intro s' heq
    rw [List.append_nil, List.append_nil, heq]
  have hsilent : ∀ {message : Option BaseMessage} {g : GatewayManager} (s₁ : State ι),
      (∀ b, message ≠ some (.broadcast b)) → Says (Said message) s₁.gateway g →
      mail name i j (s₁.setGateway server g) A R = mail name i j s₁ A R := by
    intro message g s₁ hno hspoken
    exact mail_congr (by rfl) (by rfl) (fun _ => by rfl)
      (broadcasts_setGateway hspoken fun b hb => absurd hb (hno b)) A R
  cases stepped hs with
  | connect k localEndPoint =>
    show Delivery.Steps via loses _ (mail name i j _ (A ++ []) (R ++ []))
    rw [List.append_nil, List.append_nil]
    exact mail_connect hi k localEndPoint (fun hk => hloses fun h => h hk) A R
  | act k hown => exact hsame (mail_setHub address s (writes_own hown (s.hub k)) broadcasts_requestOrInfo A R)
  | @send k message hinfo =>
    have hsend := writes_sendMessageTCP (P := fun m => m = message) rfl (s.hub k)
    by_cases hm : ∃ m, message = .broadcast m
    · obtain ⟨m, rfl⟩ := hm
      have hfrom : m.from = name k := (WebSocketHub.Asked.from_eq hl).trans (hi.id k)
      by_cases hmine : k = i ∧ m.to = some "HUB"
      · obtain ⟨rfl, hto⟩ := hmine
        have hone : broadcasts (name k) [.broadcast m] = [m] := by
          rw [broadcasts_singleton, if_pos ⟨hfrom, hto⟩]
        rw [asked_send, if_pos ⟨rfl, hto⟩]
        show Delivery.Steps via loses _ (mail name k j _ _ (R ++ []))
        rw [List.append_nil]
        exact mail_send hi hvia hone (fun h => hloses fun hk => h (hk rfl)) A R
      · have hnone : ∀ m', m' = BaseMessage.broadcast m → broadcasts (name i) [m'] = [] := by
          rintro _ rfl
          rw [broadcasts_singleton, if_neg]
          rintro ⟨heq, hto⟩
          exact hmine ⟨hinj (hfrom.symm.trans heq), hto⟩
        rw [asked_send, if_neg hmine]
        exact hsame (mail_setHub address s hsend hnone A R)
    · have hasked : asked i [.send k message] = [] := by
        cases message with
        | broadcast m => exact absurd ⟨m, rfl⟩ hm
        | _ => rfl
      have hnone : ∀ m', m' = message → broadcasts (name i) [m'] = [] := by
        rintro _ rfl
        refine broadcasts_eq_nil fun b hb => hm ⟨b, ?_⟩
        exact (List.mem_singleton.mp hb).symm
      rw [hasked]
      exact hsame (mail_setHub address s hsend hnone A R)
  | @receive k c message rest hlink hq hlistening =>
    show Delivery.Steps via loses _ (mail name i j _ (A ++ []) _)
    have hlisten := writes_listen fmt message .Tcp none (s.hub k)
    rw [List.append_nil, mail_setHub address { s with toHub := Function.update s.toHub c rest } hlisten
      broadcasts_requestOrInfo]
    exact mail_receive hi.toBase hlink hq A R
  | @datagram k n d hd htarget hlistening =>
    have hlisten := writes_listen fmt d.message .Udp (some d.source) (s.hub k)
    exact hsame (mail_setHub address { s with datagrams := s.datagrams.eraseIdx n } hlisten
      broadcasts_requestOrInfo A R)
  | lose k => exact hsame rfl
  | network lost writeFails => exact hsame rfl
  | @gatewayDatagram k d hd =>
    exact hsame (hsilent { s with datagrams := s.datagrams.eraseIdx k, taken := some d.message }
      (fun b hb => by cases hb) (says_step fmt (.receive d.source) s.gateway))
  | @gatewayHandle message htaken =>
    refine hsame (hsilent { s with taken := none } (fun b hb => ?_)
      (says_step fmt (.udp (.ok (some message))) s.gateway))
    obtain rfl : message = .broadcast b := Option.some.inj hb
    exact hi.toWire.taken _ htaken
  | @gatewayReceive c message rest hq hconn =>
    show Delivery.Steps via loses _ (mail name i j _ (A ++ []) (R ++ []))
    rw [List.append_nil, List.append_nil]
    exact mail_gatewayReceive hi hq hconn hloses A R
  | gatewayEnd c e =>
    exact hsame (hsilent s (fun b hb => by cases hb) (says_step fmt (.tcp c (.error e)) s.gateway))

/-! ### Runs -/

omit [DecidableEq ι] in
theorem opened_step [DecidableEq ι] {l : Label ι} (hs : step fmt address server s l = some s') :
    s.opened <+: s'.opened := by
  cases stepped hs with
  | connect k localEndPoint => exact List.prefix_append ..
  | _ => exact List.prefix_rfl

/-- **A run is a run of the delivery's**, over the clients that hub `i` opened. -/
theorem mail_run {s₀ : State ι} (hf : Fresh s₀)
    (hinj : Function.Injective fun i => (s₀.hub i).localHubInfo.id) {ls : List (Label ι)}
    (hrun : Reaches (step fmt address server) Honest s₀ ls s) (i j : ι) :
    Delivery.Steps (fun c => s.opened[c]? = some i) True .empty
      (mail (fun i => (s₀.hub i).localHubInfo.id) i j s (asked i ls)
        (received fmt address server j (s₀.hub i).localHubInfo.id s₀ ls)) := by
  refine (hrun.inv (P := fun ls s => (Inv (fun i => (s₀.hub i).localHubInfo.id) s ∧
    Run (step fmt address server) s₀ ls s) ∧
      Delivery.Steps (fun c => s.opened[c]? = some i) True .empty
        (mail (fun i => (s₀.hub i).localHubInfo.id) i j s (asked i ls)
          (received fmt address server j (s₀.hub i).localHubInfo.id s₀ ls)))
    ⟨⟨inv_fresh hf, .start⟩, ?_⟩ ?_).2
  · have hempty : mail (fun i => (s₀.hub i).localHubInfo.id) i j s₀ [] [] = Delivery.empty := by
      rw [mail, hf.opened, hf.link]
      rfl
    show Delivery.Steps _ _ _ (mail _ i j s₀ [] [])
    rw [hempty]
  · rintro ls s l s' ⟨⟨hi, hrun⟩, hmail⟩ hl hs
    refine ⟨⟨hi.step hs, .step hrun trivial hs⟩, ?_⟩
    have hopened : ∀ c : TcpClient, s.opened[c]? = some i → s'.opened[c]? = some i := by
      intro c hc
      obtain ⟨more, hmore⟩ := opened_step hs
      rw [← hmore, List.getElem?_append_left (List.getElem?_eq_some_iff.mp hc).1]
      exact hc
    have hreceived := trace_concat (takes j (s₀.hub i).localHubInfo.id) hrun hs
    have hasked : asked i (ls ++ [l]) = asked i ls ++ asked i [l] := List.filterMap_append
    rw [hasked, received, hreceived]
    refine (Delivery.Steps.mono hopened hmail).trans ?_
    exact mail_steps hinj hi hl hs (fun c hc => hopened c (hi.link i c hc)) (fun _ => trivial) _ _

/-- **Broadcasts are neither made up nor doubled**: those a hub has taken that name another
as their source are among those the other's users asked for, each as often at most. -/
theorem broadcasts_kept (fmt : TextFormat) (address : ι → IPEndPoint) (server : IPEndPoint) {s₀ : State ι}
    (hf : Fresh s₀) (hinj : Function.Injective fun i => (s₀.hub i).localHubInfo.id) {ls : List (Label ι)}
    (hrun : Reaches (step fmt address server) Honest s₀ ls s) (i j : ι) :
    (received fmt address server j (s₀.hub i).localHubInfo.id s₀ ls).Subperm (asked i ls) :=
  (Delivery.kept_empty.steps (mail_run hf hinj hrun i j)).taken

/-- **Broadcasts stay in order** if the hub they are from opened no more than one client. -/
theorem broadcasts_inOrder (fmt : TextFormat) (address : ι → IPEndPoint) (server : IPEndPoint) {s₀ : State ι}
    (hf : Fresh s₀) (hinj : Function.Injective fun i => (s₀.hub i).localHubInfo.id) {ls : List (Label ι)}
    (hrun : Reaches (step fmt address server) Honest s₀ ls s) {i : ι} (honce : s.opened.count i ≤ 1) (j : ι) :
    (received fmt address server j (s₀.hub i).localHubInfo.id s₀ ls).Sublist (asked i ls) := by
  have hone : ∀ c d : TcpClient, s.opened[c]? = some i → s.opened[d]? = some i → c = d := by
    intro c d hc hd
    obtain ⟨hc, hci⟩ := List.getElem?_eq_some_iff.mp hc
    obtain ⟨hd, hdi⟩ := List.getElem?_eq_some_iff.mp hd
    by_contra hne
    have htwice : ∀ a b : TcpClient, a < b → (ha : a < s.opened.length) → (hb : b < s.opened.length) →
        s.opened[a] = i → s.opened[b] = i → False := by
      intro a b hab ha hb hai hbi
      have hdup : List.Duplicate i s.opened :=
        List.duplicate_iff_exists_distinct_get.mpr ⟨⟨a, ha⟩, ⟨b, hb⟩, hab, hai.symm, hbi.symm⟩
      exact absurd (List.duplicate_iff_two_le_count.mp hdup) (by omega)
    rcases Nat.lt_or_gt_of_ne hne with h | h
    · exact htwice c d h hc hd hci hdi
    · exact htwice d c h hd hc hdi hci
  exact (Delivery.inOrder_empty.steps hone (mail_run hf hinj hrun i j)).taken

end

/-! ### Two broadcasts -/

/-- What `b` broadcasts. -/
def shout (content : String) : BroadcastMessage :=
  { id := some "b", «from» := some "b", «to» := some "HUB", content := some content }

/-- `b` and `a` come, `b` broadcasts twice, and `a` takes all there is. -/
def talk : List (Label Bool) :=
  [.connect false (homes false), .act false .connectedGateway, .gatewayReceive 0,
    .connect true (homes true), .act true .connectedGateway, .gatewayReceive 1,
    .send false (.broadcast (shout "one")), .send false (.broadcast (shout "two")),
    .gatewayReceive 0, .gatewayReceive 0, .receive true, .receive true, .receive true, .receive true]

def honest (s : State Bool) : Label Bool → Bool
  | .send i (.broadcast m) => m.id == (s.hub i).localHubInfo.id && m.from == (s.hub i).localHubInfo.id &&
    m.to == some "HUB"
  | _ => true

theorem honest_of_eq_true (s : State Bool) (l : Label Bool) (h : honest s l = true) : Honest s l := by
  cases l with
  | send i message =>
    cases message with
    | broadcast m =>
      rw [honest, Bool.and_eq_true, Bool.and_eq_true, beq_iff_eq, beq_iff_eq, beq_iff_eq] at h
      obtain ⟨⟨hid, hfrom⟩, hto⟩ := h
      refine ⟨⟨none, m.content⟩, Or.inl ?_⟩
      obtain ⟨id, «from», «to», content⟩ := m
      subst hid hfrom hto
      rfl
    | _ => trivial
  | _ => trivial

theorem talk_reaches : ∃ s, Reaches (step dottedText homes anyEndPoint) Honest apart talk s ∧
    s.opened.count false ≤ 1 := by
  have hexec : (exec (fun s l => if honest s l = true then step dottedText homes anyEndPoint s l else none)
      apart talk).any (fun s => decide (s.opened.count false ≤ 1)) = true := by
    decide +kernel
  obtain ⟨s, hs, honce⟩ := (Option.any_eq_true _ _).mp hexec
  exact ⟨s, (reaches_of_exec hs).mono honest_of_eq_true, of_decide_eq_true honce⟩

theorem received_talk : received dottedText homes anyEndPoint true (some "b") apart talk =
    [shout "one", shout "two"] := by
  decide +kernel

theorem broadcasts_kept_talk : [shout "one", shout "two"].Subperm (asked false talk) := by
  obtain ⟨s, hrun, _⟩ := talk_reaches
  rw [← received_talk]
  exact broadcasts_kept dottedText homes anyEndPoint fresh_apart injective_apart hrun false true

theorem broadcasts_inOrder_talk : [shout "one", shout "two"].Sublist (asked false talk) := by
  obtain ⟨s, hrun, honce⟩ := talk_reaches
  rw [← received_talk]
  exact broadcasts_inOrder dottedText homes anyEndPoint fresh_apart injective_apart hrun honce true

end Blockcore.Network.Links.Broadcasts
