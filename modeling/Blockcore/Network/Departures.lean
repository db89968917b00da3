import Blockcore.Network.Holdings

/-!
# Hubs that have left

The gateway tells a hub of others over its TCP connection, where the news that one has
left comes after the news that it was there, and in datagrams, which come when they come
and to whoever sent the gateway the last one.  So a hub may be told of one that has left.

`none_departed` is about the runs in which that does no harm (`Meets`).  The invariant is
`Inv.held`: a hub that is registered holds nothing but what is registered, once it has
taken what is under way to it.
-/

namespace Blockcore.Network.Links

open Lib Networking Gateway Hub

/-! ### The invariant -/

section

variable {ι : Type}

/-- What hub `i` holds once it has taken what is under way on client `c`. -/
def Holds (s : State ι) (i : ι) (c : TcpClient) (x : Option String) : Prop :=
  holds x (decide (x ∈ (s.hub i).connections.ids)) (s.toHub c) = true

/-- The hubs are who they were; the clients are theirs, and what comes over one is of the
hub that opened it. -/
structure Base (name : ι → Option String) (s : State ι) : Prop where
  id : ∀ i, (s.hub i).localHubInfo.id = name i
  sound : ∀ i, Sound (s.hub i)
  link : ∀ i c, s.link i = some c → s.opened[c]? = some i
  infos : ∀ c m, .info m ∈ s.toGateway c → Owns name s.opened c m.id
  tidy : Tidy name s.opened s.gateway

structure Inv (name : ι → Option String) (s : State ι) : Prop extends Base name s where
  held : ∀ i c, s.link i = some c → Registered s.gateway c → ∀ x, Holds s i c x → x ∈ registered s

variable {name : ι → Option String} {fmt : TextFormat} {address : ι → IPEndPoint} {server : IPEndPoint}
  {s s' : State ι}

theorem Base.link_inj (hb : Base name s) {i j : ι} {c : TcpClient} (hi : s.link i = some c)
    (hj : s.link j = some c) : i = j :=
  Option.some.inj ((hb.link i c hi).symm.trans (hb.link j c hj))

theorem inv_fresh (hf : Fresh s) : Inv (fun i => (s.hub i).localHubInfo.id) s := by
  have hnone : ∀ c, ¬ Registered s.gateway c := by
    rintro c ⟨x, hx, _⟩
    rw [hf.connections] at hx
    cases hx
  refine ⟨⟨fun i => rfl, fun i => ?_, fun i c hc => ?_, fun c m hm => ?_, ?_, fun x hx => ?_,
    fun c hc => absurd hc (hnone c)⟩, fun i c _ hreg => absurd hreg (hnone c)⟩
  · rw [Sound, hf.empty]
    exact ⟨ConnectionManager.made_empty, List.nodup_nil⟩
  · rw [hf.link] at hc
    cases hc
  · rw [hf.toGateway] at hm
    cases hm
  · rw [ids, hf.connections]
    exact List.nodup_nil
  · rw [hf.connections] at hx
    cases hx

/-- The hub behind the client holds the other, once it has taken what is under way. -/
def Knows (s : State ι) (c : TcpClient) (x : Option String) : Prop := ∃ i, s.link i = some c ∧ Holds s i c x

theorem Inv.setGateway (hi : Inv name s) {g : GatewayManager} (htidy : Tidy name s.opened g)
    (hstep : InStep (Knows s) s.gateway g)
    (hnew : ∀ i c, s.link i = some c → Registered g c → ¬ Registered s.gateway c → ∀ x,
      Holds s i c x → x ∈ registered s ∨ x ∈ ids g) : Inv name (s.setGateway server g) := by
  refine ⟨⟨hi.id, hi.sound, hi.link, hi.infos, htidy⟩, fun i c hc hreg x hx => ?_⟩
  rw [Holds] at hx
  change holds x (decide (x ∈ (s.hub i).connections.ids))
    (s.toHub c ++ sentTo (g.sent.drop s.gateway.sent.length) c) = true at hx
  show x ∈ ids g
  by_contra hnot
  rw [holds_append] at hx
  obtain ⟨hold, hx'⟩ := hstep.told c x _ (fun hold => ⟨i, hc, hold⟩) hreg hnot hx
  by_cases hreg' : Registered s.gateway c
  · exact hx' (hi.held i c hc hreg' x hold)
  · rcases hnew i c hc hreg hreg' x hold with h | h
    · exact hx' h
    · exact hnot h

variable [DecidableEq ι]

theorem Base.setHub (hb : Base name s) {i : ι} {h : HubManager} (hg : Goes (s.hub i) h) :
    Base name (s.setHub address i h) where
  id j := by
    show (Function.update s.hub i h j).localHubInfo.id = name j
    by_cases hj : j = i
    · subst hj
      rw [Function.update_self, hg.id, hb.id]
    · rw [Function.update_of_ne hj, hb.id]
  sound j := by
    show Sound (Function.update s.hub i h j)
    by_cases hj : j = i
    · subst hj
      rw [Function.update_self]
      exact hg.sound (hb.sound j)
    · rw [Function.update_of_ne hj]
      exact hb.sound j
  link := hb.link
  infos c m hm := by
    change BaseMessage.info m ∈
      (if s.link i = some c then s.toGateway c ++ sentTCP (reaction (s.hub i) h) else s.toGateway c) at hm
    split at hm
    · next hc =>
      rcases List.mem_append.mp hm with hm | hm
      · exact hb.infos c m hm
      · obtain ⟨new, hnew, hown⟩ := hg.acts
        rw [reaction_eq hnew, mem_sentTCP] at hm
        exact ⟨i, hb.link i c hc, (hown m hm).trans (hb.id i)⟩
    · exact hb.infos c m hm
  tidy := hb.tidy

theorem Inv.setHub (hi : Inv name s) {i : ι} {h : HubManager} (hg : Goes (s.hub i) h)
    (hheld : ∀ c, s.link i = some c → Registered s.gateway c → ∀ x,
      holds x (decide (x ∈ h.connections.ids)) (s.toHub c) = true → x ∈ registered s) :
    Inv name (s.setHub address i h) := by
  refine ⟨hi.toBase.setHub hg, fun j c hj hreg x hx => ?_⟩
  rw [Holds] at hx
  change holds x (decide (x ∈ (Function.update s.hub i h j).connections.ids)) (s.toHub c) = true at hx
  by_cases hji : j = i
  · subst hji
    rw [Function.update_self] at hx
    exact hheld c hj hreg x hx
  · rw [Function.update_of_ne hji] at hx
    exact hi.held j c hj hreg x hx

/-! ### Steps -/

/-- Every other registered hub that holds this one is told when it leaves. -/
def Tells (s : State ι) (c : TcpClient) (x : Option String) : Prop :=
  ∀ d, d ≠ c → Registered s.gateway d → Knows s d x → d ∈ notified s.gateway x

/-- A registered hub takes a datagram about a hub only if that is registered, or the news that
it left is under way to it; a client is registered only if its hub will hold nothing
but what is registered; and where the thread of a client ends, the others that hold its hub are
told. -/
def Meets (fmt : TextFormat) (s : State ι) : Label ι → Prop
  | .datagram i k =>
    ∀ c d m, s.link i = some c → Registered s.gateway c → s.datagrams[k]? = some d → d.message = .info m →
      m.id ∈ registered s ∨ m.id.isSome = true ∧ left m.id ∈ s.toHub c
  | .gatewayReceive c =>
    ∀ message rest, s.toGateway c = message :: rest →
      (Fatal fmt s.gateway c message →
        ∀ x, (Under s.gateway c x ∨ ∃ m, message = .info m ∧ m.id = x) → Tells s c x) ∧
      ∀ i m, message = .info m → s.link i = some c → ¬ Registered s.gateway c → ∀ x,
        Holds s i c x → x ∈ registered s ∨ x = m.id
  | .gatewayEnd c _ => ∀ x, Under s.gateway c x → Tells s c x
  | _ => True

theorem Inv.accept (hi : Inv name s) (i : ι) : Inv name (s.accept i) := by
  have howns : ∀ c x, Owns name s.opened c x → Owns name (s.opened ++ [i]) c x := by
    rintro c x ⟨j, hj, hx⟩
    exact ⟨j, by rw [List.getElem?_append_left (List.getElem?_eq_some_iff.mp hj).1]; exact hj, hx⟩
  have hnew : ¬ Registered s.gateway s.opened.length := by
    rintro ⟨x, hx, hc⟩
    obtain ⟨j, hj, _⟩ := hi.tidy.owned x hx _ hc
    simp at hj
  have hlink : ∀ j c, (s.accept i).link j = some c → j = i ∧ c = s.opened.length ∨ s.link j = some c := by
    intro j c hj
    change Function.update s.link i (some s.opened.length) j = some c at hj
    by_cases hji : j = i
    · subst hji
      rw [Function.update_self] at hj
      exact Or.inl ⟨rfl, (Option.some.inj hj).symm⟩
    · rw [Function.update_of_ne hji] at hj
      exact Or.inr hj
  refine ⟨⟨hi.id, hi.sound, fun j c hj => ?_, fun c m hm => howns c _ (hi.infos c m hm),
    ⟨hi.tidy.nodup, fun x hx c hc => howns c _ (hi.tidy.owned x hx c hc), fun c hc => ?_⟩⟩,
    fun j c hj hreg x hx => ?_⟩
  · rcases hlink j c hj with ⟨rfl, rfl⟩ | hj
    · show (s.opened ++ [j])[s.opened.length]? = some j
      simp
    · have hold := hi.link j c hj
      show (s.opened ++ [i])[c]? = some j
      rw [List.getElem?_append_left (List.getElem?_eq_some_iff.mp hold).1]
      exact hold
  · show Function.update s.gateway.socket s.opened.length .connected c ≠ .closed
    have hne : c ≠ s.opened.length := fun heq => hnew (heq ▸ hc)
    rw [Function.update_of_ne hne]
    exact hi.tidy.alive c hc
  · rcases hlink j c hj with ⟨rfl, rfl⟩ | hj
    · exact absurd hreg hnew
    · exact hi.held j c hj hreg x hx

omit [DecidableEq ι] in
theorem Inv.datagrams (hi : Inv name s) (datagrams : List Datagram) (taken : Option BaseMessage) :
    Inv name { s with datagrams := datagrams, taken := taken } :=
  ⟨⟨hi.id, hi.sound, hi.link, hi.infos, hi.tidy⟩, hi.held⟩

/-- **A hub takes a message off its client**: it is no longer under way, but has been heard. -/
theorem Inv.receive (hi : Inv name s) {i : ι} {c : TcpClient} (hc : s.link i = some c)
    {message : BaseMessage} {rest : List BaseMessage} (hq : s.toHub c = message :: rest) {h : HubManager}
    (htook : Took message (s.hub i) h) :
    Inv name (State.setHub address { s with toHub := Function.update s.toHub c rest } i h) := by
  have hbase : Base name { s with toHub := Function.update s.toHub c rest } :=
    ⟨hi.id, hi.sound, hi.link, hi.infos, hi.tidy⟩
  refine ⟨hbase.setHub htook.toGoes, fun j d hj hreg x hx => ?_⟩
  rw [Holds] at hx
  change holds x (decide (x ∈ (Function.update s.hub i h j).connections.ids))
    (Function.update s.toHub c rest d) = true at hx
  by_cases hji : j = i
  · subst hji
    obtain rfl : d = c := Option.some.inj (hj.symm.trans hc)
    rw [Function.update_self, Function.update_self] at hx
    refine hi.held j d hj hreg x ?_
    rw [Holds, hq]
    show holds x (heard x _ message) rest = true
    refine holds_mono (fun h => ?_) hx
    rw [decide_eq_true_eq] at h
    exact htook.ids (hi.sound j) x h
  · have hdc : d ≠ c := fun heq => hji (hi.link_inj hj (heq ▸ hc))
    rw [Function.update_of_ne hji, Function.update_of_ne hdc] at hx
    exact hi.held j d hj hreg x hx

/-- **A hub takes a datagram**: the hub it is about is registered, or will be known to have left. -/
theorem Inv.datagram (hi : Inv name s) {i : ι} {message : BaseMessage} {h : HubManager}
    (htook : Took message (s.hub i) h)
    (hm : ∀ c m, s.link i = some c → Registered s.gateway c → message = .info m →
      m.id ∈ registered s ∨ m.id.isSome = true ∧ left m.id ∈ s.toHub c) :
    Inv name (s.setHub address i h) := by
  refine hi.setHub htook.toGoes fun c hc hreg x hx => ?_
  by_cases hinfo : ∃ m, message = .info m ∧ m.id = x
  · obtain ⟨m, hmessage, rfl⟩ := hinfo
    rcases hm c m hc hreg hmessage with h | ⟨hsome, hleft⟩
    · exact h
    · refine hi.held i c hc hreg m.id ?_
      rw [Holds]
      exact (holds_of_left hsome hleft).trans hx
  · refine hi.held i c hc hreg x (holds_mono (fun h => ?_) hx)
    rw [decide_eq_true_eq] at h
    exact heard_le (fun m hmessage heq => hinfo ⟨m, hmessage, heq⟩) (htook.ids (hi.sound i) x h)

omit [DecidableEq ι] in
theorem Inv.gatewayHandle (hi : Inv name s) (message : BaseMessage) :
    Inv name (s.setGateway server (Gateway.step fmt s.gateway (.udp (.ok (some message))))) := by
  have hnone : ∀ c ∈ (none : Option TcpClient), s.gateway.socket c ≠ .closed := fun c hc => by cases hc
  have he : Entered (.ok (some message)) none s.gateway
      (attempt fmt (.ok (some message)) .Udp (some s.gateway.udpEndpoint) none s.gateway).state :=
    entered_attempt .Udp _ hnone
  rw [step_udp]
  refine hi.setGateway (hi.tidy.entered he hnone fun c m hc => by cases hc) he.inStep
    fun i c hc hreg hnot => ?_
  rcases he.registered hreg with h | ⟨h, _⟩
  · exact absurd h hnot
  · cases h

omit [DecidableEq ι] in
/-- **The gateway takes a message off a client**, which gets registered if it is its hub's. -/
theorem Inv.gatewayReceive (hname : ∀ i, (name i).isSome = true) (hi : Inv name s) {c : TcpClient}
    {message : BaseMessage} {rest : List BaseMessage} (hq : s.toGateway c = message :: rest)
    (hconn : s.gateway.connected c = true) (hm : Meets fmt s (.gatewayReceive c)) :
    Inv name (State.setGateway server { s with toGateway := Function.update s.toGateway c rest }
      (Gateway.step fmt s.gateway (.tcp c (.ok (some message))))) := by
  obtain ⟨hends, hregisters⟩ := hm message rest hq
  have howns : ∀ m, message = .info m → Owns name s.opened c m.id := by
    intro m hmessage
    refine hi.infos c m ?_
    rw [hq, hmessage]
    exact List.mem_cons_self ..
  have hinv : Inv name { s with toGateway := Function.update s.toGateway c rest } := by
    refine ⟨⟨hi.id, hi.sound, hi.link, fun d m hmem => ?_, hi.tidy⟩, hi.held⟩
    refine hi.infos d m ?_
    change BaseMessage.info m ∈ Function.update s.toGateway c rest d at hmem
    by_cases hd : d = c
    · subst hd
      rw [Function.update_self] at hmem
      rw [hq]
      exact List.mem_cons_of_mem _ hmem
    · rwa [Function.update_of_ne hd] at hmem
  obtain ⟨htidy, hstep, hback⟩ : _ ∧ InStep (Knows s) _ _ ∧ _ :=
    tcp_inStep fmt (.ok (some message)) hname hi.tidy hconn
      (fun m hmessage => howns m (by cases hmessage; rfl)) fun hthrew x hor => by
        refine hends (fatal_of_threw hconn hthrew) x (hor.imp_right ?_)
        rintro ⟨m, hmessage, hid⟩
        exact ⟨m, by cases hmessage; rfl, hid⟩
  refine hinv.setGateway htidy hstep fun i d hd hreg hnot x hx => ?_
  rcases hback d hreg with h | ⟨hcd, m, hmessage⟩
  · exact absurd h hnot
  · obtain rfl := Option.some.inj hcd
    obtain rfl : message = .info m := by
      cases hmessage
      rfl
    rcases hregisters i m rfl hd hnot x hx with h | rfl
    · exact Or.inl h
    · -- what is under the client now is the hub that sent the message
      obtain ⟨y, hy, hyc⟩ := hreg
      rw [(howns m rfl).unique (htidy.owned y hy c hyc)]
      exact Or.inr (List.mem_map_of_mem hy)

theorem Inv.step (hname : ∀ i, (name i).isSome = true) (hi : Inv name s) {l : Label ι}
    (hm : Meets fmt s l) (hs : step fmt address server s l = some s') : Inv name s' := by
  cases l with
  | connect i localEndPoint =>
    cases hs
    have hplain := plain_connectGateway fmt server localEndPoint (s.hub i)
    refine (hi.accept i).setHub hplain.toGoes fun c hc hreg x hx => ?_
    rw [hplain.ids] at hx
    exact (hi.accept i).held i c hc hreg x hx
  | act i a =>
    rw [Links.step] at hs
    split at hs
    · next ha =>
      cases hs
      obtain ⟨hgoes, hids⟩ := goes_step fmt ha (s.hub i)
      refine hi.setHub hgoes fun c hc hreg x hx => hi.held i c hc hreg x (holds_mono (fun h => ?_) hx)
      rw [decide_eq_true_eq] at h ⊢
      exact hids h
    · cases hs
  | send i message =>
    rw [Links.step] at hs
    split at hs
    · cases hs
    · next hinfo =>
      cases hs
      have hplain : Plain (s.hub i) ((s.hub i).sendMessageTCP message) := by
        refine plain_sendMessageTCP fun m hm => absurd ?_ hinfo
        rw [hm]
        rfl
      refine hi.setHub hplain.toGoes fun c hc hreg x hx => ?_
      rw [hplain.ids] at hx
      exact hi.held i c hc hreg x hx
  | receive i =>
    rw [Links.step] at hs
    split at hs
    · cases hs
    · next c hc =>
      split at hs
      · cases hs
      · next message rest hq =>
        split at hs
        · cases hs
          exact hi.receive hc hq (took_listen fmt message .Tcp none (s.hub i))
        · cases hs
  | datagram i k =>
    rw [Links.step] at hs
    split at hs
    · cases hs
    · next d hd =>
      split at hs
      · cases hs
        refine (hi.datagrams _ _).datagram (took_listen fmt d.message .Udp (some d.source) (s.hub i))
          fun c m hc hreg hmessage => ?_
        exact hm c d m hc hreg hd hmessage
      · cases hs
  | lose k =>
    cases hs
    exact hi.datagrams _ _
  | network lost writeFails =>
    cases hs
    refine ⟨⟨hi.id, hi.sound, hi.link, hi.infos, hi.tidy.nodup, hi.tidy.owned,
      fun c hc hclosed => ?_⟩, hi.held⟩
    simp only at hclosed
    split at hclosed
    · cases hclosed
    · exact hi.tidy.alive c hc hclosed
  | gatewayDatagram k =>
    rw [Links.step] at hs
    split at hs
    · cases hs
    · next d _ =>
      split at hs
      · cases hs
        have hstep : InStep (Knows s) s.gateway s.gateway := InStep.refl s.gateway
        refine (hi.datagrams _ _).setGateway ⟨hi.tidy.nodup, hi.tidy.owned, hi.tidy.alive⟩
          ⟨hstep.sent, hstep.told⟩ fun i c hc hreg hnot => absurd hreg hnot
      · cases hs
  | gatewayHandle =>
    rw [Links.step] at hs
    split at hs
    · cases hs
    · next message _ =>
      cases hs
      exact (hi.datagrams s.datagrams none).gatewayHandle message
  | gatewayReceive c =>
    rw [Links.step] at hs
    split at hs
    · cases hs
    · next message rest hq =>
      split at hs
      · next hconn =>
        cases hs
        exact hi.gatewayReceive hname hq hconn hm
      · cases hs
  | gatewayEnd c e =>
    cases hs
    rw [step_tcp_error]
    obtain ⟨htidy, hstep, hback⟩ : _ ∧ InStep (Knows s) _ _ ∧ _ :=
      disconnect_inStep hname hi.tidy hm
    exact hi.setGateway htidy hstep fun i c hc hreg hnot => absurd (hback c hreg) hnot

/-- **None that has left is held**, in every run whose steps do no harm: a hub that is
registered, and has taken what the gateway sent it over its client, holds nothing but what
is registered. -/
theorem none_departed (fmt : TextFormat) (address : ι → IPEndPoint) (server : IPEndPoint)
    {s₀ : State ι} (hf : Fresh s₀) {ls : List (Label ι)}
    (hrun : Reaches (step fmt address server) (Meets fmt) s₀ ls s) {i : ι} {c : TcpClient}
    (hlink : s.link i = some c) (hreg : Registered s.gateway c) (hquiet : s.toHub c = []) :
    ∀ x ∈ (s.hub i).connections.ids, x ∈ registered s := by
  have hinv := hrun.inv (P := fun _ s => Inv (fun i => (s₀.hub i).localHubInfo.id) s) (inv_fresh hf)
    fun _ s l s' hi hm hs => hi.step hf.named hm hs
  intro x hx
  refine hinv.held i c hlink hreg x ?_
  rw [Holds, hquiet, decide_eq_true hx]
  rfl

end

/-! ### Two hubs -/

def homes (i : Bool) : IPEndPoint := ⟨⟨[10, 0, 1, if i then 2 else 1], Or.inl rfl⟩, 6000⟩

/-- Two hubs, `b` and `a`, that have not connected. -/
def apart : State Bool where
  hub i :=
    { localHubInfo := { id := some (if i then "a" else "b") }
      connections := .empty
      ackResponces := []
      nextAck := 0
      connected := false
      writeFails := false
      tcpListen := false
      udpListen := false
      calls := []
      acts := [] }
  gateway := .start anyEndPoint fun _ => .connected
  opened := []
  link _ := none
  toGateway _ := []
  toHub _ := []
  datagrams := []
  taken := none

theorem fresh_apart : Fresh apart where
  named _ := rfl
  empty _ := rfl
  connections := rfl
  opened := rfl
  link _ := rfl
  toGateway _ := rfl
  toHub _ := rfl
  datagrams := rfl
  taken := rfl

theorem injective_apart : Function.Injective fun i => (apart.hub i).localHubInfo.id := by
  intro i j h
  revert i j
  decide

/-- Every other registered client that a hub has is told when this one leaves. -/
def tells (s : State Bool) (c : TcpClient) (x : Option String) : Bool :=
  decide (∀ i, ∀ d ∈ s.link i, d ≠ c → (∃ h ∈ s.gateway.connections, h.client = some d) →
    d ∈ notified s.gateway x)

theorem tells_of_eq_true {s : State Bool} {c : TcpClient} {x : Option String} (h : tells s c x = true) :
    Tells s c x := by
  intro d hne hreg hknows
  obtain ⟨i, hlink, _⟩ := hknows
  exact of_decide_eq_true h i d hlink hne hreg

/-- Enough for a step to do no harm: no datagram is taken, the gateway tells its other
clients, and a client is registered whose hub holds nothing. -/
def harmless (s : State Bool) : Label Bool → Bool
  | .datagram .. => false
  | .gatewayReceive c =>
    s.gateway.connections.all (fun h => h.client != some c || tells s c h.id) &&
    (s.toGateway c).all (fun message => match message with | .info m => tells s c m.id | _ => true) &&
    (s.gateway.connections.any (fun x => x.client == some c) ||
      decide (∀ i, s.link i = some c → (s.hub i).connections.ids = [] ∧ s.toHub c = []))
  | .gatewayEnd c _ => s.gateway.connections.all fun h => h.client != some c || tells s c h.id
  | _ => true

theorem tells_under {s : State Bool} {c : TcpClient}
    (h : s.gateway.connections.all (fun h => h.client != some c || tells s c h.id) = true)
    {x : Option String} (hx : Under s.gateway c x) : Tells s c x := by
  obtain ⟨y, hy, hclient, rfl⟩ := hx
  have hall := List.all_eq_true.mp h y hy
  rw [hclient, bne_self_eq_false, Bool.false_or] at hall
  exact tells_of_eq_true hall

theorem meets_of_harmless (s : State Bool) (l : Label Bool) (h : harmless s l = true) :
    Meets dottedText s l := by
  cases l with
  | datagram i k => cases h
  | gatewayReceive c =>
    rw [harmless, Bool.and_eq_true, Bool.and_eq_true, Bool.or_eq_true, decide_eq_true_eq] at h
    obtain ⟨⟨hunder, hsent⟩, hregister⟩ := h
    refine fun message rest hq => ⟨fun _ x hx => ?_, fun i m _ hlink hnot x hx => ?_⟩
    · rcases hx with hx | ⟨m, rfl, rfl⟩
      · exact tells_under hunder hx
      · rw [hq] at hsent
        exact tells_of_eq_true (List.all_eq_true.mp hsent _ (List.mem_cons_self ..))
    · rcases hregister with h | h
      · obtain ⟨y, hy, hc⟩ := List.any_eq_true.mp h
        exact absurd ⟨y, hy, by simpa using hc⟩ hnot
      · obtain ⟨hids, hto⟩ := h i hlink
        rw [Holds, hids, hto] at hx
        cases hx
  | gatewayEnd c e => exact fun x hx => tells_under h hx
  | _ => trivial

/-- `b` comes, `a` comes, `a` hears of `b`, `b` goes. -/
def visit : List (Label Bool) :=
  [.connect false (homes false), .act false .connectedGateway, .gatewayReceive 0,
    .connect true (homes true), .act true .connectedGateway, .gatewayReceive 1,
    .act false .connectedGateway, .gatewayReceive 0, .receive true, .receive true, .receive true,
    .act false .disconnectedGateway, .gatewayEnd 0 .endOfStream, .receive true]

theorem none_departed_visit :
    ∃ s, Reaches (step dottedText homes anyEndPoint) (Meets dottedText) apart visit s ∧
      (s.hub true).connections.ids = [some "a"] ∧
      ∀ x ∈ (s.hub true).connections.ids, x ∈ registered s := by
  have hexec : (exec (fun s l => if harmless s l = true then step dottedText homes anyEndPoint s l else none)
      apart visit).any (fun s => s.link true == some 1 &&
        s.gateway.connections.any (fun x => x.client == some 1) && s.toHub 1 == [] &&
        (s.hub true).connections.ids == [some "a"]) = true := by
    decide +kernel
  obtain ⟨s, hs, hcheck⟩ := (Option.any_eq_true _ _).mp hexec
  rw [Bool.and_eq_true, Bool.and_eq_true, Bool.and_eq_true, beq_iff_eq, List.any_eq_true, beq_iff_eq,
    beq_iff_eq] at hcheck
  obtain ⟨⟨⟨hlink, x, hx, hc⟩, hquiet⟩, hids⟩ := hcheck
  have hrun := (reaches_of_exec hs).mono meets_of_harmless
  exact ⟨s, hrun, hids, none_departed dottedText homes anyEndPoint fresh_apart hrun hlink
    ⟨x, hx, by simpa using hc⟩ hquiet⟩

/-- The gateway had an entry of this id, and has none. -/
def Departed {ι : Type} [DecidableEq ι] (fmt : TextFormat) (address : ι → IPEndPoint)
    (server : IPEndPoint) (s₀ : State ι) (ls : List (Label ι)) (s : State ι) (x : Option String) : Prop :=
  (∃ before t, before <+: ls ∧ Run (step fmt address server) s₀ before t ∧ x ∈ registered t) ∧
    x ∉ registered s

/-- `b` is complete after `a` was heard from last, so `a` is sent the list; `b` goes, and only
then is `a`'s client registered. Every message is taken before the next is sent. -/
def strayList : List (Label Bool) :=
  [.connect false (homes false), .gatewayDatagram 0, .gatewayHandle, .datagram false 0,
    .connect true (homes true), .gatewayDatagram 0, .gatewayHandle, .datagram true 0,
    .act false .connectedGateway, .gatewayReceive 0, .receive false, .receive false,
    .datagram true 0, .datagram true 0,
    .act false .disconnectedGateway, .gatewayEnd 0 .endOfStream,
    .act true .connectedGateway, .gatewayReceive 1, .receive true, .receive true, .datagram true 0]

/-- **A hub is told of another that then leaves, and never told that it did.** -/
theorem departed_held :
    ¬ ∀ (ι : Type) [DecidableEq ι] (fmt : TextFormat) (address : ι → IPEndPoint) (server : IPEndPoint)
      (s₀ s : State ι) (ls : List (Label ι)), Fresh s₀ → Run (step fmt address server) s₀ ls s → Quiet s →
        ∀ i c, s.link i = some c → Registered s.gateway c → ∀ x ∈ (s.hub i).connections.ids,
          ¬ Departed fmt address server s₀ ls s x := by
  intro hall
  have hexec : (exec (step dottedText homes anyEndPoint) apart strayList).any (fun s =>
      decide (∀ c < s.opened.length, s.toGateway c = [] ∧ s.toHub c = []) && s.datagrams == [] &&
        s.taken == none && s.link true == some 1 &&
        s.gateway.connections.any (fun x => x.client == some 1) &&
        (s.hub true).connections.ids == [some "b", some "a"] && registered s == [some "a"]) = true := by
    decide +kernel
  have hbefore : (exec (step dottedText homes anyEndPoint) apart (strayList.take 10)).any (fun s =>
      registered s == [some "b", some "a"]) = true := by
    decide +kernel
  obtain ⟨t, ht, hregistered⟩ := (Option.any_eq_true _ _).mp hbefore
  obtain ⟨s, hs, hcheck⟩ := (Option.any_eq_true _ _).mp hexec
  simp only [Bool.and_eq_true, beq_iff_eq, decide_eq_true_eq, List.any_eq_true] at hcheck hregistered
  obtain ⟨⟨⟨⟨⟨⟨hlinks, hdatagrams⟩, htaken⟩, hlink⟩, hreg⟩, hids⟩, hnow⟩ := hcheck
  refine hall Bool dottedText homes anyEndPoint apart s strayList fresh_apart (run_of_exec hs)
    ⟨hlinks, hdatagrams, htaken⟩ true 1 hlink hreg (some "b") ?_
    ⟨⟨_, t, List.take_prefix 10 strayList, run_of_exec ht, ?_⟩, ?_⟩
  · rw [hids]
    simp
  · rw [hregistered]
    simp
  · rw [hnow]
    simp

end Blockcore.Network.Links
