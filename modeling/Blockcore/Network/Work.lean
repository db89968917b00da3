import Blockcore.Lib.Ending
import Blockcore.Network.Traffic

/-!
# What there is to do

A message that is under way makes the one who takes it send others, or begin a call, and a call sends
probes, which make others call.  `Level` orders all this so that what is done at one level makes work at
later ones only.  `todo` is what a hub has to do by itself.

Two things are no messages.  A call goes on for as many steps as `steps` says, if nobody changes its
`HubInfo`; and of an entry a hub can learn from a probe, where that comes from, once (`unlearned`).
-/

namespace Blockcore.Network.Links.Work

open Lib Networking Gateway Hub
open Learning (datagrams)

/-- What there is to do: the gateway has a `HubInfo` to come, or received; an entry it may drop; another
message to come; a hub has a message to come; an entry to learn about; the gateway has a request to
come, a hub one; a hub has a call to go on with; has news of one that left to come; a probe is under
way, or a reply; the gateway has received something else. -/
inductive Level where
  | infoUp
  | infoTaken
  | entry
  | otherUp
  | down
  | unlearned
  | reqUp
  | reqDown
  | call
  | notification
  | probe
  | reply
  | taken

def Level.rank : Level → Fin 13
  | .infoUp => 0
  | .infoTaken => 1
  | .entry => 2
  | .otherUp => 3
  | .down => 4
  | .unlearned => 5
  | .reqUp => 6
  | .reqDown => 7
  | .call => 8
  | .notification => 9
  | .probe => 10
  | .reply => 11
  | .taken => 12

theorem Level.rank_injective : Function.Injective Level.rank := by
  intro a b h
  cases a <;> cases b <;> first | rfl | cases h

instance : LinearOrder Level := LinearOrder.lift' Level.rank Level.rank_injective

instance : Finite Level := Finite.of_injective Level.rank Level.rank_injective

/-! ### A call -/

/-- So many steps a call takes at most, if the hub has so many addresses. -/
def steps (addresses : Nat) : CallPc → Nat
  | .lan ip => 309 + 12 * (addresses - ip)
  | .lanTry ip _ i => 311 + 12 * (addresses - (ip + 1)) + 3 * (4 - i)
  | .lanSleep ip _ i => 312 + 12 * (addresses - (ip + 1)) + 3 * (4 - (i + 1))
  | .lanReceived _ _ => 5
  | .wan => 308
  | .wanTry i => 10 + 3 * (100 - i)
  | .wanSleep i => 11 + 3 * (100 - (i + 1))
  | .wanReceived _ => 5
  | .returned _ => 4
  | .threw _ => 0
  | .ended => 0

def remaining (h : HubManager) (call : Call) : Nat :=
  steps (h.hubInfo call.hubInfo).internalAddresses.length call.pc

section

variable {h h' : HubManager} {t : Nat}

/-- **A call goes on**: it has less left, and the hub does nothing, sends a probe, accepts a response, or
goes on with its caller. -/
theorem advance_steps (hs : h.advance t = some h') : ∃ call pc h₁, h.calls[t]? = some call ∧
    h' = h₁.goto t pc ∧ steps (h.hubInfo call.hubInfo).internalAddresses.length pc < remaining h call ∧
      (h₁ = h ∨ (∃ endpoint, h₁ = h.sendAck endpoint) ∨
        (∃ type response, h₁ = h.accept call.hubInfo type response) ∨
          ∃ endpoint, h₁ = h.resume call endpoint) := by
  cases hcall : h.calls[t]? with
  | none => simp [HubManager.advance, hcall] at hs
  | some call =>
    obtain ⟨caller, r, pc⟩ := call
    -- it goes on by itself
    have hgoto : ∀ {pc'}, some (h.goto t pc') = some h' →
        steps (h.hubInfo r).internalAddresses.length pc' < steps (h.hubInfo r).internalAddresses.length pc →
        ∃ call pc₁ h₁, some (Call.mk caller r pc) = some call ∧ h' = h₁.goto t pc₁ ∧
          steps (h.hubInfo call.hubInfo).internalAddresses.length pc₁ < remaining h call ∧
            (h₁ = h ∨ (∃ endpoint, h₁ = h.sendAck endpoint) ∨
              (∃ type response, h₁ = h.accept call.hubInfo type response) ∨
                ∃ endpoint, h₁ = h.resume call endpoint) :=
      fun heq hlt => ⟨_, _, h, rfl, (Option.some.inj heq).symm, hlt, Or.inl rfl⟩
    cases pc with
    | lan ip =>
      simp only [HubManager.advance, hcall] at hs
      split at hs
      · exact hgoto hs (by simp only [steps]; omega)
      · next IP hip =>
        have hlt : ip < (h.hubInfo r).internalAddresses.length := (List.getElem?_eq_some_iff.mp hip).1
        split at hs
        · split at hs
          · exact hgoto hs (by simp only [steps]; omega)
          · exact hgoto hs (by simp only [steps]; omega)
        · exact hgoto hs (by simp only [steps]; omega)
    | lanTry ip endpoint i =>
      simp only [HubManager.advance, hcall] at hs
      split at hs
      · refine ⟨_, _, _, rfl, (Option.some.inj hs).symm, ?_, Or.inr (Or.inl ⟨endpoint, rfl⟩)⟩
        simp only [remaining, steps]
        omega
      · exact hgoto hs (by simp only [steps]; omega)
    | lanSleep ip endpoint i =>
      simp only [HubManager.advance, hcall] at hs
      split at hs
      · exact hgoto hs (by simp only [steps]; omega)
      · exact hgoto hs (by simp only [steps]; omega)
    | lanReceived endpoint response =>
      simp only [HubManager.advance, hcall] at hs
      refine ⟨_, _, _, rfl, (Option.some.inj hs).symm, ?_, Or.inr (Or.inr (Or.inl ⟨.LAN, response, rfl⟩))⟩
      simp only [remaining, steps]
      omega
    | wan =>
      simp only [HubManager.advance, hcall] at hs
      split at hs
      · exact hgoto hs (by simp only [steps]; omega)
      · exact hgoto hs (by simp only [steps]; omega)
    | wanTry i =>
      simp only [HubManager.advance, hcall] at hs
      split at hs
      · split at hs
        · exact hgoto hs (by simp only [steps]; omega)
        · next endpoint _ =>
          refine ⟨_, _, _, rfl, (Option.some.inj hs).symm, ?_, Or.inr (Or.inl ⟨endpoint, rfl⟩)⟩
          simp only [remaining, steps]
          omega
      · exact hgoto hs (by simp only [steps]; omega)
    | wanSleep i =>
      simp only [HubManager.advance, hcall] at hs
      split at hs
      · exact hgoto hs (by simp only [steps]; omega)
      · exact hgoto hs (by simp only [steps]; omega)
    | wanReceived response =>
      simp only [HubManager.advance, hcall] at hs
      split at hs
      · exact hgoto hs (by simp only [steps]; omega)
      · refine ⟨_, _, _, rfl, (Option.some.inj hs).symm, ?_, Or.inr (Or.inr (Or.inl ⟨.WAN, response, rfl⟩))⟩
        simp only [remaining, steps]
        omega
    | returned endpoint =>
      cases endpoint with
      | none =>
        simp only [HubManager.advance, hcall] at hs
        exact hgoto hs (by simp only [steps]; omega)
      | some endpoint =>
        simp only [HubManager.advance, hcall] at hs
        refine ⟨_, _, _, rfl, (Option.some.inj hs).symm, ?_, Or.inr (Or.inr (Or.inr ⟨endpoint, rfl⟩))⟩
        simp only [remaining, steps]
        omega
    | threw e => simp [HubManager.advance, hcall] at hs
    | ended => simp [HubManager.advance, hcall] at hs

end

/-! ### A hub -/

/-- From a probe that comes from there, the hub learns about the entry. -/
def learnable (fmt : TextFormat) (source : IPEndPoint) (x : HubInfo) : Bool :=
  x.externalEndpoint.any fun known =>
    decide (known.address = source.address ∧ known.port ≠ source.port) ||
      decide (known.address ≠ source.address ∧
        fmt.addressToString source.address ∉ x.internalAddresses.map fmt.addressToString)

structure Rests (h h' : HubManager) : Prop where
  list : h'.connections.connections = h.connections.connections
  objects : ∀ r, (h'.hubInfo r).id = (h.hubInfo r).id ∧
    (h'.hubInfo r).externalEndpoint = (h.hubInfo r).externalEndpoint ∧
      (h'.hubInfo r).internalAddresses = (h.hubInfo r).internalAddresses
  calls : h'.calls = h.calls

abbrev Silent : HubManager → HubManager → Prop := Writes fun _ => False

/-- The calls of the listener's are about the hub itself. -/
def Own (h : HubManager) : Prop := ∀ call ∈ h.calls, ∀ protocol, call.caller = .reqMessageHandler protocol →
  call.hubInfo < h.connections.next ∧ (h.hubInfo call.hubInfo).id = h.localHubInfo.id

section

variable {h h' h'' : HubManager}

theorem Rests.refl (h : HubManager) : Rests h h := ⟨rfl, fun _ => ⟨rfl, rfl, rfl⟩, rfl⟩

theorem Rests.trans (h₁ : Rests h h') (h₂ : Rests h' h'') : Rests h h'' where
  list := h₂.list.trans h₁.list
  objects r := by
    obtain ⟨hid, hext, hint⟩ := h₁.objects r
    obtain ⟨hid', hext', hint'⟩ := h₂.objects r
    exact ⟨hid'.trans hid, hext'.trans hext, hint'.trans hint⟩
  calls := h₂.calls.trans h₁.calls

theorem rests_of_eq (hconn : h'.connections = h.connections) (hcalls : h'.calls = h.calls) : Rests h h' := by
  refine ⟨by rw [hconn], fun r => ?_, hcalls⟩
  rw [HubManager.hubInfo, HubManager.hubInfo, hconn]
  exact ⟨rfl, rfl, rfl⟩

theorem rests_store {r : Ref} {x : HubInfo} (hid : x.id = (h.hubInfo r).id)
    (hext : x.externalEndpoint = (h.hubInfo r).externalEndpoint)
    (hint : x.internalAddresses = (h.hubInfo r).internalAddresses) : Rests h (h.store r x) := by
  refine ⟨rfl, fun r' => ?_, rfl⟩
  have hheap : (h.store r x).hubInfo r' = Function.update h.connections.heap r x r' := rfl
  rw [hheap]
  by_cases hr : r' = r
  · subst hr
    rw [Function.update_self]
    exact ⟨hid, hext, hint⟩
  · rw [Function.update_of_ne hr]
    exact ⟨rfl, rfl, rfl⟩

theorem publishUpdated_own {r : Ref} (hid : (h.hubInfo r).id = h.localHubInfo.id) :
    h.publishUpdated r = h.publish (.connectionUpdated (h.hubInfo r)) := by
  rw [HubManager.publishUpdated]
  exact if_neg fun hne => hne hid.symm

theorem resume_rests {call : Call} (hown : ∀ protocol, call.caller = .reqMessageHandler protocol →
    (h.hubInfo call.hubInfo).id = h.localHubInfo.id) (endpoint : IPEndPoint) :
    Rests h (h.resume call endpoint) ∧ Silent h (h.resume call endpoint) := by
  rw [HubManager.resume]
  cases hcaller : call.caller with
  | connectToClient => exact ⟨rests_of_eq rfl rfl, writes_publish ..⟩
  | reqMessageHandler protocol =>
    have hid : ((h.publish (.connectionStarted (h.hubInfo call.hubInfo) endpoint)).hubInfo call.hubInfo).id =
        (h.publish (.connectionStarted (h.hubInfo call.hubInfo) endpoint)).localHubInfo.id :=
      hown protocol hcaller
    simp only
    rw [publishUpdated_own hid]
    exact ⟨rests_of_eq rfl rfl, (writes_publish ..).trans (writes_publish ..)⟩

/-- **A call goes on**: the calls of the listener's make no others. -/
theorem advance_rests {t : Nat} (hown : Own h) (hs : h.advance t = some h') :
    ∃ call pc h₁, h.calls[t]? = some call ∧ h' = h₁.goto t pc ∧
      steps (h.hubInfo call.hubInfo).internalAddresses.length pc < remaining h call ∧
        Rests h h₁ ∧ Silent h h₁ := by
  obtain ⟨call, pc, h₁, hcall, rfl, hlt, hcases⟩ := advance_steps hs
  refine ⟨call, pc, h₁, hcall, rfl, hlt, ?_⟩
  rcases hcases with rfl | ⟨endpoint, rfl⟩ | ⟨type, response, rfl⟩ | ⟨endpoint, rfl⟩
  · exact ⟨.refl _, writes_none rfl⟩
  · exact ⟨rests_of_eq rfl rfl, writes_of [.sendUDP _ endpoint] rfl fun m hm => by simp at hm⟩
  · have hstore : Rests h (h.store call.hubInfo { h.hubInfo call.hubInfo with connectionType := type }) :=
      rests_store rfl rfl rfl
    exact ⟨hstore.trans (rests_of_eq rfl rfl), writes_none rfl⟩
  · exact resume_rests (fun protocol hcaller => (hown call (List.mem_of_getElem? hcall) protocol hcaller).2)
      endpoint

/-! ### The calls of the listener's -/

theorem Own.of (ho : Own h) (hid : h'.localHubInfo.id = h.localHubInfo.id)
    (hnext : h.connections.next ≤ h'.connections.next)
    (hobjects : ∀ r < h.connections.next, (h'.hubInfo r).id = (h.hubInfo r).id)
    (hcalls : ∀ call ∈ h'.calls, ∀ protocol, call.caller = .reqMessageHandler protocol →
      ∃ old ∈ h.calls, old.caller = .reqMessageHandler protocol ∧ call.hubInfo = old.hubInfo) : Own h' := by
  intro call hcall protocol hcaller
  obtain ⟨old, hold, hcaller', hsame⟩ := hcalls call hcall protocol hcaller
  obtain ⟨hlt, hself⟩ := ho old hold protocol hcaller'
  rw [hsame, hobjects old.hubInfo hlt, hid]
  exact ⟨Nat.lt_of_lt_of_le hlt hnext, hself⟩

theorem Own.of_calls (ho : Own h) (hid : h'.localHubInfo.id = h.localHubInfo.id)
    (hnext : h.connections.next ≤ h'.connections.next)
    (hobjects : ∀ r < h.connections.next, (h'.hubInfo r).id = (h.hubInfo r).id)
        (hcalls : h'.calls = h.calls) :
    Own h' := by
  refine ho.of hid hnext hobjects fun call hcall protocol hcaller => ?_
  rw [hcalls] at hcall
  exact ⟨call, hcall, hcaller, rfl⟩

theorem Own.of_eq (ho : Own h) (hid : h'.localHubInfo.id = h.localHubInfo.id)
    (hnext : h'.connections.next = h.connections.next) (hheap : h'.connections.heap = h.connections.heap)
    (hcalls : h'.calls = h.calls) : Own h' := by
  refine ho.of_calls hid hnext.ge (fun r _ => ?_) hcalls
  rw [HubManager.hubInfo, HubManager.hubInfo, hheap]

theorem Own.publish (ho : Own h) (event : BaseEvent) : Own (h.publish event) := ho.of_eq rfl rfl rfl rfl

theorem Own.sendMessageTCP (ho : Own h) (message : BaseMessage) : Own (h.sendMessageTCP message) := by
  rw [HubManager.sendMessageTCP]
  split
  · exact ho.of_eq rfl rfl rfl rfl
  · exact ho

theorem Own.store (ho : Own h) {r : Ref} {x : HubInfo} (hid : x.id = (h.hubInfo r).id) : Own (h.store r x) :=
  ho.of_calls rfl (Nat.le_refl _) (fun r' _ => ConnectionManager.store_heap_field HubInfo.id hid r') rfl

theorem Own.addConnection (ho : Own h) (x : HubInfo) :
    Own { h with connections := h.connections.addConnection x } := by
  refine ho.of_calls rfl (Nat.le_succ _) (fun r hr => ?_) rfl
  show ((Function.update h.connections.heap h.connections.next x) r).id = _
  rw [Function.update_of_ne (Nat.ne_of_lt hr)]
  rfl

theorem Own.find (ho : Own h) {caller : Caller} {r : Ref}
    (hown : ∀ protocol, caller = .reqMessageHandler protocol →
      r < h.connections.next ∧ (h.hubInfo r).id = h.localHubInfo.id) :
    Own (h.findReachableEndpoint caller r) := by
  intro call hcall protocol hcaller
  rcases List.mem_append.mp hcall with hcall | hcall
  · exact ho call hcall protocol hcaller
  · rw [List.mem_singleton.mp hcall] at hcaller ⊢
    exact hown protocol hcaller

theorem Own.connectToClient (ho : Own h) (r : Ref) : Own (h.connectToClient r) :=
  (ho.sendMessageTCP _).find fun protocol hcaller => by cases hcaller

theorem Own.publishUpdated (ho : Own h) (r : Ref) : Own (h.publishUpdated r) := by
  rw [HubManager.publishUpdated]
  split
  · exact (ho.publish _).connectToClient r
  · exact ho.publish _

theorem Own.goto (ho : Own h) (t : Nat) (pc : CallPc) : Own (h.goto t pc) := by
  refine ho.of rfl (Nat.le_refl _) (fun _ _ => rfl) fun call hcall protocol hcaller => ?_
  obtain ⟨k, hk⟩ := List.mem_iff_getElem?.mp hcall
  have hk : (h.calls.modify t fun call => { call with pc := pc })[k]? = some call := hk
  rw [List.getElem?_modify, Option.map_eq_map] at hk
  obtain ⟨old, hold, heq⟩ := Option.map_eq_some_iff.mp hk
  refine ⟨old, List.mem_of_getElem? hold, ?_⟩
  rw [← heq] at hcaller ⊢
  split at hcaller
  · next htk =>
    rw [if_pos htk]
    exact ⟨hcaller, rfl⟩
  · next htk =>
    rw [if_neg htk]
    exact ⟨hcaller, rfl⟩

theorem Own.advance (ho : Own h) {t : Nat} (hs : h.advance t = some h') : Own h' := by
  obtain ⟨call, pc, h₁, _, rfl, _, hcases⟩ := advance_steps hs
  refine Own.goto ?_ t pc
  rcases hcases with rfl | ⟨endpoint, rfl⟩ | ⟨type, response, rfl⟩ | ⟨endpoint, rfl⟩
  · exact ho
  · exact ho.of_eq rfl rfl rfl rfl
  · exact Own.of_eq (Own.store (x := { h.hubInfo call.hubInfo with connectionType := type }) ho rfl)
      rfl rfl rfl rfl
  · rw [HubManager.resume]
    split
    · exact ho.publish _
    · exact (ho.publish _).publishUpdated _

/-- **A message is taken**; a request is about the hub itself. -/
theorem Own.listen (ho : Own h) (hmade : h.connections.Made) (fmt : TextFormat) (m : BaseMessage)
    (protocol : ProtocolType) (endpoint : Option IPEndPoint)
    (hm : ∀ msg, m = .req msg → msg.recipientId = h.localHubInfo.id) :
    Own (h.listen fmt (.ok (some m)) protocol endpoint) := by
  rw [HubManager.listen_some, process_hubMaps]
  cases m with
  | ack msg =>
    simp only
    rw [processAck]
    split
    · exact ho.of_eq rfl rfl rfl rfl
    · split
      · exact ho
      · next r _ =>
        split
        · next known source _ =>
          have hport : Own (learnPort r known source h) := by
            rw [learnPort]
            split
            · have hstore : Own (h.store r { h.hubInfo r with
                  externalEndpoint := some { known with port := source.port } }) := ho.store rfl
              exact hstore.publishUpdated r
            · exact ho
          have haddress : Own (learnAddress fmt r known source (learnPort r known source h)) := by
            rw [learnAddress]
            split
            · exact hport.store rfl
            · exact hport
          exact haddress.of_eq rfl rfl rfl rfl
        · exact ho
  | info msg =>
    simp only
    rw [Hub.processInfo]
    split
    · split
      · exact ho
      · exact (ho.addConnection _).publish _
    · next r _ =>
      have hid := update_state_id fmt (h.hubInfo r) msg
      split
      · next hu =>
        rw [hu] at hid
        exact ho.store hid
      · next hu =>
        rw [hu] at hid
        exact (ho.store hid).publishUpdated r
  | msg msg =>
    simp only
    rw [processMessage]
    split
    · exact ho.publish _
    · split
      · exact ho.publish _
      · exact ho
  | notification item =>
    simp only
    rw [processNotification]
    split
    · split
      · exact ho
      · split
        · exact ho
        · exact ho.of_eq rfl rfl rfl rfl
    · rw [HubManager.disconnectedGateway]
      split
      · exact ho.of_eq rfl rfl rfl rfl
      · exact ho
  | req msg =>
    simp only
    rw [Hub.processReq]
    split
    · exact ho
    · next r hget =>
      refine (ho.publish _).find fun _ _ => ⟨hmade.lt r (List.mem_of_find?_eq_some hget), ?_⟩
      exact (ConnectionManager.getConnection_id hget).trans (hm msg rfl)
  | keepAlive _ => exact ho
  | broadcast _ => exact ho
  | test _ => exact ho

theorem Own.own (ho : Own h) (fmt : TextFormat) {a : Events.Step} (hown : ownStep a = true) :
    Own (Events.step fmt h a) := by
  cases a with
  | receive message protocol endpoint => cases hown
  | advance t =>
    rw [Events.step]
    cases hs : h.advance t with
    | none => exact ho
    | some h' => exact ho.advance hs
  | connectToClient r => exact ho.connectToClient r
  | connectGateway serverEndpoint localEndPoint => cases hown
  | connectedGateway => exact (ho.sendMessageTCP _).publish _
  | refusedGateway serverEndpoint => exact ho.publish _
  | disconnectedGateway =>
    rw [Events.step, HubManager.disconnectedGateway]
    split
    · exact ho.of_eq rfl rfl rfl rfl
    · exact ho
  | network connected writeFails => exact ho.of_eq rfl rfl rfl rfl

end

/-! ### What a hub has to do -/

theorem sum_modify_lt {α : Type} {l : List α} {g : α → Nat} {f : α → α} {t : Nat} {a : α}
    (ha : l[t]? = some a) (hlt : g (f a) < g a) : ((l.modify t f).map g).sum < (l.map g).sum := by
  induction l generalizing t with
  | nil => cases ha
  | cons b l ih =>
    cases t with
    | zero =>
      obtain rfl := Option.some.inj ha
      simp only [List.modify_zero_cons, List.map_cons, List.sum_cons]
      omega
    | succ t =>
      have hrest := ih (t := t) ha
      simp only [List.modify_succ_cons, List.map_cons, List.sum_cons]
      omega

section

variable {ι : Type} [Fintype ι] (fmt : TextFormat) (name : ι → Option String) (address : ι → IPEndPoint)

/-- From a probe of the hub it is about, the hub learns about the entry. -/
def unlearned (x : HubInfo) : Bool :=
  decide (∃ k, name k = x.id ∧ learnable fmt (address k) x = true)

def todo (h : HubManager) : Level → Nat
  | .unlearned => h.connections.connections.countP fun r => unlearned fmt name address (h.hubInfo r)
  | .call => (h.calls.map (remaining h)).sum
  | _ => 0

variable {fmt name address} {h h' : HubManager}

theorem unlearned_congr {x y : HubInfo} (hid : x.id = y.id) (hext : x.externalEndpoint = y.externalEndpoint)
    (hint : x.internalAddresses = y.internalAddresses) :
    unlearned fmt name address x = unlearned fmt name address y := by
  have hsame : ∀ source, learnable fmt source x = learnable fmt source y := by
    intro source
    rw [learnable, learnable, hext, hint]
  rw [unlearned, unlearned, decide_eq_decide]
  simp only [hid, hsame]

theorem remaining_rests (hr : Rests h h') (call : Call) : remaining h' call = remaining h call := by
  rw [remaining, remaining, (hr.objects call.hubInfo).2.2]

theorem todo_rests (hr : Rests h h') (v : Level) :
    todo fmt name address h' v = todo fmt name address h v := by
  cases v with
  | unlearned =>
    rw [todo, todo, hr.list]
    refine List.countP_congr fun r _ => ?_
    obtain ⟨hid, hext, hint⟩ := hr.objects r
    rw [unlearned_congr hid hext hint]
  | call =>
    rw [todo, todo, hr.calls]
    exact congrArg List.sum (List.map_congr_left fun call _ => remaining_rests hr call)
  | _ => rfl

/-- **A call goes on**: there is less to do, and nothing else to learn. -/
theorem todo_advance {t : Nat} (ho : Own h) (hs : h.advance t = some h') :
    todo fmt name address h' .call < todo fmt name address h .call ∧
      todo fmt name address h' .unlearned = todo fmt name address h .unlearned ∧ Silent h h' := by
  obtain ⟨call, pc, h₁, hcall, rfl, hlt, hr, hsilent⟩ := advance_rests ho hs
  refine ⟨?_, todo_rests hr .unlearned, hsilent.trans (writes_none rfl)⟩
  rw [← todo_rests hr .call]
  have hcall₁ : h₁.calls[t]? = some call := by
    rw [hr.calls]
    exact hcall
  refine sum_modify_lt hcall₁ ?_
  show steps (h₁.hubInfo call.hubInfo).internalAddresses.length pc < remaining h₁ call
  rw [(hr.objects call.hubInfo).2.2, remaining_rests hr]
  exact hlt

/-! ### What is done with a message -/

theorem todo_store {r : Ref} {x : HubInfo} (hr : r ∈ h.connections.connections)
    (hconn : h'.connections = h.connections.store r x)
    (hbefore : unlearned fmt name address (h.hubInfo r) = true)
        (hafter : unlearned fmt name address x = false) :
    todo fmt name address h' .unlearned < todo fmt name address h .unlearned := by
  have hobject : ∀ r', h'.hubInfo r' = Function.update h.connections.heap r x r' := by
    intro r'
    rw [HubManager.hubInfo, hconn]
    rfl
  have hle : ∀ r', unlearned fmt name address (h'.hubInfo r') = true →
      unlearned fmt name address (h.hubInfo r') = true := by
    intro r' hr'
    by_cases hne : r' = r
    · rw [hne]
      exact hbefore
    · rw [hobject, Function.update_of_ne hne] at hr'
      exact hr'
  have hself : h'.hubInfo r = x := (hobject r).trans (Function.update_self ..)
  obtain ⟨as, bs, hcut⟩ := List.append_of_mem hr
  rw [todo, todo, hconn, ConnectionManager.store_connections, hcut, List.countP_append, List.countP_append,
    List.countP_cons, List.countP_cons, if_pos hbefore, if_neg (by simp [hself, hafter])]
  have has := List.countP_mono_left (l := as) fun r' _ => hle r'
  have hbs := List.countP_mono_left (l := bs) fun r' _ => hle r'
  omega

theorem not_unlearned (hinj : Function.Injective name) {k : ι} {x : HubInfo} (hk : name k = x.id)
    (hx : learnable fmt (address k) x = false) : unlearned fmt name address x = false := by
  rw [unlearned, decide_eq_false_iff_not]
  rintro ⟨k', hk', hlearn⟩
  obtain rfl : k' = k := hinj (hk'.trans hk.symm)
  rw [hx] at hlearn
  cases hlearn

/-- **A probe is taken**: the hub has what it had to do and writes nothing, or has learned about who sent
it. -/
theorem todo_probe (hinj : Function.Injective name) {msg : AckMessage} (hasks : msg.response = false) {k : ι}
    (hid : msg.id = name k) (protocol : ProtocolType) :
    (Rests h (h.listen fmt (.ok (some (.ack msg))) protocol (some (address k))) ∧
      Silent h (h.listen fmt (.ok (some (.ack msg))) protocol (some (address k)))) ∨
    todo fmt name address (h.listen fmt (.ok (some (.ack msg))) protocol (some (address k))) .unlearned <
      todo fmt name address h .unlearned := by
  rw [HubManager.listen_some, process_hubMaps]
  simp only
  rw [processAck, if_neg (by simp [hasks])]
  cases hget : h.connections.getConnection msg.id with
  | none => exact Or.inl ⟨.refl h, writes_none rfl⟩
  | some r =>
    have hr : r ∈ h.connections.connections := List.mem_of_find?_eq_some hget
    have hname : name k = (h.hubInfo r).id := hid.symm.trans (ConnectionManager.getConnection_id hget).symm
    cases hext : (h.hubInfo r).externalEndpoint with
    | none =>
      simp only [hext]
      exact Or.inl ⟨.refl h, writes_none rfl⟩
    | some known =>
      simp only [hext, Outcome.state_done]
      have hlearns : ∀ {x : HubInfo} {h' : HubManager}, h'.connections = h.connections.store r x →
          x.id = (h.hubInfo r).id → learnable fmt (address k) (h.hubInfo r) = true →
            learnable fmt (address k) x = false →
              todo fmt name address h' .unlearned < todo fmt name address h .unlearned := by
        intro x h' hconn hx hbefore hafter
        refine todo_store hr hconn (decide_eq_true ⟨k, hname, hbefore⟩) (not_unlearned hinj ?_ hafter)
        exact hname.trans hx.symm
      by_cases hport : known.address = (address k).address ∧ known.port ≠ (address k).port
      · -- the hub has moved to another port
        refine Or.inr (hlearns (x := { h.hubInfo r with
          externalEndpoint := some { known with port := (address k).port } }) ?_ rfl ?_ ?_)
        · rw [learnPort, if_pos hport, learnAddress, if_neg (fun hother => hother.1 hport.1)]
          exact HubManager.publishUpdated_connections ..
        · simp [learnable, hext, hport]
        · simp [learnable, hport.1]
      · by_cases hother : known.address ≠ (address k).address ∧ fmt.addressToString (address k).address ∉
            (h.hubInfo r).internalAddresses.map fmt.addressToString
        · -- it has another address
          refine Or.inr (hlearns (x := { h.hubInfo r with
            internalAddresses := (h.hubInfo r).internalAddresses ++ [(address k).address] }) ?_ rfl ?_ ?_)
          · rw [learnPort, if_neg hport, learnAddress, if_pos hother]
            rfl
          · simp only [learnable, hext, Option.any_some, decide_eq_true hother, Bool.or_true]
          · simp [learnable, hext, hother.1]
        · refine Or.inl ?_
          rw [learnPort, if_neg hport, learnAddress, if_neg hother]
          exact ⟨rests_of_eq rfl rfl, writes_of [.sendUDP _ _] rfl fun m hm => by simp at hm⟩

theorem rests_reply {msg : AckMessage} (hreply : msg.response = true) (protocol : ProtocolType)
    (endpoint : Option IPEndPoint) :
    Rests h (h.listen fmt (.ok (some (.ack msg))) protocol endpoint) ∧
      Silent h (h.listen fmt (.ok (some (.ack msg))) protocol endpoint) := by
  rw [HubManager.listen_some, process_hubMaps]
  simp only
  rw [processAck, if_pos hreply]
  exact ⟨rests_of_eq rfl rfl, writes_none rfl⟩

theorem todo_req (msg : ReqMessage) (protocol : ProtocolType) (endpoint : Option IPEndPoint) :
    todo fmt name address (h.listen fmt (.ok (some (.req msg))) protocol endpoint) .unlearned =
        todo fmt name address h .unlearned ∧
      Silent h (h.listen fmt (.ok (some (.req msg))) protocol endpoint) := by
  rw [HubManager.listen_some, process_hubMaps]
  simp only [Outcome.state_done]
  rw [Hub.processReq]
  split
  · exact ⟨rfl, writes_none rfl⟩
  · next r _ =>
    refine ⟨rfl, (writes_publish ..).trans (writes_of [.findReachableEndpoint _] rfl fun m hm => ?_)⟩
    simp at hm

theorem todo_notification (item : NotificationMessage) (protocol : ProtocolType)
    (endpoint : Option IPEndPoint) :
    todo fmt name address (h.listen fmt (.ok (some (.notification item))) protocol endpoint) .unlearned ≤
        todo fmt name address h .unlearned ∧
      todo fmt name address (h.listen fmt (.ok (some (.notification item))) protocol endpoint) .call =
        todo fmt name address h .call ∧
      Silent h (h.listen fmt (.ok (some (.notification item))) protocol endpoint) := by
  rw [HubManager.listen_some, process_hubMaps]
  simp only
  rw [processNotification]
  have hsame : ∀ {h' : HubManager}, h' = h → todo fmt name address h' .unlearned ≤
      todo fmt name address h .unlearned ∧ todo fmt name address h' .call = todo fmt name address h .call ∧
        Silent h h' := by
    rintro h' rfl
    exact ⟨Nat.le_refl _, rfl, writes_none rfl⟩
  split
  · split
    · exact hsame rfl
    · split
      · exact hsame rfl
      · exact ⟨List.Sublist.countP_le List.erase_sublist, rfl, writes_publish ..⟩
  · rw [HubManager.disconnectedGateway]
    split
    · exact ⟨Nat.zero_le _, rfl, writes_publish ..⟩
    · exact hsame rfl

end

end Blockcore.Network.Links.Work
