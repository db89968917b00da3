import Blockcore.Lib.Runs
import Blockcore.Hub.Handlers
import Blockcore.Networking.DottedText

/-!
# Which endpoint answered

`FindReachableEndpoint` probes one endpoint after another and takes the first
response of the hub it looks for as the answer to the probe it sent last.  A
response does not say which probe it answers, and `AckResponces` is one list for
all calls, so a late one, or one that was left over, is taken for the wrong one.

`reachable_sound` says when it is not: as long as no call begins, or goes on to another
address, while a response of its hub is left over, and a response comes in only while
every call that still looks for its hub tries the endpoint it answers for.
-/

namespace Blockcore.Hub.Reachability

open Lib Networking

/-- What happens at a hub: the next call begins; a call goes on; a hub's reply to a
probe sent to an endpoint arrives, from wherever; the gateway's connection comes
or goes. -/
inductive Event where
  | call (t : Nat) (caller : Caller) (hubInfo : Ref)
  | go (t : Nat)
  | reply (responder : Option String) (endpoint source : IPEndPoint)
  | gateway (connected : Bool)
  deriving DecidableEq

def probe (h : HubManager) (endpoint : IPEndPoint) : Act :=
  .sendUDP (Ack.new h.localHubInfo.id).toMessage endpoint

def reply (h : HubManager) (responder : Option String) : BaseMessage :=
  .ack { id := h.localHubInfo.id, recipientId := responder, response := true }

/-- One step. What a caller does once it has its endpoint is no part of the call. -/
def step (fmt : TextFormat) (h : HubManager) : Event → Option HubManager
  | .call t caller r => if t = h.calls.length then some (h.findReachableEndpoint caller r) else none
  | .go t =>
    match (h.calls[t]?).map Call.pc with
    | some (.returned _) => none
    | _ => h.advance t
  | .reply responder endpoint source =>
    if h.listening .Udp ∧ probe h endpoint ∈ h.acts then
      some (h.listen fmt (.ok (some (reply h responder))) .Udp (some source))
    else none
  | .gateway connected => some { h with connected := connected }

/-- A hub no call has been made at. -/
structure Fresh (h : HubManager) : Prop where
  calls : h.calls = []
  ackResponces : h.ackResponces = []
  acts : h.acts = []

def searching (call : Call) : Bool :=
  match call.pc with
  | .lan _ => true
  | .lanTry .. => true
  | .lanSleep .. => true
  | .wan => true
  | .wanTry _ => true
  | .wanSleep _ => true
  | _ => false

/-- The endpoint the call tries: it is about to probe it, or waits for its answer. -/
def tries (h : HubManager) (call : Call) : Option IPEndPoint :=
  match call.pc with
  | .lanTry _ endpoint _ => some endpoint
  | .lanSleep _ endpoint _ => some endpoint
  | .wanTry _ => (h.hubInfo call.hubInfo).externalEndpoint
  | .wanSleep _ => (h.hubInfo call.hubInfo).externalEndpoint
  | _ => none

/-- It gives the address up, and goes on to the next one. -/
def givesUp (h : HubManager) (call : Call) : Bool :=
  match call.pc with
  | .lanTry _ _ i => !(decide (i < 4) && h.connected)
  | _ => false

def settledOn (h : HubManager) (call : Call) : Option IPEndPoint :=
  match call.pc with
  | .lanReceived endpoint _ => some endpoint
  | .wanReceived _ => (h.hubInfo call.hubInfo).externalEndpoint
  | .returned endpoint => endpoint
  | _ => none

def wanted (h : HubManager) (call : Call) : Option String := (h.hubInfo call.hubInfo).id

/-- **Every endpoint returned answered**: a reply to a probe sent to it came from
the hub the call is for, since the call began. -/
def Sound (ls : List Event) (h : HubManager) : Prop :=
  ∀ t call endpoint, h.calls[t]? = some call → call.pc = .returned (some endpoint) →
    ∃ before caller during source, ls = before ++ .call t caller call.hubInfo :: during ∧
      .reply (wanted h call) endpoint source ∈ during

/-- No response is left over when a call begins or goes on to the next address, and one comes in
only while every call that still looks for its hub tries the endpoint it answers for. -/
def Timely (h : HubManager) : Event → Prop
  | .call _ _ r => ∀ a ∈ h.ackResponces, a.2.recipientId ≠ (h.hubInfo r).id
  | .go t => ∀ call ∈ h.calls[t]?, givesUp h call = true →
    ∀ a ∈ h.ackResponces, a.2.recipientId ≠ wanted h call
  | .reply responder endpoint _ =>
    ∀ call ∈ h.calls, searching call = true → wanted h call = responder →
      tries h call = some endpoint
  | .gateway _ => True

/-! ### What a step of a call can do -/

/-- Objects keep their ids and endpoints. -/
structure SameObjects (h h' : HubManager) : Prop where
  id : ∀ r, (h'.hubInfo r).id = (h.hubInfo r).id
  externalEndpoint : ∀ r, (h'.hubInfo r).externalEndpoint = (h.hubInfo r).externalEndpoint

/-- What other calls see of a step: no response is added, either. -/
structure Same (h h' : HubManager) : Prop extends SameObjects h h' where
  ackResponces : ∀ a ∈ h'.ackResponces, a ∈ h.ackResponces

/-- What a step of a call does to the call: it goes on trying what it tried; it tries something else,
having tried nothing or given up; it finds a response and settles on the endpoint it tried; it ends
with none; or it keeps the endpoint it has settled on. -/
inductive Moves (h : HubManager) (call : Call) (h' : HubManager) (call' : Call) : Prop where
  | stays (hsearch : searching call = true) (hsettled : settledOn h' call' = none)
    (htries : tries h' call' = tries h call)
  | moves (hsearch : searching call = true) (hsettled : settledOn h' call' = none)
    (hfree : tries h call = none ∨ givesUp h call = true)
  | finds (hsearch : searching call = true) (hstop : searching call' = false)
    (hsettled : settledOn h' call' = tries h call) {a : Nat × Ack} (ha : a ∈ h.ackResponces)
    (hid : a.2.recipientId = wanted h call)
  | ends (hsearch : searching call = true) (hstop : searching call' = false)
    (hsettled : settledOn h' call' = none)
  | keeps (hsearch : searching call = false) (hstop : searching call' = false)
    (hsettled : ∀ endpoint ∈ settledOn h' call', settledOn h call = some endpoint)

variable {h h' : HubManager} {t : Nat} {call : Call}

theorem same_goto (h : HubManager) (t : Nat) (pc : CallPc) : Same h (h.goto t pc) :=
  ⟨⟨fun _ => rfl, fun _ => rfl⟩, fun _ ha => ha⟩

theorem same_sendAck (h : HubManager) (endpoint : IPEndPoint) (t : Nat) (pc : CallPc) :
    Same h ((h.sendAck endpoint).goto t pc) :=
  ⟨⟨fun _ => rfl, fun _ => rfl⟩, fun _ ha => ha⟩

theorem same_accept (h : HubManager) (r : Ref) (type : ConnectionTypes) (response : Nat) (t : Nat)
    (pc : CallPc) : Same h ((h.accept r type response).goto t pc) := by
  refine ⟨⟨ConnectionManager.store_heap_field HubInfo.id rfl,
    ConnectionManager.store_heap_field HubInfo.externalEndpoint rfl⟩, fun a ha => ?_⟩
  exact List.mem_of_mem_eraseP ha

theorem getAck_mem {id : Option String} {a : Nat × Ack} (ha : h.getAck id = some a) :
    a ∈ h.ackResponces ∧ a.2.recipientId = id :=
  ⟨List.mem_of_find?_eq_some ha, by simpa using List.find?_some ha⟩

theorem advance_cases (hc : h.calls[t]? = some call) (hr : ∀ e, call.pc ≠ .returned e)
    (hs : h.advance t = some h') :
    ∃ pc, h'.calls = h.calls.modify t (fun call => { call with pc := pc }) ∧ Same h h' ∧
      Moves h call h' { call with pc := pc } := by
  obtain ⟨caller, r, pc⟩ := call
  cases pc with
  | lan ip =>
    simp only [HubManager.advance, hc] at hs
    -- it goes to the loop's body, past the loop, or throws
    have hpc : ∃ pc, h' = h.goto t pc ∧ settledOn h' ⟨caller, r, pc⟩ = none := by
      split at hs
      · exact ⟨_, (Option.some.inj hs).symm, rfl⟩
      · split at hs
        · split at hs
          · exact ⟨_, (Option.some.inj hs).symm, rfl⟩
          · exact ⟨_, (Option.some.inj hs).symm, rfl⟩
        · exact ⟨_, (Option.some.inj hs).symm, rfl⟩
    obtain ⟨pc, rfl, hsettled⟩ := hpc
    exact ⟨pc, rfl, same_goto .., .moves rfl hsettled (Or.inl rfl)⟩
  | lanTry ip endpoint i =>
    simp only [HubManager.advance, hc] at hs
    split at hs
    · cases hs
      exact ⟨_, rfl, same_sendAck .., .stays rfl rfl rfl⟩
    · next hleaves =>
      cases hs
      refine ⟨_, rfl, same_goto .., .moves rfl rfl (Or.inr ?_)⟩
      rw [givesUp, Bool.not_eq_true', Bool.and_eq_false_iff, decide_eq_false_iff_not]
      rw [not_and_or, Bool.not_eq_true] at hleaves
      exact hleaves
  | lanSleep ip endpoint i =>
    simp only [HubManager.advance, hc] at hs
    split at hs
    · cases hs
      exact ⟨_, rfl, same_goto .., .stays rfl rfl rfl⟩
    · next response hsome =>
      cases hs
      obtain ⟨hmem, hid⟩ := getAck_mem hsome
      exact ⟨_, rfl, same_goto .., .finds rfl rfl rfl hmem hid⟩
  | lanReceived endpoint response =>
    simp only [HubManager.advance, hc] at hs
    cases hs
    exact ⟨_, rfl, same_accept .., .keeps rfl rfl fun e he => he⟩
  | wan =>
    simp only [HubManager.advance, hc] at hs
    split at hs
    · cases hs
      exact ⟨_, rfl, same_goto .., .moves rfl rfl (Or.inl rfl)⟩
    · cases hs
      exact ⟨_, rfl, same_goto .., .moves rfl rfl (Or.inl rfl)⟩
  | wanTry i =>
    simp only [HubManager.advance, hc] at hs
    split at hs
    · split at hs
      · cases hs
        exact ⟨_, rfl, same_goto .., .stays rfl rfl rfl⟩
      · cases hs
        exact ⟨_, rfl, same_sendAck .., .stays rfl rfl rfl⟩
    · cases hs
      exact ⟨_, rfl, same_goto .., .ends rfl rfl rfl⟩
  | wanSleep i =>
    simp only [HubManager.advance, hc] at hs
    split at hs
    · cases hs
      exact ⟨_, rfl, same_goto .., .stays rfl rfl rfl⟩
    · next response hsome =>
      cases hs
      obtain ⟨hmem, hid⟩ := getAck_mem hsome
      exact ⟨_, rfl, same_goto .., .finds rfl rfl rfl hmem hid⟩
  | wanReceived response =>
    simp only [HubManager.advance, hc] at hs
    split at hs
    · cases hs
      exact ⟨_, rfl, same_goto .., .keeps rfl rfl fun e he => by cases he⟩
    · next endpoint hext =>
      cases hs
      exact ⟨_, rfl, same_accept .., .keeps rfl rfl fun e he => hext.trans he⟩
  | returned endpoint => exact absurd rfl (hr endpoint)
  | threw e => simp [HubManager.advance, hc] at hs
  | ended => simp [HubManager.advance, hc] at hs

/-! ### The invariant -/

/-- The hub the call is for answered, since it began, to a probe sent there. -/
def Answered (h : HubManager) (call : Call) (during : List Event) (endpoint : IPEndPoint) : Prop :=
  ∃ source, .reply (wanted h call) endpoint source ∈ during

/-- While a call looks, every response of its hub that is kept answers for the
endpoint it tries; and it settled on one that answered. -/
structure Kept (h : HubManager) (call : Call) (during : List Event) : Prop where
  looking : searching call = true → ∀ a ∈ h.ackResponces, a.2.recipientId = wanted h call →
    ∃ endpoint, tries h call = some endpoint ∧ Answered h call during endpoint
  settled : ∀ endpoint, settledOn h call = some endpoint → Answered h call during endpoint

/-- Every call began somewhere, and has kept that since. -/
def Invariant (ls : List Event) (h : HubManager) : Prop :=
  ∀ t call, h.calls[t]? = some call → ∃ before caller during,
    ls = before ++ .call t caller call.hubInfo :: during ∧ Kept h call during

variable {during : List Event}

theorem SameObjects.wanted (hs : SameObjects h h') (call : Call) : wanted h' call = wanted h call :=
  hs.id call.hubInfo

theorem SameObjects.tries (hs : SameObjects h h') (call : Call) : tries h' call = tries h call := by
  unfold Reachability.tries
  split
  · rfl
  · rfl
  · exact hs.externalEndpoint call.hubInfo
  · exact hs.externalEndpoint call.hubInfo
  · rfl

theorem SameObjects.settledOn (hs : SameObjects h h') (call : Call) : settledOn h' call = settledOn h call := by
  unfold Reachability.settledOn
  split
  · rfl
  · exact hs.externalEndpoint call.hubInfo
  · rfl
  · rfl

theorem Answered.later {endpoint : IPEndPoint} (ha : Answered h call during endpoint) (e : Event)
    (hw : wanted h' call = wanted h call) : Answered h' call (during ++ [e]) endpoint := by
  obtain ⟨source, hmem⟩ := ha
  exact ⟨source, List.mem_append_left _ (hw ▸ hmem)⟩

theorem Kept.same (hk : Kept h call during) (hs : Same h h') (e : Event) :
    Kept h' call (during ++ [e]) := by
  refine ⟨?_, ?_⟩
  · intro hsearch a ha hid
    rw [hs.wanted] at hid
    obtain ⟨endpoint, hw, hans⟩ := hk.looking hsearch a (hs.ackResponces a ha) hid
    exact ⟨endpoint, by rw [hs.tries, hw], hans.later e (hs.wanted call)⟩
  · intro endpoint hset
    rw [hs.settledOn] at hset
    exact (hk.settled endpoint hset).later e (hs.wanted call)

theorem Kept.moves (hk : Kept h call during) (hs : Same h h') {pc : CallPc}
    (hm : Moves h call h' { call with pc := pc })
    (hleft : givesUp h call = true → ∀ a ∈ h.ackResponces, a.2.recipientId ≠ wanted h call) (e : Event) :
    Kept h' { call with pc := pc } (during ++ [e]) := by
  have hwanted : wanted h' { call with pc := pc } = wanted h call := hs.wanted call
  have later : ∀ endpoint, Answered h call during endpoint →
      Answered h' { call with pc := pc } (during ++ [e]) endpoint := by
    rintro endpoint ⟨source, hmem⟩
    exact ⟨source, List.mem_append_left _ (hwanted ▸ hmem)⟩
  have hstops : searching { call with pc := pc } = false →
      (∀ endpoint, settledOn h' { call with pc := pc } = some endpoint → Answered h call during endpoint) →
      Kept h' { call with pc := pc } (during ++ [e]) :=
    fun hstop hset => ⟨(fun h => by rw [hstop] at h; cases h), fun endpoint hsome => later _ (hset _ hsome)⟩
  cases hm with
  | stays hsearch hnone htries =>
    refine ⟨fun _ a ha hid => ?_, fun endpoint hsome => by rw [hnone] at hsome; cases hsome⟩
    obtain ⟨endpoint, hw, hans⟩ := hk.looking hsearch a (hs.ackResponces a ha) (hid.trans hwanted)
    exact ⟨endpoint, htries.trans hw, later endpoint hans⟩
  | moves hsearch hnone hfree =>
    -- there is no response of its hub
    have hno : ∀ a ∈ h.ackResponces, a.2.recipientId ≠ wanted h call := by
      rcases hfree with hfree | hfree
      · intro a ha hid
        obtain ⟨endpoint, hw, _⟩ := hk.looking hsearch a ha hid
        rw [hfree] at hw
        cases hw
      · exact hleft hfree
    exact ⟨fun _ a ha hid => absurd (hid.trans hwanted) (hno a (hs.ackResponces a ha)),
      fun endpoint hsome => by rw [hnone] at hsome; cases hsome⟩
  | finds hsearch hstop hset ha hid =>
    -- it tried the endpoint that answered
    obtain ⟨endpoint, hw, hans⟩ := hk.looking hsearch _ ha hid
    refine hstops hstop fun endpoint' hsome => ?_
    rw [hset, hw] at hsome
    obtain rfl := Option.some.inj hsome
    exact hans
  | ends hsearch hstop hnone =>
    exact hstops hstop fun endpoint hsome => by rw [hnone] at hsome; cases hsome
  | keeps _ hstop hset => exact hstops hstop fun endpoint hsome => hk.settled endpoint (hset endpoint hsome)

/-- **A reply that is timely** answers every call that still looks for its hub. -/
theorem Kept.reply {responder : Option String} {endpoint source : IPEndPoint} {a : Nat × Ack}
    (hk : Kept h call during) (hs : SameObjects h h') (hid : a.2.recipientId = responder)
    (hacks : h'.ackResponces = h.ackResponces ++ [a])
    (hw : searching call = true → wanted h call = responder → tries h call = some endpoint) :
    Kept h' call (during ++ [.reply responder endpoint source]) := by
  refine ⟨?_, ?_⟩
  · intro hsearch b hb hwanted
    rw [hs.wanted] at hwanted
    rw [hacks, List.mem_append, List.mem_singleton] at hb
    rcases hb with hb | rfl
    · obtain ⟨e, he, hans⟩ := hk.looking hsearch b hb hwanted
      exact ⟨e, by rw [hs.tries, he], hans.later _ (hs.wanted call)⟩
    · have hresp : wanted h call = responder := hwanted.symm.trans hid
      refine ⟨endpoint, by rw [hs.tries, hw hsearch hresp], source, ?_⟩
      rw [hs.wanted, hresp]
      exact List.mem_append_right _ (List.mem_singleton_self _)
  · intro e he
    rw [hs.settledOn] at he
    exact (hk.settled e he).later _ (hs.wanted call)

theorem listen_reply (fmt : TextFormat) (h : HubManager) (responder : Option String)
    (source : IPEndPoint) :
    h.listen fmt (.ok (some (reply h responder))) .Udp (some source) =
      keepResponse { id := h.localHubInfo.id, recipientId := responder, response := true } h := by
  rw [HubManager.listen_some, process_hubMaps]
  rfl

/-- **One step keeps the invariant**, if it is timely. -/
theorem Invariant.step {fmt : TextFormat} {ls : List Event} {e : Event} (hi : Invariant ls h)
    (ht : Timely h e) (hs : step fmt h e = some h') : Invariant (ls ++ [e]) h' := by
  cases e with
  | call t caller r =>
    rw [Reachability.step] at hs
    split at hs
    · next hlen =>
      cases hs
      have hsame : Same h (h.findReachableEndpoint caller r) :=
        ⟨⟨fun _ => rfl, fun _ => rfl⟩, fun _ ha => ha⟩
      intro t' call hc
      have hc : (h.calls ++ [⟨caller, r, .lan 0⟩])[t']? = some call := hc
      by_cases hlt : t' < h.calls.length
      · rw [List.getElem?_append_left hlt] at hc
        obtain ⟨before, caller', during, rfl, hk⟩ := hi t' call hc
        exact ⟨before, caller', during ++ [.call t caller r], by simp, hk.same hsame _⟩
      · -- the new call, and nothing is left over for it
        rw [List.getElem?_append_right (by omega), List.getElem?_singleton] at hc
        split at hc
        · next heq =>
          obtain rfl := Option.some.inj hc
          have htt : t' = t := by omega
          subst htt
          refine ⟨ls, caller, [], rfl, fun _ a ha hid => absurd hid (ht a ha), ?_⟩
          intro endpoint he
          cases he
        · cases hc
    · cases hs
  | go t =>
    rw [Reachability.step] at hs
    cases hct : h.calls[t]? with
    | none => simp [hct, HubManager.advance] at hs
    | some call =>
      have hret : ∀ e, call.pc ≠ .returned e := by
        intro e he
        simp [hct, he] at hs
      have hs : h.advance t = some h' := by
        rw [hct, Option.map_some] at hs
        split at hs
        · next e he => exact absurd (Option.some.inj he) (hret e)
        · exact hs
      obtain ⟨pc, hcalls, hsame, hmoves⟩ := advance_cases hct hret hs
      intro t' call' hc
      rw [hcalls, List.getElem?_modify] at hc
      obtain ⟨call'', hc'', rfl⟩ := Option.map_eq_some_iff.mp hc
      obtain ⟨before, caller, during, rfl, hk⟩ := hi t' call'' hc''
      by_cases htt : t = t'
      · subst htt
        obtain rfl := Option.some.inj (hct.symm.trans hc'')
        refine ⟨before, caller, during ++ [.go t], by simp, ?_⟩
        rw [if_pos rfl]
        exact hk.moves hsame hmoves (ht call hct) _
      · refine ⟨before, caller, during ++ [.go t], by simp [if_neg htt], ?_⟩
        rw [if_neg htt]
        exact hk.same hsame _
  | reply responder endpoint source =>
    rw [Reachability.step, listen_reply] at hs
    split at hs
    · cases hs
      intro t' call hc
      obtain ⟨before, caller, during, rfl, hk⟩ := hi t' call hc
      refine ⟨before, caller, during ++ [.reply responder endpoint source], by simp, ?_⟩
      exact hk.reply ⟨fun _ => rfl, fun _ => rfl⟩ rfl rfl
        (ht call (List.mem_of_getElem? hc))
    · cases hs
  | gateway connected =>
    cases hs
    intro t' call hc
    obtain ⟨before, caller, during, rfl, hk⟩ := hi t' call hc
    have hsame : Same h { h with connected := connected } :=
      ⟨⟨fun _ => rfl, fun _ => rfl⟩, fun _ ha => ha⟩
    exact ⟨before, caller, during ++ [.gateway connected], by simp, hk.same hsame _⟩

theorem invariant_fresh {h₀ : HubManager} (hf : Fresh h₀) : Invariant [] h₀ := by
  intro t call hc
  rw [hf.calls] at hc
  cases hc

/-- **Reachability is sound** in every run in which no call begins or goes on to the next address
while a response of its hub is left over, and a response comes in only while every call that still
looks for its hub tries the endpoint it answers for. -/
theorem reachable_sound (fmt : TextFormat) {h₀ : HubManager} (hf : Fresh h₀) {ls : List Event}
    {h : HubManager} (hr : Reaches (step fmt) Timely h₀ ls h) : Sound ls h := by
  have hi : Invariant ls h :=
    Reaches.inv (invariant_fresh hf) (fun ls s a s' hi ht hs => hi.step ht hs) hr
  intro t call endpoint hc hpc
  obtain ⟨before, caller, during, hls, hk⟩ := hi t call hc
  obtain ⟨source, hmem⟩ := hk.settled endpoint (by rw [settledOn, hpc])
  exact ⟨before, caller, during, source, hls, hmem⟩

/-! ### A late response -/

instance (h : HubManager) (e : Event) : Decidable (Timely h e) :=
  match e with
  | .call _ _ r =>
    inferInstanceAs (Decidable (∀ a ∈ h.ackResponces, a.2.recipientId ≠ (h.hubInfo r).id))
  | .reply responder endpoint _ =>
    inferInstanceAs (Decidable (∀ call ∈ h.calls, searching call = true →
      wanted h call = responder → tries h call = some endpoint))
  | .go t => inferInstanceAs (Decidable (∀ call ∈ h.calls[t]?, givesUp h call = true →
      ∀ a ∈ h.ackResponces, a.2.recipientId ≠ wanted h call))
  | .gateway _ => isTrue trivial

def first : IPEndPoint := ⟨⟨[192, 168, 0, 1], by decide⟩, 6000⟩
def second : IPEndPoint := ⟨⟨[192, 168, 0, 2], by decide⟩, 6000⟩

/-- A hub `a` that knows the hub `b` by two addresses. -/
def here : HubManager where
  localHubInfo := { id := some "a", internalEndpoint := some first }
  connections := ConnectionManager.empty.addConnection
    { id := some "b", internalEndpoint := some first,
      internalAddresses := [first.address, second.address] }
  ackResponces := []
  nextAck := 0
  connected := true
  writeFails := false
  tcpListen := true
  udpListen := true
  calls := []
  acts := []

theorem fresh_here : Fresh here := ⟨rfl, rfl, rfl⟩

/-- The first probe to the first address is answered when the call is about to send another. -/
def inTime : List Event :=
  [.call 0 .connectToClient 0, .go 0, .go 0, .go 0, .reply (some "b") first first, .go 0, .go 0, .go 0]

theorem reachable_sound_inTime : ∃ h, Reaches (step dottedText) Timely here inTime h ∧
    h.calls.map Call.pc = [.returned (some first)] ∧ Sound inTime h := by
  have hrun : (exec (fun s a => if Timely s a then step dottedText s a else none) here inTime).map
      (fun h => h.calls.map Call.pc) = some [.returned (some first)] := by decide
  obtain ⟨h, hexec, hpc⟩ := Option.map_eq_some_iff.mp hrun
  have hr := reaches_of_exec hexec
  exact ⟨h, hr, hpc, reachable_sound dottedText fresh_here hr⟩

/-- It is answered once the call has moved on to the second. -/
def tooLate : List Event :=
  .call 0 .connectToClient 0 :: List.replicate 10 (.go 0) ++
    [.reply (some "b") first first, .go 0, .go 0]

theorem late_reply : ¬ ∀ fmt h₀ ls h, Fresh h₀ → Run (step fmt) h₀ ls h → Sound ls h := by
  intro hall
  have hrun : (exec (step dottedText) here tooLate).map (fun h => (h.calls, (h.hubInfo 0).id)) =
      some ([⟨.connectToClient, 0, .returned (some second)⟩], some "b") := by decide
  obtain ⟨h, hexec, heq⟩ := Option.map_eq_some_iff.mp hrun
  obtain ⟨hcalls, hid⟩ := Prod.mk.inj heq
  obtain ⟨before, caller, during, source, hls, hmem⟩ :=
    hall dottedText here tooLate h fresh_here (run_of_exec hexec) 0 _ second
      (by rw [hcalls]; rfl) rfl
  -- the only reply of the run is to a probe to the first address
  have hreply : .reply (wanted h ⟨.connectToClient, 0, .returned (some second)⟩) second source ∈
      tooLate := hls ▸ List.mem_append_right _ (List.mem_cons_of_mem _ hmem)
  rw [wanted, hid] at hreply
  have hne : second ≠ first := by decide
  simp [tooLate, hne] at hreply

end Blockcore.Hub.Reachability
