import Blockcore.Hub.Reachability

/-!
# What `FindReachableEndpoint` comes to

A call of `FindReachableEndpoint` has a schedule: the internal addresses three times each,
and then the external endpoint 99 times.  It makes one attempt after another, as long as the
gateway is connected where it looks: it sends a probe, waits, and looks for a response.

`reachable_first_match` says what that comes to, whatever responses arrive and whenever the
gateway is connected: the attempts are made in the order of the schedule, each with a probe of
its own; the first after which there is a response is the one that counts, and takes that
response; and if there is none, nothing has changed.
-/

namespace Blockcore.Hub.Probing

open Lib Networking
open Reachability (probe)

/-- What happens during a call: it goes on; a response arrives; the gateway's connection
comes or goes. -/
inductive Event where
  | go
  | reply (msg : AckMessage)
  | gateway (connected : Bool)
  deriving DecidableEq

/-- One step of call `t`. What its caller does afterwards is no part of it. -/
def step (t : Nat) (h : HubManager) : Event → Option HubManager
  | .go =>
    match (h.calls[t]?).map Call.pc with
    | some (.returned _) => none
    | _ => h.advance t
  | .reply msg => some (keepResponse msg h)
  | .gateway connected => some { h with connected := connected }

/-- An endpoint, and the kind of connection it would be. -/
abbrev Target := IPEndPoint × ConnectionTypes

/-- An attempt, and if there was a response after its wait. -/
structure Attempt where
  target : Target
  found : Bool
  deriving DecidableEq

def acks (h : HubManager) : List Ack := h.ackResponces.map Prod.snd

def replies (events : List Event) : List Ack :=
  events.filterMap fun
    | .reply msg => some (Ack.ofMessage msg)
    | _ => none

def answers (id : Option String) (a : Ack) : Bool := a.recipientId == id

def polled (t : Nat) (h : HubManager) : Event → List Attempt
  | .go =>
    match h.calls[t]? with
    | none => []
    | some call =>
      let hubInfo := h.hubInfo call.hubInfo
      match call.pc, hubInfo.externalEndpoint with
      | .lanSleep _ endpoint _, _ => [⟨(endpoint, .LAN), (acks h).any (answers hubInfo.id)⟩]
      | .wanSleep _, some endpoint => [⟨(endpoint, .WAN), (acks h).any (answers hubInfo.id)⟩]
      | _, _ => []
  | _ => []

def attempts (t : Nat) (h : HubManager) (events : List Event) : List Attempt :=
  trace (step t) (polled t) h events

/-! ### The schedule -/

/-- The attempts over the internal addresses from the given one on. -/
def lanFrom (x : HubInfo) (ip : Nat) : List Target :=
  match x.internalEndpoint with
  | none => []
  | some endpoint =>
    (x.internalAddresses.drop ip).flatMap fun IP => List.replicate 3 (⟨IP, endpoint.port⟩, .LAN)

def wan (x : HubInfo) (n : Nat) : List Target :=
  match x.externalEndpoint with
  | none => []
  | some endpoint => List.replicate n (endpoint, .WAN)

def schedule (x : HubInfo) : List Target := lanFrom x 0 ++ wan x 99

/-- The attempt that is under way, and those to come. -/
def outlook (x : HubInfo) : CallPc → Option (List Target × List Target)
  | .lan ip => some ([], lanFrom x ip ++ wan x 99)
  | .lanTry ip endpoint i =>
    some ([], List.replicate (4 - i) (endpoint, .LAN) ++ lanFrom x (ip + 1) ++ wan x 99)
  | .lanSleep ip endpoint i =>
    some ([(endpoint, .LAN)], List.replicate (3 - i) (endpoint, .LAN) ++ lanFrom x (ip + 1) ++ wan x 99)
  | .wan => some ([], wan x 99)
  | .wanTry i => some ([], wan x (100 - i))
  | .wanSleep i => some (wan x 1, wan x (99 - i))
  | _ => none

theorem lanFrom_none {x : HubInfo} {ip : Nat} (h : x.internalAddresses[ip]? = none) :
    lanFrom x ip = [] := by
  rw [lanFrom]
  split
  · rfl
  · rw [List.drop_eq_nil_of_le (List.getElem?_eq_none_iff.mp h)]
    rfl

theorem lanFrom_some {x : HubInfo} {ip : Nat} {IP : IPAddress} {endpoint : IPEndPoint}
    (h : x.internalAddresses[ip]? = some IP) (hend : x.internalEndpoint = some endpoint) :
    lanFrom x ip = List.replicate 3 (⟨IP, endpoint.port⟩, .LAN) ++ lanFrom x (ip + 1) := by
  obtain ⟨hlt, hget⟩ := List.getElem?_eq_some_iff.mp h
  simp only [lanFrom, hend]
  rw [List.drop_eq_getElem_cons hlt, hget, List.flatMap_cons]

/-! ### How long it takes -/

def cost (x : HubInfo) : CallPc → Nat
  | .lan ip => 8 * (x.internalAddresses.length - ip) + 201
  | .lanTry ip _ i => 2 * (4 - i) + 1 + (8 * (x.internalAddresses.length - (ip + 1)) + 201)
  | .lanSleep ip _ i => 2 * (3 - i) + 2 + (8 * (x.internalAddresses.length - (ip + 1)) + 201)
  | .lanReceived _ _ => 1
  | .wan => 200
  | .wanTry i => 2 * (100 - i) + 1
  | .wanSleep i => 2 * (99 - i) + 2
  | .wanReceived _ => 1
  | _ => 0

/-! ### Responses -/

/-- A response is known by its number. -/
structure Identified (h : HubManager) : Prop where
  lt : ∀ a ∈ h.ackResponces, a.1 < h.nextAck
  same : ∀ a ∈ h.ackResponces, ∀ b ∈ h.ackResponces, a.1 = b.1 → a.2 = b.2

variable {h h' : HubManager}

theorem Identified.keepResponse (hi : Identified h) (msg : AckMessage) :
    Identified (keepResponse msg h) := by
  refine ⟨?_, ?_⟩
  · intro a ha
    rcases List.mem_append.mp ha with ha | ha
    · exact Nat.lt_succ_of_lt (hi.lt a ha)
    · rw [List.mem_singleton.mp ha]
      exact Nat.lt_succ_self _
  · intro a ha b hb heq
    rcases List.mem_append.mp ha with ha | ha <;> rcases List.mem_append.mp hb with hb | hb
    · exact hi.same a ha b hb heq
    · rw [List.mem_singleton.mp hb] at heq
      exact absurd heq (Nat.ne_of_lt (hi.lt a ha))
    · rw [List.mem_singleton.mp ha] at heq
      exact absurd heq.symm (Nat.ne_of_lt (hi.lt b hb))
    · rw [List.mem_singleton.mp ha, List.mem_singleton.mp hb]

theorem getAck_none {id : Option String} (hget : h.getAck id = none) :
    (acks h).any (answers id) = false := by
  rw [acks, List.any_map, List.any_eq_false]
  exact List.find?_eq_none.mp hget

theorem getAck_some {id : Option String} {a : Nat × Ack} (hget : h.getAck id = some a) :
    (acks h).any (answers id) = true := by
  rw [acks, List.any_map, List.any_eq_true]
  exact ⟨a, List.mem_of_find?_eq_some hget, List.find?_some hget⟩

/-- **Removing the response that was found** removes the first one of the hub. -/
theorem removeAck_acks (hi : Identified h) {id : Option String} {response : Nat}
    (hget : (h.getAck id).map Prod.fst = some response) :
    acks (h.removeAck response) = (acks h).eraseP (answers id) := by
  obtain ⟨a, ha, rfl⟩ := Option.map_eq_some_iff.mp hget
  obtain ⟨hid, as, bs, hl, hbefore⟩ := List.find?_eq_some_iff_append.mp ha
  have hmem : ∀ b ∈ as, b ∈ h.ackResponces := fun b hb => by simp [hl, hb]
  have hother : ∀ b ∈ as, ¬ (b.1 == a.1) = true := by
    intro b hb heq
    have hsame := hi.same b (hmem b hb) a (List.mem_of_find?_eq_some ha) (eq_of_beq heq)
    have hno := hbefore b hb
    rw [hsame, hid] at hno
    cases hno
  have hno : ∀ c ∈ as.map Prod.snd, ¬ answers id c = true := by
    intro c hc
    obtain ⟨b, hb, rfl⟩ := List.mem_map.mp hc
    simpa [answers] using hbefore b hb
  have herase : h.ackResponces.eraseP (fun b => b.1 == a.1) = as ++ bs := by
    rw [hl, List.eraseP_append_right _ hother,
      List.eraseP_cons_of_pos (p := fun b : Nat × Ack => b.1 == a.1) (beq_self_eq_true a.1)]
  have hfirst : (acks h).eraseP (answers id) = as.map Prod.snd ++ bs.map Prod.snd := by
    rw [acks, hl, List.map_append, List.map_cons, List.eraseP_append_right _ hno,
      List.eraseP_cons_of_pos (show answers id a.2 = true from hid)]
  rw [hfirst, ← List.map_append, ← herase]
  rfl

/-! ### The search -/

def Steady (h₀ : HubManager) (events : List Event) : Prop :=
  h₀.connected = true ∧ ∀ connected, .gateway connected ∈ events → connected = true

/-- The attempts made, the one under way and those to come are in the order of the
schedule, and each one begun has had its probe. -/
structure SoFar (h₀ : HubManager) (r : Ref) (steady : Prop) (tries : List Attempt)
    (cur rest : List Target) (h : HubManager) : Prop where
  sub : (tries.map Attempt.target ++ cur ++ rest).Sublist (schedule (h₀.hubInfo r))
  whole : steady → tries.map Attempt.target ++ cur ++ rest = schedule (h₀.hubInfo r)
  acts : h.acts = h₀.acts ++ (tries.map Attempt.target ++ cur).map fun target => probe h₀ target.1

variable {h₀ : HubManager} {r : Ref} {steady : Prop} {tries : List Attempt} {cur rest rest' : List Target}

theorem SoFar.skip (hs : SoFar h₀ r steady tries [] rest h) (hsub : rest'.Sublist rest)
    (hwhole : steady → rest' = rest) (hacts : h'.acts = h.acts) :
    SoFar h₀ r steady tries [] rest' h' := by
  refine ⟨(List.Sublist.append_left hsub _).trans hs.sub, fun hst => ?_, hacts.trans hs.acts⟩
  rw [hwhole hst]
  exact hs.whole hst

theorem SoFar.probe {target : Target} (hs : SoFar h₀ r steady tries [] (target :: rest) h)
    (hacts : h'.acts = h.acts ++ [Reachability.probe h₀ target.1]) :
    SoFar h₀ r steady tries [target] rest h' := by
  refine ⟨?_, fun hst => ?_, ?_⟩
  · simpa using hs.sub
  · simpa using hs.whole hst
  · rw [hacts, hs.acts]
    simp

theorem SoFar.polled {target : Target} (hs : SoFar h₀ r steady tries [target] rest h) (found : Bool)
    (hacts : h'.acts = h.acts) : SoFar h₀ r steady (tries ++ [⟨target, found⟩]) [] rest h' := by
  refine ⟨?_, fun hst => ?_, ?_⟩
  · simpa using hs.sub
  · simpa using hs.whole hst
  · rw [hacts, hs.acts]
    simp

/-- The response a call has in hand, and the endpoint it counts for. -/
def received (x : HubInfo) : CallPc → Option (Target × Nat)
  | .lanReceived endpoint response => some ((endpoint, .LAN), response)
  | .wanReceived response => x.externalEndpoint.map fun endpoint => ((endpoint, .WAN), response)
  | _ => none

/-- The call has come to the external endpoint. -/
def onWan : CallPc → Bool
  | .wanTry _ => true
  | .wanSleep _ => true
  | _ => false

/-- **Where a call is in its search**; `all` are the responses there were or have come. -/
inductive Stage (h₀ : HubManager) (r : Ref) (steady : Prop) (all : List Ack) (tries : List Attempt)
    (h : HubManager) : CallPc → Prop where
  | searching {pc : CallPc} {cur rest : List Target}
    (hpc : outlook (h₀.hubInfo r) pc = some (cur, rest))
    (hwan : onWan pc = true → (h₀.hubInfo r).externalEndpoint.isSome = true)
    (hsofar : SoFar h₀ r steady tries cur rest h) (hfailed : ∀ a ∈ tries, a.found = false)
    (hacks : acks h = all) (hinfo : h.hubInfo r = h₀.hubInfo r) : Stage h₀ r steady all tries h pc
  | received {pc : CallPc} {target : Target} {response : Nat} {front : List Attempt} {rest : List Target}
    (hpc : received (h₀.hubInfo r) pc = some (target, response))
    (htries : tries = front ++ [⟨target, true⟩])
    (hsofar : SoFar h₀ r steady tries [] rest h) (hfailed : ∀ a ∈ front, a.found = false)
    (hacks : acks h = all) (hinfo : h.hubInfo r = h₀.hubInfo r)
    (hget : (h.getAck (h₀.hubInfo r).id).map Prod.fst = some response) : Stage h₀ r steady all tries h pc
  | found {target : Target} {front : List Attempt} {rest : List Target}
    (htries : tries = front ++ [⟨target, true⟩])
    (hsofar : SoFar h₀ r steady tries [] rest h) (hfailed : ∀ a ∈ front, a.found = false)
    (hany : all.any (answers (h₀.hubInfo r).id) = true)
    (hacks : acks h = all.eraseP (answers (h₀.hubInfo r).id))
    (hinfo : h.hubInfo r = { h₀.hubInfo r with connectionType := target.2 }) :
    Stage h₀ r steady all tries h (.returned (some target.1))
  | failed (hsofar : SoFar h₀ r steady tries [] [] h) (hfailed : ∀ a ∈ tries, a.found = false)
    (hacks : acks h = all) (hinfo : h.hubInfo r = h₀.hubInfo r) :
    Stage h₀ r steady all tries h (.returned none)

theorem Stage.later {all all' : List Ack} {steady' : Prop} {pc : CallPc}
    (hs : Stage h₀ r steady all tries h pc) (new : List (Nat × Ack)) (hsteady : steady' → steady) (hacts : h'.acts = h.acts)
    (hinfo' : h'.hubInfo r = h.hubInfo r) (hnew : h'.ackResponces = h.ackResponces ++ new)
    (hall : all' = all ++ new.map Prod.snd) : Stage h₀ r steady' all' tries h' pc := by
  have hsofar' : ∀ {cur rest}, SoFar h₀ r steady tries cur rest h → SoFar h₀ r steady' tries cur rest h' :=
    fun hs => ⟨hs.sub, fun hst => hs.whole (hsteady hst), hacts.trans hs.acts⟩
  have hacks' : acks h' = acks h ++ new.map Prod.snd := by
    rw [acks, hnew, List.map_append]
    rfl
  cases hs with
  | searching hpc hwan hsofar hfailed hacks hinfo =>
    exact .searching hpc hwan (hsofar' hsofar) hfailed (by rw [hacks', hacks, hall]) (hinfo'.trans hinfo)
  | received hpc htries hsofar hfailed hacks hinfo hget =>
    refine .received hpc htries (hsofar' hsofar) hfailed (by rw [hacks', hacks, hall])
      (hinfo'.trans hinfo) ?_
    obtain ⟨a, ha, rfl⟩ := Option.map_eq_some_iff.mp hget
    have ha' : h'.getAck (h₀.hubInfo r).id = some a := by
      rw [HubManager.getAck, hnew, List.find?_append]
      exact congrArg (Option.or · _) ha
    rw [ha']
    rfl
  | found htries hsofar hfailed hany hacks hinfo =>
    refine .found htries (hsofar' hsofar) hfailed ?_ ?_ (hinfo'.trans hinfo)
    · rw [hall, List.any_append, hany, Bool.true_or]
    · obtain ⟨a, ha, hanswers⟩ := List.any_eq_true.mp hany
      rw [hacks', hacks, hall, List.eraseP_append_left hanswers _ ha]
  | failed hsofar hfailed hacks hinfo =>
    exact .failed (hsofar' hsofar) hfailed (by rw [hacks', hacks, hall]) (hinfo'.trans hinfo)

/-! ### One step -/

variable {t : Nat} {caller : Caller} {pc : CallPc} {all : List Ack}

theorem goto_call (hc : h.calls[t]? = some ⟨caller, r, pc⟩) (pc' : CallPc) :
    (h.goto t pc').calls[t]? = some ⟨caller, r, pc'⟩ := by
  simp [HubManager.goto, hc]

/-- What a step of the call leaves. -/
structure Goes (h₀ : HubManager) (t : Nat) (caller : Caller) (r : Ref) (steady : Prop) (all : List Ack)
    (tries : List Attempt) (pc : CallPc) (h h' : HubManager) : Prop where
  call : ∃ pc', h'.calls[t]? = some ⟨caller, r, pc'⟩ ∧ Stage h₀ r steady all tries h' pc' ∧
    cost (h₀.hubInfo r) pc' < cost (h₀.hubInfo r) pc
  localHubInfo : h'.localHubInfo = h.localHubInfo
  connected : h'.connected = h.connected
  identified : Identified h → Identified h'

theorem goes_goto (hc : h.calls[t]? = some ⟨caller, r, pc⟩) {pc' : CallPc}
    (hs : Stage h₀ r steady all tries (h.goto t pc') pc')
    (hcost : cost (h₀.hubInfo r) pc' < cost (h₀.hubInfo r) pc) :
    Goes h₀ t caller r steady all tries pc h (h.goto t pc') :=
  ⟨⟨pc', goto_call hc pc', hs, hcost⟩, rfl, rfl, fun hi => ⟨hi.lt, hi.same⟩⟩

/-- What is ahead of a call that looks, and has no attempt under way. -/
structure Ahead (h₀ : HubManager) (r : Ref) (steady : Prop) (all : List Ack) (tries : List Attempt)
    (h : HubManager) (rest : List Target) : Prop where
  soFar : SoFar h₀ r steady tries [] rest h
  failed : ∀ a ∈ tries, a.found = false
  acks : acks h = all
  info : h.hubInfo r = h₀.hubInfo r
  steady : steady → h.connected = true

theorem Ahead.stage (ha : Ahead h₀ r steady all tries h rest) {pc' : CallPc}
    (hpc : outlook (h₀.hubInfo r) pc' = some ([], rest'))
    (hwan : onWan pc' = true → (h₀.hubInfo r).externalEndpoint.isSome = true)
    (hsub : rest'.Sublist rest) (hwhole : steady → rest' = rest) :
    Stage h₀ r steady all tries (h.goto t pc') pc' :=
  .searching hpc hwan (ha.soFar.skip hsub hwhole rfl) ha.failed ha.acks ha.info

theorem Ahead.lan {ip : Nat} (ha : Ahead h₀ r steady all tries h (lanFrom (h₀.hubInfo r) ip ++ wan (h₀.hubInfo r) 99))
    (hc : h.calls[t]? = some ⟨caller, r, .lan ip⟩)
    (hend : (h₀.hubInfo r).internalAddresses ≠ [] → (h₀.hubInfo r).internalEndpoint.isSome = true) :
    ∃ h', h.advance t = some h' ∧ Goes h₀ t caller r steady all tries (.lan ip) h h' := by
  have hpast : (steady → lanFrom (h₀.hubInfo r) ip = []) →
      Stage h₀ r steady all tries (h.goto t .wan) .wan := by
    intro hnil
    refine ha.stage rfl (by simp [onWan]) (List.sublist_append_right ..) fun hst => ?_
    rw [hnil hst, List.nil_append]
  simp only [HubManager.advance, hc, ha.info]
  cases hIP : (h₀.hubInfo r).internalAddresses[ip]? with
  | none =>
    refine ⟨_, rfl, goes_goto hc (hpast fun _ => lanFrom_none hIP) ?_⟩
    simp only [cost]
    omega
  | some IP =>
    have hlt := (List.getElem?_eq_some_iff.mp hIP).1
    have hne : (h₀.hubInfo r).internalAddresses ≠ [] := fun hnil => by simp [hnil] at hlt
    obtain ⟨endpoint, he⟩ := Option.isSome_iff_exists.mp (hend hne)
    simp only [he]
    split
    · rw [lanFrom_some hIP he] at ha
      refine ⟨_, rfl, goes_goto hc ?_ ?_⟩
      · exact ha.stage rfl (by simp [onWan]) (List.Sublist.refl _) fun _ => rfl
      · simp only [cost]
        omega
    · next hconn =>
      refine ⟨_, rfl, goes_goto hc (hpast fun hst => absurd (ha.steady hst) hconn) ?_⟩
      simp only [cost]
      omega

theorem Ahead.probes {target : Target} {pc' : CallPc} (ha : Ahead h₀ r steady all tries h (target :: rest))
    (hlocal : h.localHubInfo = h₀.localHubInfo) (hc : h.calls[t]? = some ⟨caller, r, pc⟩)
    (hpc : outlook (h₀.hubInfo r) pc' = some ([target], rest))
    (hwan : onWan pc' = true → (h₀.hubInfo r).externalEndpoint.isSome = true)
    (hcost : cost (h₀.hubInfo r) pc' < cost (h₀.hubInfo r) pc) :
    Goes h₀ t caller r steady all tries pc h ((h.sendAck target.1).goto t pc') := by
  have hacts : ((h.sendAck target.1).goto t pc').acts = h.acts ++ [probe h₀ target.1] := by
    rw [probe, ← hlocal]
    rfl
  refine ⟨⟨pc', goto_call (h := h.sendAck target.1) hc pc', ?_, hcost⟩, rfl, rfl, fun hi => ⟨hi.lt, hi.same⟩⟩
  exact .searching hpc hwan (ha.soFar.probe hacts) ha.failed ha.acks ha.info

/-- **The loop over the attempts at an internal address.** -/
theorem Ahead.lanTry {ip i : Nat} {endpoint : IPEndPoint}
    (ha : Ahead h₀ r steady all tries h (List.replicate (4 - i) (endpoint, .LAN) ++
      lanFrom (h₀.hubInfo r) (ip + 1) ++ wan (h₀.hubInfo r) 99))
    (hlocal : h.localHubInfo = h₀.localHubInfo) (hc : h.calls[t]? = some ⟨caller, r, .lanTry ip endpoint i⟩) :
    ∃ h', h.advance t = some h' ∧ Goes h₀ t caller r steady all tries (.lanTry ip endpoint i) h h' := by
  simp only [HubManager.advance, hc]
  split
  · next hcond =>
    rw [show 4 - i = (3 - i) + 1 by omega, List.replicate_succ, List.cons_append, List.cons_append] at ha
    refine ⟨_, rfl, ha.probes hlocal hc rfl (by simp [onWan]) ?_⟩
    simp only [cost]
    omega
  · next hcond =>
    refine ⟨_, rfl, goes_goto hc (ha.stage rfl (by simp [onWan]) ?_ fun hst => ?_) ?_⟩
    · rw [List.append_assoc]
      exact List.sublist_append_right ..
    · have hlast : ¬ i < 4 := fun hlt => hcond ⟨hlt, ha.steady hst⟩
      rw [show 4 - i = 0 by omega]
      rfl
    · simp only [cost]
      omega

theorem Ahead.wan (ha : Ahead h₀ r steady all tries h (wan (h₀.hubInfo r) 99))
    (hc : h.calls[t]? = some ⟨caller, r, .wan⟩) :
    ∃ h', h.advance t = some h' ∧ Goes h₀ t caller r steady all tries .wan h h' := by
  simp only [HubManager.advance, hc, ha.info]
  split
  · next hext =>
    refine ⟨_, rfl, goes_goto hc (ha.stage rfl (fun _ => hext) (List.Sublist.refl _) fun _ => rfl) ?_⟩
    simp only [cost]
    omega
  · next hext =>
    have hnone : Probing.wan (h₀.hubInfo r) 99 = [] := by
      rw [Probing.wan]
      split
      · rfl
      · next he => simp [he] at hext
    refine ⟨_, rfl, goes_goto hc (.failed (ha.soFar.skip ?_ (fun _ => hnone.symm) rfl) ha.failed ha.acks ha.info) ?_⟩
    · exact List.nil_sublist _
    · simp only [cost]
      omega

/-- **The loop over the attempts at the external endpoint.** -/
theorem Ahead.wanTry {i : Nat} {endpoint : IPEndPoint}
    (ha : Ahead h₀ r steady all tries h (Probing.wan (h₀.hubInfo r) (100 - i)))
    (hext : (h₀.hubInfo r).externalEndpoint = some endpoint)
    (hlocal : h.localHubInfo = h₀.localHubInfo) (hc : h.calls[t]? = some ⟨caller, r, .wanTry i⟩) :
    ∃ h', h.advance t = some h' ∧ Goes h₀ t caller r steady all tries (.wanTry i) h h' := by
  have hrest : ∀ n, Probing.wan (h₀.hubInfo r) n = List.replicate n (endpoint, .WAN) := by
    intro n
    rw [Probing.wan, hext]
  simp only [HubManager.advance, hc, ha.info, hext]
  split
  · next hcond =>
    rw [show 100 - i = (99 - i) + 1 by omega, hrest, List.replicate_succ, ← hrest] at ha
    refine ⟨_, rfl, ha.probes hlocal hc ?_ (fun _ => by rw [hext]; rfl) ?_⟩
    · rw [outlook, hrest 1]
      rfl
    · simp only [cost]
      omega
  · next hcond =>
    have hnil : steady → [] = Probing.wan (h₀.hubInfo r) (100 - i) := by
      intro hst
      have hlast : ¬ i < 100 := fun hlt => hcond ⟨hlt, ha.steady hst⟩
      rw [show 100 - i = 0 by omega, hrest]
      rfl
    refine ⟨_, rfl, goes_goto hc (.failed (ha.soFar.skip (List.nil_sublist _) hnil rfl) ha.failed ha.acks ha.info) ?_⟩
    simp only [cost]
    omega

/-- **A wait is over**, and there is a response or not. -/
theorem polls {target : Target} (next : CallPc) (settle : Nat → CallPc)
    (hsofar : SoFar h₀ r steady tries [target] rest h) (hfailed : ∀ a ∈ tries, a.found = false)
    (hacks : acks h = all) (hinfo : h.hubInfo r = h₀.hubInfo r)
    (hc : h.calls[t]? = some ⟨caller, r, pc⟩)
    (hadvance : h.advance t = match h.getAck (h₀.hubInfo r).id with
      | none => some (h.goto t next)
      | some response => some (h.goto t (settle response.1)))
    (hnext : outlook (h₀.hubInfo r) next = some ([], rest))
    (hwan : onWan next = true → (h₀.hubInfo r).externalEndpoint.isSome = true)
    (hsettle : ∀ response, received (h₀.hubInfo r) (settle response) = some (target, response))
    (hcost : cost (h₀.hubInfo r) next < cost (h₀.hubInfo r) pc)
    (hcost' : ∀ response, cost (h₀.hubInfo r) (settle response) < cost (h₀.hubInfo r) pc) :
    ∃ h', h.advance t = some h' ∧ Goes h₀ t caller r steady all
      (tries ++ [⟨target, (acks h).any (answers (h₀.hubInfo r).id)⟩]) pc h h' := by
  rw [hadvance]
  cases hget : h.getAck (h₀.hubInfo r).id with
  | none =>
    rw [getAck_none hget]
    refine ⟨_, rfl, goes_goto hc (.searching hnext hwan (hsofar.polled false rfl) ?_ hacks hinfo) hcost⟩
    intro a ha
    rcases List.mem_append.mp ha with ha | ha
    · exact hfailed a ha
    · rw [List.mem_singleton.mp ha]
  | some response =>
    rw [getAck_some hget]
    refine ⟨_, rfl, goes_goto hc (.received (hsettle response.1) rfl (hsofar.polled true rfl) hfailed
      hacks hinfo ?_) (hcost' response.1)⟩
    exact congrArg (Option.map Prod.fst) hget

/-- **The response in hand is taken off the list**, and the object gets its kind. -/
theorem settles {target : Target} {response : Nat} {front : List Attempt}
    (hi : Identified h) (htries : tries = front ++ [⟨target, true⟩])
    (hsofar : SoFar h₀ r steady tries [] rest h) (hfailed : ∀ a ∈ front, a.found = false)
    (hacks : acks h = all) (hinfo : h.hubInfo r = h₀.hubInfo r)
    (hget : (h.getAck (h₀.hubInfo r).id).map Prod.fst = some response)
    (hc : h.calls[t]? = some ⟨caller, r, pc⟩) (hcost : 0 < cost (h₀.hubInfo r) pc) :
    Goes h₀ t caller r steady all tries pc h
      ((h.accept r target.2 response).goto t (.returned (some target.1))) := by
  have hstored : Identified (h.store r { h.hubInfo r with connectionType := target.2 }) := ⟨hi.lt, hi.same⟩
  have hremoved : acks ((h.accept r target.2 response).goto t (.returned (some target.1))) =
      (acks h).eraseP (answers (h₀.hubInfo r).id) := removeAck_acks hstored hget
  have hobject : (h.accept r target.2 response).hubInfo r = { h.hubInfo r with connectionType := target.2 } :=
    ConnectionManager.store_heap_self ..
  refine ⟨⟨_, goto_call (h := h.accept r target.2 response) hc _, ?_, hcost⟩, rfl, rfl, fun _ => ?_⟩
  · refine .found htries (hsofar.skip (List.Sublist.refl _) (fun _ => rfl) rfl) hfailed ?_ ?_ ?_
    · obtain ⟨a, ha, _⟩ := Option.map_eq_some_iff.mp hget
      rw [← hacks, getAck_some ha]
    · rw [hremoved, hacks]
    · exact hobject.trans (by rw [hinfo])
  · refine ⟨fun a ha => hi.lt a (List.mem_of_mem_eraseP ha), fun a ha b hb => ?_⟩
    exact hi.same a (List.mem_of_mem_eraseP ha) b (List.mem_of_mem_eraseP hb)

theorem Stage.go (hs : Stage h₀ r steady all tries h pc) (hc : h.calls[t]? = some ⟨caller, r, pc⟩)
    (hend : (h₀.hubInfo r).internalAddresses ≠ [] → (h₀.hubInfo r).internalEndpoint.isSome = true)
    (hlocal : h.localHubInfo = h₀.localHubInfo) (hi : Identified h) (hsteady : steady → h.connected = true)
    (hnot : ∀ endpoint, pc ≠ .returned endpoint) : ∃ h', step t h .go = some h' ∧
      Goes h₀ t caller r steady all (tries ++ polled t h .go) pc h h' := by
  have hstep : step t h .go = h.advance t := by
    simp only [step, hc, Option.map_some]
    split
    · next endpoint heq => exact absurd (Option.some.inj heq) (hnot endpoint)
    · rfl
  rw [hstep]
  cases hs with
  | @searching _ cur rest hpc hwan hsofar hfailed hacks hinfo =>
    cases pc with
    | lan ip =>
      cases hpc
      rw [show polled t h .go = [] by simp [polled, hc], List.append_nil]
      have ha : Ahead h₀ r steady all tries h _ := ⟨hsofar, hfailed, hacks, hinfo, hsteady⟩
      exact ha.lan hc hend
    | lanTry ip endpoint i =>
      cases hpc
      rw [show polled t h .go = [] by simp [polled, hc], List.append_nil]
      have ha : Ahead h₀ r steady all tries h _ := ⟨hsofar, hfailed, hacks, hinfo, hsteady⟩
      exact ha.lanTry hlocal hc
    | lanSleep ip endpoint i =>
      cases hpc
      rw [show polled t h .go = [⟨(endpoint, .LAN), (acks h).any (answers (h₀.hubInfo r).id)⟩] by
        simp [polled, hc, hinfo]]
      refine polls (.lanTry ip endpoint (i + 1)) (.lanReceived endpoint) hsofar hfailed
        hacks hinfo hc ?_ ?_ (by simp [onWan]) (fun _ => rfl) ?_ fun _ => ?_
      · cases hack : HubManager.getAck (h₀.hubInfo r).id h with
        | none => simp only [HubManager.advance, hc, hinfo, hack]
        | some response => simp only [HubManager.advance, hc, hinfo, hack]
      · rw [outlook, show 4 - (i + 1) = 3 - i by omega]
      · simp only [cost]
        omega
      · simp only [cost]
        omega
    | wan =>
      cases hpc
      rw [show polled t h .go = [] by simp [polled, hc], List.append_nil]
      have ha : Ahead h₀ r steady all tries h _ := ⟨hsofar, hfailed, hacks, hinfo, hsteady⟩
      exact ha.wan hc
    | wanTry i =>
      cases hpc
      rw [show polled t h .go = [] by simp [polled, hc], List.append_nil]
      have ha : Ahead h₀ r steady all tries h _ := ⟨hsofar, hfailed, hacks, hinfo, hsteady⟩
      obtain ⟨endpoint, hext⟩ := Option.isSome_iff_exists.mp (hwan rfl)
      exact ha.wanTry hext hlocal hc
    | wanSleep i =>
      cases hpc
      obtain ⟨endpoint, hext⟩ := Option.isSome_iff_exists.mp (hwan rfl)
      have hone : wan (h₀.hubInfo r) 1 = [(endpoint, .WAN)] := by
        rw [wan, hext]
        rfl
      rw [hone] at hsofar
      rw [show polled t h .go = [⟨(endpoint, .WAN), (acks h).any (answers (h₀.hubInfo r).id)⟩] by
        simp [polled, hc, hinfo, hext]]
      refine polls (.wanTry (i + 1)) .wanReceived hsofar hfailed hacks hinfo hc ?_ ?_
        (fun _ => hwan rfl) (fun response => ?_) ?_ fun _ => ?_
      · cases hack : HubManager.getAck (h₀.hubInfo r).id h with
        | none => simp only [HubManager.advance, hc, hinfo, hack]
        | some response => simp only [HubManager.advance, hc, hinfo, hack]
      · rw [outlook, show 100 - (i + 1) = 99 - i by omega]
      · rw [Probing.received, hext]
        rfl
      · simp only [cost]
        omega
      · simp only [cost]
        omega
    | _ => cases hpc
  | @received _ target response front rest hpc htries hsofar hfailed hacks hinfo hget =>
    cases pc with
    | lanReceived endpoint response' =>
      cases hpc
      rw [show polled t h .go = [] by simp [polled, hc], List.append_nil]
      refine ⟨_, ?_, settles hi htries hsofar hfailed hacks hinfo hget hc Nat.one_pos⟩
      simp only [HubManager.advance, hc]
    | wanReceived response' =>
      obtain ⟨endpoint, hext, heq⟩ := Option.map_eq_some_iff.mp hpc
      cases heq
      rw [show polled t h .go = [] by simp [polled, hc], List.append_nil]
      refine ⟨_, ?_, settles hi htries hsofar hfailed hacks hinfo hget hc Nat.one_pos⟩
      simp only [HubManager.advance, hc, hinfo, hext]
    | _ => cases hpc
  | found => exact absurd rfl (hnot _)
  | failed => exact absurd rfl (hnot _)

/-! ### A whole call -/

/-- **The invariant**: the call is at a stage, and has taken no more steps than it may. -/
structure Inv (h₀ : HubManager) (t : Nat) (caller : Caller) (r : Ref) (events : List Event)
    (h : HubManager) : Prop where
  call : ∃ pc, h.calls[t]? = some ⟨caller, r, pc⟩ ∧
    Stage h₀ r (Steady h₀ events) (acks h₀ ++ replies events) (attempts t h₀ events) h pc ∧
    events.count .go + cost (h₀.hubInfo r) pc ≤ cost (h₀.hubInfo r) (.lan 0)
  localHubInfo : h.localHubInfo = h₀.localHubInfo
  identified : Identified h
  steady : Steady h₀ events → h.connected = true

theorem inv_start (hc : h₀.calls[t]? = some ⟨caller, r, .lan 0⟩) (hi : Identified h₀) :
    Inv h₀ t caller r [] h₀ := by
  refine ⟨⟨.lan 0, hc, ?_, by simp⟩, rfl, hi, fun hst => hst.1⟩
  refine .searching rfl (by simp [onWan]) ⟨List.Sublist.refl _, fun _ => rfl, ?_⟩ (by simp [attempts, trace])
    (by simp [replies]) rfl
  simp [attempts, trace]

theorem Inv.step {events : List Event} {event : Event} (hrun : Run (step t) h₀ events h)
    (hinv : Inv h₀ t caller r events h)
    (hend : (h₀.hubInfo r).internalAddresses ≠ [] → (h₀.hubInfo r).internalEndpoint.isSome = true)
    (hs : step t h event = some h') : Inv h₀ t caller r (events ++ [event]) h' := by
  obtain ⟨⟨pc, hc, hstage, hcost⟩, hlocal, hi, hsteady⟩ := hinv
  have hsooner : Steady h₀ (events ++ [event]) → Steady h₀ events :=
    fun hst => ⟨hst.1, fun b hb => hst.2 b (List.mem_append_left _ hb)⟩
  have htries : attempts t h₀ (events ++ [event]) = attempts t h₀ events ++ polled t h event :=
    trace_concat _ hrun hs
  cases event with
  | go =>
    have hsame : Steady h₀ (events ++ [.go]) ↔ Steady h₀ events := by
      simp [Steady]
    have hreplies : replies (events ++ [.go]) = replies events := by
      simp [replies]
    have hnot : ∀ endpoint, pc ≠ .returned endpoint := by
      rintro endpoint rfl
      simp [Probing.step, hc] at hs
    obtain ⟨h'', hs', hgoes⟩ := hstage.go hc hend hlocal hi hsteady hnot
    obtain rfl : h'' = h' := Option.some.inj (hs'.symm.trans hs)
    obtain ⟨pc', hc', hstage', hless⟩ := hgoes.call
    refine ⟨⟨pc', hc', ?_, ?_⟩, hgoes.localHubInfo.trans hlocal, hgoes.identified hi, fun hst => ?_⟩
    · rw [htries, hreplies, propext hsame]
      exact hstage'
    · rw [List.count_append, List.count_singleton_self]
      omega
    · exact hgoes.connected.trans (hsteady (hsame.mp hst))
  | reply msg =>
    obtain rfl := Option.some.inj hs
    refine ⟨⟨pc, hc, ?_, ?_⟩, hlocal, hi.keepResponse msg, fun hst => hsteady (hsooner hst)⟩
    · rw [htries, show polled t h (.reply msg) = [] from rfl, List.append_nil]
      refine hstage.later [(h.nextAck, Ack.ofMessage msg)] hsooner rfl rfl rfl ?_
      simp [replies]
    · simpa [List.count_append] using hcost
  | gateway connected =>
    obtain rfl := Option.some.inj hs
    refine ⟨⟨pc, hc, ?_, ?_⟩, hlocal, ⟨hi.lt, hi.same⟩, fun hst => hst.2 connected (by simp)⟩
    · rw [htries, show polled t h (.gateway connected) = [] from rfl, List.append_nil]
      refine hstage.later [] hsooner rfl rfl (List.append_nil _).symm ?_
      simp [replies]
    · simpa [List.count_append] using hcost

theorem inv_of_run {events : List Event} (hc : h₀.calls[t]? = some ⟨caller, r, .lan 0⟩)
    (hend : (h₀.hubInfo r).internalAddresses ≠ [] → (h₀.hubInfo r).internalEndpoint.isSome = true)
    (hi : Identified h₀) (hrun : Run (step t) h₀ events h) : Inv h₀ t caller r events h := by
  unfold Run at hrun
  induction hrun with
  | start => exact inv_start hc hi
  | step hprev _ hs ih => exact ih.step hprev hend hs

/-- **`FindReachableEndpoint` is the first match over its schedule.** In every run of a call,
whatever responses come and whenever the gateway is connected:

* the call takes boundedly many steps, and goes on until it has returned;
* when it has returned, it has made attempts in the order of the schedule, all of them if the
  gateway was connected all the time and there was no response, with a probe each and nothing
  else sent;
* if there was a response after one of them, that was the last; the call returns its endpoint,
  the first response of the hub is off the list, and the object has the kind of connection;
* if there was none, the call returns nothing, and leaves list and object alone. -/
theorem reachable_first_match (h₀ : HubManager) (t : Nat) (caller : Caller) (r : Ref)
    (hc : h₀.calls[t]? = some ⟨caller, r, .lan 0⟩)
    (hend : (h₀.hubInfo r).internalAddresses ≠ [] → (h₀.hubInfo r).internalEndpoint.isSome = true)
    (hi : Identified h₀) {events : List Event} {h : HubManager} (hrun : Run (step t) h₀ events h) :
    let x := h₀.hubInfo r
    let tries := attempts t h₀ events
    events.count .go ≤ 8 * x.internalAddresses.length + 201 ∧
    ((step t h .go).isSome = true ∨ ∃ result, h.calls[t]? = some ⟨caller, r, .returned result⟩) ∧
    ∀ result, h.calls[t]? = some ⟨caller, r, .returned result⟩ →
      (tries.map Attempt.target).Sublist (schedule x) ∧
      (Steady h₀ events → tries.map Attempt.target <+: schedule x ∧
        (result = none → tries.map Attempt.target = schedule x)) ∧
      h.acts = h₀.acts ++ tries.map (fun a => probe h₀ a.target.1) ∧
      match tries.find? Attempt.found with
      | some a => result = some a.target.1 ∧ tries.getLast? = some a ∧
          acks h = (acks h₀ ++ replies events).eraseP (answers x.id) ∧
          h.hubInfo r = { x with connectionType := a.target.2 }
      | none => result = none ∧ acks h = acks h₀ ++ replies events ∧ h.hubInfo r = x := by
  obtain ⟨⟨pc, hpc, hstage, hcost⟩, hlocal, hident, hsteady⟩ := inv_of_run hc hend hi hrun
  intro x tries
  refine ⟨?_, ?_, fun result hresult => ?_⟩
  · have hbound : cost (h₀.hubInfo r) (.lan 0) = 8 * (h₀.hubInfo r).internalAddresses.length + 201 := rfl
    show events.count .go ≤ 8 * (h₀.hubInfo r).internalAddresses.length + 201
    omega
  · by_cases hreturned : ∃ result, pc = .returned result
    · obtain ⟨result, rfl⟩ := hreturned
      exact Or.inr ⟨result, hpc⟩
    · obtain ⟨h', hs, _⟩ := hstage.go hpc hend hlocal hident hsteady fun e he => hreturned ⟨e, he⟩
      exact Or.inl (by rw [hs]; rfl)
  · obtain rfl : pc = .returned result := by
      rw [hpc] at hresult
      exact congrArg Call.pc (Option.some.inj hresult)
    cases hstage with
    | searching hpc => cases hpc
    | received hpc => cases hpc
    | @found target front rest htries hsofar hfailed hany hacks hinfo =>
      have hfind : tries.find? Attempt.found = some ⟨target, true⟩ := by
        have hnone : front.find? Attempt.found = none :=
          List.find?_eq_none.mpr fun a ha => by simp [hfailed a ha]
        rw [show tries = _ from htries, List.find?_append, hnone]
        rfl
      have hsub := hsofar.sub
      rw [List.append_nil] at hsub
      refine ⟨(List.sublist_append_left ..).trans hsub, fun hst => ⟨⟨rest, ?_⟩, by simp⟩, ?_, ?_⟩
      · have hwhole := hsofar.whole hst
        rwa [List.append_nil] at hwhole
      · rw [hsofar.acts, List.append_nil, List.map_map]
        rfl
      · rw [hfind]
        refine ⟨rfl, ?_, hacks, hinfo⟩
        rw [show tries = _ from htries]
        exact List.getLast?_concat ..
    | failed hsofar hfailed hacks hinfo =>
      have hfind : tries.find? Attempt.found = none :=
        List.find?_eq_none.mpr fun a ha => by simp [hfailed a ha]
      have hsub := hsofar.sub
      rw [List.append_nil, List.append_nil] at hsub
      refine ⟨hsub, fun hst => ?_, ?_, ?_⟩
      · have hwhole := hsofar.whole hst
        rw [List.append_nil, List.append_nil] at hwhole
        exact ⟨⟨[], by rw [List.append_nil, hwhole]⟩, fun _ => hwhole⟩
      · rw [hsofar.acts, List.append_nil, List.map_map]
        rfl
      · rw [hfind]
        exact ⟨rfl, hacks, hinfo⟩

/-! ### An address that answers -/

def begun : HubManager := Reachability.here.findReachableEndpoint .connectToClient 0

/-- The first probe is sent, and there is a response when the wait is over. -/
def answered : List Event :=
  [.go, .go, .reply { recipientId := some "b", response := true }, .go, .go]

theorem reachable_first_match_answered : ∃ h, Run (step 0) begun answered h ∧
    h.calls[0]? = some ⟨.connectToClient, 0, .returned (some Reachability.first)⟩ ∧ acks h = [] ∧
    (h.hubInfo 0).connectionType = .LAN := by
  have hexec : (exec (step 0) begun answered).any (fun h =>
      h.calls[0]? == some ⟨.connectToClient, 0, .returned (some Reachability.first)⟩) = true := by
    decide
  obtain ⟨h, hs, hreturned⟩ := (Option.any_eq_true _ _).mp hexec
  rw [beq_iff_eq] at hreturned
  have hi : Identified begun := ⟨by decide, by decide⟩
  obtain ⟨_, _, hresult⟩ :=
    reachable_first_match begun 0 .connectToClient 0 rfl (fun _ => rfl) hi (run_of_exec hs)
  obtain ⟨_, _, _, hmatch⟩ := hresult _ hreturned
  have hfind : (attempts 0 begun answered).find? Attempt.found =
      some ⟨(Reachability.first, .LAN), true⟩ := by
    decide
  rw [hfind] at hmatch
  obtain ⟨_, _, hacks, hinfo⟩ := hmatch
  refine ⟨h, run_of_exec hs, hreturned, ?_, ?_⟩
  · rw [hacks]
    decide
  · rw [hinfo]

end Blockcore.Hub.Probing
