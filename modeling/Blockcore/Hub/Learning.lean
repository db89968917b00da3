import Blockcore.Hub.Events

/-!
# What a hub learns from acknowledgements

A peer that asks for an acknowledgement tells by its datagram where it is: at another port
of the address known, or at another address.

`Whereabouts` is what a hub knows of that, and `learn` what it adds to it; a
`HubInfo` is changed in just this way (`take_hubInfo`).  `learning` says what any number
of requests come to: the address stays, the port is the last one, and addresses are only
ever added.
-/

namespace Blockcore.Hub.Learning

open Lib Networking
open Events (published published_append)

/-! ### Whereabouts -/

/-- Where a peer is: its external endpoint, and its other addresses. -/
structure Whereabouts where
  endpoint : IPEndPoint
  addresses : List IPAddress
  deriving DecidableEq

namespace Whereabouts

def learn (w : Whereabouts) (source : IPEndPoint) : Whereabouts :=
  if w.endpoint.address = source.address then { w with endpoint := source }
  else if source.address ∈ w.addresses then w
  else { w with addresses := w.addresses ++ [source.address] }

variable {w : Whereabouts} {source : IPEndPoint}

theorem learn_port (h : w.endpoint.address = source.address) :
    w.learn source = { w with endpoint := source } := if_pos h

theorem learn_known (h : w.endpoint.address ≠ source.address) (hmem : source.address ∈ w.addresses) :
    w.learn source = w := by
  rw [learn, if_neg h, if_pos hmem]

theorem learn_new (h : w.endpoint.address ≠ source.address) (hmem : source.address ∉ w.addresses) :
    w.learn source = { w with addresses := w.addresses ++ [source.address] } := by
  rw [learn, if_neg h, if_neg hmem]

@[simp] theorem learn_address (w : Whereabouts) (source : IPEndPoint) :
    (w.learn source).endpoint.address = w.endpoint.address := by
  rw [learn]
  split
  · next h => exact h.symm
  · split <;> rfl

/-- **Hearing the same twice** adds nothing. -/
theorem learn_learn (w : Whereabouts) (source : IPEndPoint) :
    (w.learn source).learn source = w.learn source := by
  by_cases h : w.endpoint.address = source.address
  · rw [learn_port h]
    exact learn_port rfl
  · by_cases hmem : source.address ∈ w.addresses
    · rw [learn_known h hmem, learn_known h hmem]
    · rw [learn_new h hmem]
      exact learn_known h (by simp)

end Whereabouts

/-- The last port heard from at an address, or else the one known. -/
def latestPort (known : IPEndPoint) (sources : List IPEndPoint) : UInt16 :=
  ((sources.filter fun s => s.address = known.address).getLast?.getD known).port

theorem latestPort_concat (known : IPEndPoint) (sources : List IPEndPoint) (source : IPEndPoint) :
    latestPort known (sources ++ [source]) =
      if source.address = known.address then source.port else latestPort known sources := by
  rw [latestPort, List.filter_append, List.filter_singleton]
  by_cases h : source.address = known.address
  · simp [h]
  · simp [h, latestPort]

/-- **Any number of requests**: the address stays, the port is the last one, and the
addresses heard from are added, each once. -/
theorem learn_foldl (w : Whereabouts) (sources : List IPEndPoint) :
    ∃ added, sources.foldl Whereabouts.learn w =
        ⟨⟨w.endpoint.address, latestPort w.endpoint sources⟩, w.addresses ++ added⟩ ∧ added.Nodup ∧
      ∀ a, a ∈ added ↔ a ≠ w.endpoint.address ∧ a ∉ w.addresses ∧ ∃ s ∈ sources, s.address = a := by
  induction sources using List.reverseRecOn with
  | nil => exact ⟨[], by simp [latestPort], List.nodup_nil, by simp⟩
  | append_singleton sources source ih =>
    obtain ⟨added, heq, hnodup, hmem⟩ := ih
    have hheard : ∀ a, (∃ s ∈ sources ++ [source], s.address = a) ↔
        (∃ s ∈ sources, s.address = a) ∨ source.address = a := by
      simp [or_and_right, exists_or]
    rw [List.foldl_concat, heq, latestPort_concat]
    by_cases h : w.endpoint.address = source.address
    · refine ⟨added, ?_, hnodup, fun a => ?_⟩
      · rw [if_pos h.symm]
        refine (Whereabouts.learn_port (w := ⟨⟨w.endpoint.address, latestPort w.endpoint sources⟩,
          w.addresses ++ added⟩) h).trans ?_
        rw [h]
      · rw [hmem, hheard]
        refine ⟨?_, ?_⟩
        · rintro ⟨hne, hold, hs⟩
          exact ⟨hne, hold, Or.inl hs⟩
        · rintro ⟨hne, hold, hs | ha⟩
          · exact ⟨hne, hold, hs⟩
          · exact absurd (h.trans ha).symm hne
    · rw [if_neg (Ne.symm h)]
      by_cases hthere : source.address ∈ w.addresses ++ added
      · refine ⟨added, Whereabouts.learn_known (w := ⟨⟨_, _⟩, w.addresses ++ added⟩) h hthere, hnodup, fun a => ?_⟩
        rw [hmem, hheard]
        refine ⟨?_, ?_⟩
        · rintro ⟨hne, hold, hs⟩
          exact ⟨hne, hold, Or.inl hs⟩
        · rintro ⟨hne, hold, hs | rfl⟩
          · exact ⟨hne, hold, hs⟩
          · exact (hmem _).mp ((List.mem_append.mp hthere).resolve_left hold)
      · refine ⟨added ++ [source.address], ?_, ?_, fun a => ?_⟩
        · refine (Whereabouts.learn_new (w := ⟨⟨w.endpoint.address, latestPort w.endpoint sources⟩,
            w.addresses ++ added⟩) h hthere).trans ?_
          rw [List.append_assoc]
        · refine List.nodup_append.mpr ⟨hnodup, List.nodup_singleton _, fun a ha b hb => ?_⟩
          rintro rfl
          rw [List.mem_singleton.mp hb] at ha
          exact hthere (List.mem_append_right _ ha)
        · rw [List.mem_append, List.mem_singleton, hmem, hheard]
          refine ⟨?_, ?_⟩
          · rintro (⟨hne, hold, hs⟩ | rfl)
            · exact ⟨hne, hold, Or.inl hs⟩
            · exact ⟨Ne.symm h, fun hold => hthere (List.mem_append_left _ hold), Or.inr rfl⟩
          · rintro ⟨hne, hold, hs | ha⟩
            · exact Or.inl ⟨hne, hold, hs⟩
            · exact Or.inr ha.symm

/-! ### Requests -/

/-- A request for an acknowledgement, as the UDP listener takes it. -/
structure Request where
  message : AckMessage
  source : IPEndPoint
  asks : message.response = false

def datagrams (acts : List Act) : List (BaseMessage × IPEndPoint) :=
  acts.filterMap fun
    | .sendUDP message endpoint => some (message, endpoint)
    | _ => none

theorem datagrams_append (as bs : List Act) :
    datagrams (as ++ bs) = datagrams as ++ datagrams bs := List.filterMap_append

theorem quiet {told : List Act} (h : ∀ act ∈ told, (∃ message, act = .sendTCP message) ∨
    ∃ hubInfo, act = .findReachableEndpoint hubInfo) : datagrams told = [] ∧ published told = [] := by
  refine ⟨?_, ?_⟩
  · refine List.filterMap_eq_nil_iff.mpr fun act hact => ?_
    obtain ⟨message, rfl⟩ | ⟨hubInfo, rfl⟩ := h act hact <;> rfl
  · refine List.filterMap_eq_nil_iff.mpr fun act hact => ?_
    obtain ⟨message, rfl⟩ | ⟨hubInfo, rfl⟩ := h act hact <;> rfl

def whereabouts (x : HubInfo) (known : IPEndPoint) : Whereabouts := ⟨known, x.internalAddresses⟩

def located (x : HubInfo) (w : Whereabouts) : HubInfo :=
  { x with externalEndpoint := some w.endpoint, internalAddresses := w.addresses }

@[simp] theorem whereabouts_located (x : HubInfo) (w : Whereabouts) :
    whereabouts (located x w) w.endpoint = w := rfl
@[simp] theorem located_located (x : HubInfo) (w w' : Whereabouts) :
    located (located x w) w' = located x w' := rfl

theorem located_whereabouts {x : HubInfo} {known : IPEndPoint} (h : x.externalEndpoint = some known) :
    located x (whereabouts x known) = x := by
  rw [located, whereabouts, ← h]

def reply (h : HubManager) (q : Request) : BaseMessage :=
  .ack { id := q.message.id, recipientId := h.localHubInfo.id, response := true }

/-- The request names this object, whose external endpoint is known. -/
structure Names (h : HubManager) (q : Request) (r : Ref) (known : IPEndPoint) : Prop where
  connection : h.connections.getConnection q.message.id = some r
  externalEndpoint : (h.hubInfo r).externalEndpoint = some known

/-- The request names a peer that is registered and whose external endpoint is known. -/
def Answerable (h : HubManager) (q : Request) : Prop := ∃ r known, Names h q r known

/-- Where the requests that name an object came from. -/
def sources (h : HubManager) (r : Ref) (requests : List Request) : List IPEndPoint :=
  (requests.filter fun q => h.connections.getConnection q.message.id = some r).map Request.source

section

variable (fmt : TextFormat)

def take (h : HubManager) (q : Request) : HubManager :=
  h.listen fmt (.ok (some (.ack q.message))) .Udp (some q.source)

def takeAll (h : HubManager) (requests : List Request) : HubManager := requests.foldl (take fmt) h

variable {fmt} {h : HubManager} {q : Request} {r : Ref} {known : IPEndPoint}

theorem take_eq (hn : Names h q r known) : take fmt h q =
    ((learnAddress fmt r known q.source (learnPort r known q.source h)).sendMessageUDP
      (.ack { id := q.message.id, response := true,
              recipientId := (learnAddress fmt r known q.source
                (learnPort r known q.source h)).localHubInfo.id }) q.source).1 := by
  rw [take, HubManager.listen_some, process_hubMaps]
  simp only [processAck, q.asks, hn.connection, hn.externalEndpoint, Bool.false_eq_true, if_false]
  rfl

theorem mem_texts_iff (hf : fmt.Lawful) {a : IPAddress} {as : List IPAddress} :
    fmt.addressToString a ∈ as.map fmt.addressToString ↔ a ∈ as := by
  refine List.mem_map_of_injective fun a b heq => ?_
  have := congrArg fmt.addressParse heq
  rw [hf.addressParse_toString, hf.addressParse_toString] at this
  exact Option.some.inj this

theorem learnPort_same (h : HubManager) (r : Ref) {known source : IPEndPoint}
    (haddr : known.address = source.address) (hport : known.port ≠ source.port) :
    learnPort r known source h =
      (h.store r { h.hubInfo r with externalEndpoint := some source }).publishUpdated r := by
  have hsource : ({ known with port := source.port } : IPEndPoint) = source := by
    cases source
    exact congrArg (fun a => IPEndPoint.mk a _) haddr
  rw [learnPort, if_pos ⟨haddr, hport⟩, hsource]

theorem learnPort_else (h : HubManager) (r : Ref) {known source : IPEndPoint}
    (hne : known.address ≠ source.address ∨ known.port = source.port) :
    learnPort r known source h = h := by
  rw [learnPort, if_neg]
  rintro ⟨haddr, hport⟩
  exact hne.elim (absurd haddr) hport

theorem learnAddress_new (hf : fmt.Lawful) (h : HubManager) (r : Ref) {known source : IPEndPoint}
    (haddr : known.address ≠ source.address) (hnew : source.address ∉ (h.hubInfo r).internalAddresses) :
    learnAddress fmt r known source h = h.store r { h.hubInfo r with
      internalAddresses := (h.hubInfo r).internalAddresses ++ [source.address] } := by
  rw [learnAddress]
  exact if_pos ⟨haddr, fun hmem => hnew ((mem_texts_iff hf).mp hmem)⟩

theorem learnAddress_else (hf : fmt.Lawful) (h : HubManager) (r : Ref) {known source : IPEndPoint}
    (hold : known.address = source.address ∨ source.address ∈ (h.hubInfo r).internalAddresses) :
    learnAddress fmt r known source h = h := by
  rw [learnAddress]
  refine if_neg ?_
  rintro ⟨haddr, hnew⟩
  exact hold.elim haddr fun hmem => hnew ((mem_texts_iff hf).mpr hmem)

/-- **What one request does**: the object is the one with what is learnt, and there is an
event if that is another endpoint. -/
theorem learnt (hf : fmt.Lawful) (hx : (h.hubInfo r).externalEndpoint = some known)
    (source : IPEndPoint) :
    let x := located (h.hubInfo r) ((whereabouts (h.hubInfo r) known).learn source)
    let h' := learnAddress fmt r known source (learnPort r known source h)
    h'.connections = h.connections.store r x ∧ h'.localHubInfo = h.localHubInfo ∧
      ∃ told, h'.acts = h.acts ++ told ∧ datagrams told = [] ∧
        published told =
          if x.externalEndpoint = some known then [] else [.connectionUpdated x] := by
  have hself : h.connections.store r (h.hubInfo r) = h.connections := by
    rw [ConnectionManager.store, HubManager.hubInfo, Function.update_eq_self]
  intro x h'
  by_cases haddr : known.address = source.address
  · have hx' : x = { h.hubInfo r with externalEndpoint := some source } := by
      simp only [x]
      rw [Whereabouts.learn_port (by exact haddr)]
      rfl
    have hh' : h' = learnPort r known source h := learnAddress_else hf _ r (Or.inl haddr)
    by_cases hport : known.port = source.port
    · have hsame : source = known := by
        cases source
        cases known
        simp_all
      have hobj : x = h.hubInfo r := by
        rw [hx', hsame, ← hx]
      rw [hh', learnPort_else h r (Or.inr hport), hobj, hself, if_pos hx]
      exact ⟨rfl, rfl, [], by simp, rfl, rfl⟩
    · have hother : x.externalEndpoint ≠ some known := by
        rw [hx']
        intro heq
        exact hport (congrArg IPEndPoint.port (Option.some.inj heq)).symm
      rw [hh', learnPort_same h r haddr hport, if_neg hother, ← hx']
      refine ⟨HubManager.publishUpdated_connections .., HubManager.publishUpdated_localHubInfo .., ?_⟩
      obtain ⟨told, hacts, htold⟩ := (h.store r x).publishUpdated_acts r
      have hdata : (h.store r x).hubInfo r = x := ConnectionManager.store_heap_self ..
      rw [hdata] at hacts
      refine ⟨.publish (.connectionUpdated x) :: told, hacts, (quiet htold).1, ?_⟩
      exact congrArg (BaseEvent.connectionUpdated x :: ·) (quiet htold).2
  · have hport : learnPort r known source h = h := learnPort_else h r (Or.inl haddr)
    have hext : x.externalEndpoint = some known := by
      simp only [x]
      by_cases hmem : source.address ∈ (h.hubInfo r).internalAddresses
      · rw [Whereabouts.learn_known (by exact haddr) hmem]
        rfl
      · rw [Whereabouts.learn_new (by exact haddr) hmem]
        rfl
    rw [if_pos hext]
    by_cases hmem : source.address ∈ (h.hubInfo r).internalAddresses
    · have hobj : x = h.hubInfo r := by
        simp only [x]
        rw [Whereabouts.learn_known (by exact haddr) hmem, located_whereabouts hx]
      have hh' : h' = h := by
        simp only [h']
        rw [hport, learnAddress_else hf h r (Or.inr hmem)]
      rw [hh', hobj, hself]
      exact ⟨rfl, rfl, [], by simp, rfl, rfl⟩
    · have hobj : x = { h.hubInfo r with
          internalAddresses := (h.hubInfo r).internalAddresses ++ [source.address] } := by
        simp only [x]
        rw [Whereabouts.learn_new (by exact haddr) hmem]
        rw [located, whereabouts, ← hx]
      have hh' : h' = h.store r x := by
        simp only [h']
        rw [hport, learnAddress_new hf h r haddr hmem, hobj]
      rw [hh']
      exact ⟨rfl, rfl, [], by simp [HubManager.store], rfl, rfl⟩

/-- **A request** changes the object it names, and is replied to. -/
theorem take_spec (hf : fmt.Lawful) (hn : Names h q r known) :
    let x := located (h.hubInfo r) ((whereabouts (h.hubInfo r) known).learn q.source)
    (take fmt h q).connections = h.connections.store r x ∧
      (take fmt h q).localHubInfo = h.localHubInfo ∧
      ∃ told, (take fmt h q).acts = h.acts ++ told ∧ datagrams told = [(reply h q, q.source)] ∧
        published told =
          if x.externalEndpoint = some known then [] else [.connectionUpdated x] := by
  intro x
  obtain ⟨hconnections, hlocal, told, hacts, hdatagrams, hpublished⟩ :=
    learnt hf hn.externalEndpoint q.source
  rw [take_eq hn]
  refine ⟨hconnections, hlocal, told ++ [.sendUDP (reply h q) q.source], ?_, ?_, ?_⟩
  · rw [HubManager.sendMessageUDP, HubManager.log, hacts, List.append_assoc, reply, ← hlocal]
    rfl
  · rw [datagrams_append, hdatagrams]
    rfl
  · rw [published_append, hpublished]
    exact List.append_nil _

theorem take_hubInfo (hf : fmt.Lawful) (hn : Names h q r known) (r' : Ref) :
    (take fmt h q).hubInfo r' =
      if r' = r then located (h.hubInfo r) ((whereabouts (h.hubInfo r) known).learn q.source)
      else h.hubInfo r' := by
  rw [HubManager.hubInfo, (take_spec hf hn).1]
  exact Function.update_apply ..

theorem take_getConnection (hf : fmt.Lawful) (hn : Names h q r known) (id : Option String) :
    (take fmt h q).connections.getConnection id = h.connections.getConnection id := by
  have hid : (located (h.hubInfo r) ((whereabouts (h.hubInfo r) known).learn q.source)).id =
      (h.connections.heap r).id := rfl
  rw [(take_spec hf hn).1, ConnectionManager.getConnection, ConnectionManager.store_connections]
  refine congrArg (fun p => h.connections.connections.find? p) (funext fun r' => ?_)
  exact congrArg (· == id) (ConnectionManager.store_heap_field HubInfo.id hid r')

/-! ### Any number of requests -/

theorem sources_concat (h : HubManager) (r : Ref) (requests : List Request) (q : Request) :
    sources h r (requests ++ [q]) = sources h r requests ++
      if h.connections.getConnection q.message.id = some r then [q.source] else [] := by
  rw [sources, List.filter_append, List.map_append, List.filter_singleton]
  split
  · next hr => rw [decide_eq_true hr]; rfl
  · next hr => rw [decide_eq_false hr]; rfl

/-- **A run**: every object is where the requests that name it have it. -/
theorem takeAll_spec (hf : fmt.Lawful) (h : HubManager) (requests : List Request)
    (hq : ∀ q ∈ requests, Answerable h q) :
    (takeAll fmt h requests).localHubInfo = h.localHubInfo ∧
    (∀ id, (takeAll fmt h requests).connections.getConnection id = h.connections.getConnection id) ∧
    ∀ r known, (h.hubInfo r).externalEndpoint = some known →
      (takeAll fmt h requests).hubInfo r = located (h.hubInfo r)
        ((sources h r requests).foldl Whereabouts.learn (whereabouts (h.hubInfo r) known)) := by
  induction requests using List.reverseRecOn with
  | nil => exact ⟨rfl, fun id => rfl, fun r known hx => (located_whereabouts hx).symm⟩
  | append_singleton requests q ih =>
    obtain ⟨hlocal, hget, hinfo⟩ := ih fun q hmem => hq q (List.mem_append_left _ hmem)
    obtain ⟨r, known, hn⟩ := hq q (List.mem_append_right _ (List.mem_singleton_self q))
    have hobj := hinfo r known hn.externalEndpoint
    have hn' : Names (takeAll fmt h requests) q r _ :=
      ⟨(hget _).trans hn.connection, congrArg HubInfo.externalEndpoint hobj⟩
    rw [takeAll, List.foldl_concat, ← takeAll]
    refine ⟨(take_spec hf hn').2.1.trans hlocal,
      fun id => (take_getConnection hf hn' id).trans (hget id), fun r' known' hx => ?_⟩
    rw [take_hubInfo hf hn' r', sources_concat]
    by_cases hr : r' = r
    · subst hr
      rw [if_pos rfl, if_pos hn.connection, List.foldl_concat, hobj]
      obtain rfl : known = known' := Option.some.inj (hn.externalEndpoint.symm.trans hx)
      rfl
    · have hother : h.connections.getConnection q.message.id ≠ some r' := by
        rw [hn.connection]
        exact fun heq => hr (Option.some.inj heq).symm
      rw [if_neg hr, if_neg hother, List.append_nil]
      exact hinfo r' known' hx

theorem Names.later (hf : fmt.Lawful) {done : List Request} (hdone : ∀ q ∈ done, Answerable h q)
    (hn : Names h q r known) : ∃ known', Names (takeAll fmt h done) q r known' := by
  obtain ⟨_, hget, hinfo⟩ := takeAll_spec hf h done hdone
  exact ⟨_, (hget _).trans hn.connection,
    congrArg HubInfo.externalEndpoint (hinfo r known hn.externalEndpoint)⟩

/-- **Endpoint learning is monotone and idempotent.** Requests for acknowledgements, from
anywhere, that name registered peers whose external endpoint is known:

* the address of a peer's external endpoint stays, its port is the last one heard from at
  that address; behind the other addresses come those heard from that are new, each once;
* a request publishes that the peer was updated just if its external endpoint is another
  one afterwards, and nothing else, and the one datagram it sends is the reply to where it
  came from;
* a request that comes twice in a row leaves the peer as if it had come once. -/
theorem learning (hf : fmt.Lawful) (h : HubManager) (requests : List Request)
    (hq : ∀ q ∈ requests, Answerable h q) :
    (∀ r known, (h.hubInfo r).externalEndpoint = some known →
      ∃ added, (takeAll fmt h requests).hubInfo r = { h.hubInfo r with
          externalEndpoint := some ⟨known.address, latestPort known (sources h r requests)⟩
          internalAddresses := (h.hubInfo r).internalAddresses ++ added } ∧ added.Nodup ∧
        ∀ a, a ∈ added ↔ a ≠ known.address ∧ a ∉ (h.hubInfo r).internalAddresses ∧
          ∃ s ∈ sources h r requests, s.address = a) ∧
    ∀ done q, done ++ [q] <+: requests →
      let h₁ := takeAll fmt h done
      let h₂ := takeAll fmt h (done ++ [q])
      (∃ r told, h.connections.getConnection q.message.id = some r ∧ h₂.acts = h₁.acts ++ told ∧
        published told = (if (h₂.hubInfo r).externalEndpoint = (h₁.hubInfo r).externalEndpoint
          then [] else [.connectionUpdated (h₂.hubInfo r)]) ∧
        datagrams told = [(reply h q, q.source)]) ∧
      ∀ r, (take fmt h₂ q).hubInfo r = h₂.hubInfo r := by
  refine ⟨?_, ?_⟩
  · intro r known hx
    obtain ⟨added, heq, hadded⟩ := learn_foldl (whereabouts (h.hubInfo r) known) (sources h r requests)
    refine ⟨added, ?_, hadded⟩
    rw [(takeAll_spec hf h requests hq).2.2 r known hx, heq]
    rfl
  · intro done q hpre h₁ h₂
    have hdone : ∀ q ∈ done, Answerable h q := fun q hmem =>
      hq q (hpre.subset (List.mem_append_left _ hmem))
    obtain ⟨r, known, hn⟩ := hq q (hpre.subset (List.mem_append_right _ (List.mem_singleton_self q)))
    obtain ⟨known', hn₁⟩ := hn.later hf hdone
    have h₂_eq : h₂ = take fmt h₁ q := List.foldl_concat ..
    have hobj : h₂.hubInfo r =
        located (h₁.hubInfo r) ((whereabouts (h₁.hubInfo r) known').learn q.source) := by
      rw [h₂_eq, take_hubInfo hf hn₁, if_pos rfl]
    refine ⟨?_, ?_⟩
    · obtain ⟨_, _, told, hacts, hdatagrams, hpublished⟩ := take_spec hf hn₁
      refine ⟨r, told, hn.connection, by rw [h₂_eq, hacts], ?_, ?_⟩
      · rw [hpublished, ← hobj, hn₁.externalEndpoint]
      · rw [hdatagrams, reply, reply, (takeAll_spec hf h done hdone).1]
    · intro r'
      have hn₂ : Names h₂ q r _ :=
        ⟨by rw [h₂_eq, take_getConnection hf hn₁, hn₁.connection],
          congrArg HubInfo.externalEndpoint hobj⟩
      rw [take_hubInfo hf hn₂]
      split
      · next hr =>
        rw [hr, hobj, whereabouts_located, Whereabouts.learn_learn, located_located]
      · rfl

end

/-! ### Two requests of one peer -/

def home : IPAddress := ⟨[10, 0, 1, 1], Or.inl rfl⟩

def away : IPAddress := ⟨[10, 0, 2, 1], Or.inl rfl⟩

def peer : HubInfo := { id := some "b", externalEndpoint := some ⟨home, 10⟩ }

/-- The hub `a`, which knows `b`. -/
def acquainted : HubManager where
  localHubInfo := { id := some "a" }
  connections := ConnectionManager.empty.addConnection peer
  ackResponces := []
  nextAck := 0
  connected := true
  writeFails := false
  tcpListen := true
  udpListen := true
  calls := []
  acts := []

def moved : Request := ⟨{ id := some "b" }, ⟨home, 20⟩, rfl⟩

def travelled : Request := ⟨{ id := some "b" }, ⟨away, 30⟩, rfl⟩

theorem names_moved : Names acquainted moved 0 ⟨home, 10⟩ := ⟨rfl, rfl⟩

theorem names_travelled : Names acquainted travelled 0 ⟨home, 10⟩ := ⟨rfl, rfl⟩

theorem learning_moved_travelled : ∃ added,
    (takeAll dottedText acquainted [moved, travelled]).hubInfo 0 =
      { peer with externalEndpoint := some ⟨home, 20⟩, internalAddresses := added } ∧
      ∀ a, a ∈ added ↔ a = away := by
  have hq : ∀ q ∈ [moved, travelled], Answerable acquainted q := by
    intro q hmem
    simp only [List.mem_cons, List.not_mem_nil, or_false] at hmem
    obtain rfl | rfl := hmem
    · exact ⟨0, _, names_moved⟩
    · exact ⟨0, _, names_travelled⟩
  obtain ⟨added, heq, _, hmem⟩ := (learning dottedText_lawful acquainted _ hq).1 0 ⟨home, 10⟩ rfl
  have hsources : sources acquainted 0 [moved, travelled] = [⟨home, 20⟩, ⟨away, 30⟩] := by decide
  rw [hsources] at heq hmem
  refine ⟨added, heq, fun a => ?_⟩
  rw [hmem]
  refine ⟨?_, ?_⟩
  · rintro ⟨hne, _, s, hs, rfl⟩
    simp only [List.mem_cons, List.not_mem_nil, or_false] at hs
    obtain rfl | rfl := hs
    · exact absurd rfl hne
    · rfl
  · rintro rfl
    exact ⟨by decide, by decide, ⟨away, 30⟩, by simp, rfl⟩

end Blockcore.Hub.Learning
