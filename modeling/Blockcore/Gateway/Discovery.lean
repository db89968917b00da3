import Blockcore.Gateway.Departure

/-!
# Peer discovery

Every hub sends its `HubInfo` in a datagram and over TCP.  The gateway passes a
hub on in two ways: to the clients that are registered when it handles one of the
hub's messages, and in datagrams to a hub that has just become complete.  The
datagrams do not go to that hub, though, but to the source of the last datagram
received.

`Announces` says when the handling of one message passes hub `j` on to hub `i`.
`discovery_iff` is the result: after all messages were handled, in any order,
every hub has been sent every other exactly when for each pair there was such a
message.

The invariant of the induction, `Known`, says that the registry holds one entry for
each hub a message of which was handled, with the client and the endpoint the
messages so far have shown.
-/

namespace Blockcore.Gateway

open Lib Networking

/-- Hubs with distinct ids, sources of datagrams and TCP clients. What a hub says
of itself has no external endpoint, and over TCP it has the local one. -/
structure Hubs (ι : Type) where
  localHubInfo : ι → HubInfo
  localEndpoint : ι → IPEndPoint
  endpoint : ι → IPEndPoint
  client : ι → TcpClient
  id_injective : ∀ i j, (localHubInfo i).id = (localHubInfo j).id → i = j
  endpoint_injective : ∀ i j, endpoint i = endpoint j → i = j
  client_injective : ∀ i j, client i = client j → i = j
  no_external : ∀ i, (localHubInfo i).externalEndpoint = none

/-- What happens: the datagram of a hub is received, and handled; the TCP message
of a hub is handled. -/
inductive HubEvent (ι : Type) where
  | receive (i : ι)
  | udp (i : ι)
  | tcp (i : ι)
  deriving DecidableEq

namespace HubEvent

variable {ι : Type}

def lastReceived (events : List (HubEvent ι)) : Option ι :=
  events.foldl (fun last e => match e with | receive i => some i | _ => last) none

def Heard (events : List (HubEvent ι)) (i : ι) : Prop := udp i ∈ events ∨ tcp i ∈ events

def Complete (events : List (HubEvent ι)) (i : ι) : Prop := udp i ∈ events ∧ tcp i ∈ events

def handles : HubEvent ι → Option ι
  | receive _ => none
  | udp i => some i
  | tcp i => some i

/-- An order in which the gateway receives and handles the messages: each once,
and the one UDP worker handles a datagram before it receives the next. -/
structure Schedule (events : List (HubEvent ι)) : Prop where
  once : events.Nodup
  all : ∀ e, e ∈ events
  worker : ∀ before i after, events = before ++ udp i :: after → lastReceived before = some i

/-- The handling of this message passes hub `j` on to hub `i`: it is a message of
`j` and the client of `i` is known; or it completes some hub, the last datagram
is from `i`, and `j` has been heard from. -/
def Announces (before : List (HubEvent ι)) (e : HubEvent ι) (i j : ι) : Prop :=
  (handles e = some j ∧ tcp i ∈ before) ∨
  (∃ k, handles e = some k ∧ Complete (before ++ [e]) k ∧ lastReceived before = some i ∧
    Heard (before ++ [e]) j)

/-- Some message passes `j` on to `i`. -/
def Announced (events : List (HubEvent ι)) (i j : ι) : Prop :=
  ∃ before e after, events = before ++ e :: after ∧ Announces before e i j

theorem announced_concat {before : List (HubEvent ι)} {e : HubEvent ι} {i j : ι} :
    Announced (before ++ [e]) i j ↔ Announced before i j ∨ Announces before e i j := by
  refine ⟨?_, ?_⟩
  · rintro ⟨as, x, bs, h, ha⟩
    rcases List.eq_nil_or_concat bs with rfl | ⟨cs, c, rfl⟩
    · obtain ⟨rfl, hx⟩ := List.append_inj' h rfl
      cases hx
      exact Or.inr ha
    · refine Or.inl ⟨as, x, cs, ?_, ha⟩
      rw [List.concat_eq_append, ← List.cons_append, ← List.append_assoc] at h
      exact (List.append_inj' h rfl).1
  · rintro (⟨as, x, bs, rfl, ha⟩ | ha)
    · exact ⟨as, x, bs ++ [e], by simp, ha⟩
    · exact ⟨before, e, [], rfl, ha⟩

theorem lastReceived_concat (before : List (HubEvent ι)) (e : HubEvent ι) :
    lastReceived (before ++ [e]) = match e with | receive i => some i | _ => lastReceived before := by
  rw [lastReceived, List.foldl_append]
  rfl

structure Orderly (events : List (HubEvent ι)) : Prop where
  once : events.Nodup
  worker : ∀ before i after, events = before ++ udp i :: after → lastReceived before = some i

theorem Schedule.orderly {events : List (HubEvent ι)} (h : Schedule events) : Orderly events :=
  ⟨h.once, h.worker⟩

theorem Orderly.init {before : List (HubEvent ι)} {e : HubEvent ι} (h : Orderly (before ++ [e])) :
    Orderly before :=
  ⟨(List.nodup_append.mp h.once).1, fun as i bs he => h.worker as i (bs ++ [e]) (by rw [he]; simp)⟩

theorem Orderly.not_mem {before : List (HubEvent ι)} {e : HubEvent ι} (h : Orderly (before ++ [e])) :
    e ∉ before := by
  intro he
  exact (List.nodup_append.mp h.once).2.2 e he e (by simp) rfl

theorem Orderly.concat {before : List (HubEvent ι)} {e : HubEvent ι} (h : Orderly before)
    (hnew : e ∉ before) (hworker : ∀ i, e = udp i → lastReceived before = some i) :
    Orderly (before ++ [e]) where
  once := by
    rw [List.nodup_append]
    refine ⟨h.once, by simp, fun a ha b hb => ?_⟩
    rw [List.mem_singleton.mp hb]
    rintro rfl
    exact hnew ha
  worker := by
    intro as i bs he
    rcases List.eq_nil_or_concat bs with rfl | ⟨cs, c, rfl⟩
    · obtain ⟨rfl, hx⟩ := List.append_inj' he rfl
      exact hworker i (List.singleton_inj.mp hx)
    · rw [List.concat_eq_append, ← List.cons_append, ← List.append_assoc] at he
      exact h.worker as i cs (List.append_inj' he rfl).1

theorem lastReceived_isSome_append {before : List (HubEvent ι)}
    (h : (lastReceived before).isSome = true) (after : List (HubEvent ι)) :
    (lastReceived (before ++ after)).isSome = true := by
  induction after using List.reverseRecOn with
  | nil => rwa [List.append_nil]
  | append_singleton after e ih =>
    rw [← List.append_assoc, lastReceived_concat]
    cases e with
    | receive i => rfl
    | udp i => exact ih
    | tcp i => exact ih

theorem lastReceived_handles {before : List (HubEvent ι)} {e : HubEvent ι} {i : ι}
    (he : handles e = some i) : lastReceived (before ++ [e]) = lastReceived before := by
  rw [lastReceived_concat]
  cases e with
  | receive j => cases he
  | udp j => rfl
  | tcp j => rfl

theorem Orderly.lastReceived_isSome {before : List (HubEvent ι)} {e : HubEvent ι} {i : ι}
    (h : Orderly (before ++ [e])) (he : handles e = some i) (hu : udp i ∈ before ++ [e]) :
    (lastReceived before).isSome = true := by
  obtain ⟨as, bs, hsplit⟩ := List.append_of_mem hu
  have hlast := lastReceived_isSome_append (by rw [h.worker as i bs hsplit]; rfl) (udp i :: bs)
  rwa [← hsplit, lastReceived_handles he] at hlast

end HubEvent

open HubEvent

/-! ### What the hubs send -/

namespace Hubs

variable {ι : Type}

def udpInfo (hubs : Hubs ι) (i : ι) : HubInfo := (hubs.localHubInfo i).simplified

/-- What a hub sends over TCP; it knows its local endpoint by then. -/
def tcpInfo (hubs : Hubs ι) (i : ι) : HubInfo :=
  { hubs.localHubInfo i with internalEndpoint := some (hubs.localEndpoint i) }

def event (fmt : TextFormat) (hubs : Hubs ι) : HubEvent ι → Event
  | .receive i => .receive (hubs.endpoint i)
  | .udp i => .udp (.ok (some ((hubs.udpInfo i).toMessage fmt)))
  | .tcp i => .tcp (hubs.client i) (.ok (some ((hubs.tcpInfo i).toMessage fmt)))

def after (fmt : TextFormat) (hubs : Hubs ι) (g : GatewayManager) (events : List (HubEvent ι)) :
    GatewayManager := run fmt g (events.map (hubs.event fmt))

theorem after_concat (fmt : TextFormat) (hubs : Hubs ι) (g : GatewayManager)
    (events : List (HubEvent ι)) (e : HubEvent ι) :
    hubs.after fmt g (events ++ [e]) = step fmt (hubs.after fmt g events) (hubs.event fmt e) := by
  rw [after, run, List.map_append, List.foldl_append]
  rfl

end Hubs

/-- Hub `i` was sent hub `j`, over its client or in a datagram to where it is. -/
def Discovered {ι : Type} (hubs : Hubs ι) (sent : List Sent) (i j : ι) : Prop :=
  ∃ m : HubInfoMessage, m.id = (hubs.localHubInfo j).id ∧
    (Sent.tcp (hubs.client i) (.info m) ∈ sent ∨ Sent.udp (hubs.endpoint i) (.info m) ∈ sent)

theorem discovered_append {ι : Type} {hubs : Hubs ι} {s t : List Sent} {i j : ι} :
    Discovered hubs (s ++ t) i j ↔ Discovered hubs s i j ∨ Discovered hubs t i j := by
  simp only [Discovered, List.mem_append]
  refine ⟨?_, ?_⟩
  · rintro ⟨m, hm, (h | h) | h | h⟩
    · exact Or.inl ⟨m, hm, Or.inl h⟩
    · exact Or.inr ⟨m, hm, Or.inl h⟩
    · exact Or.inl ⟨m, hm, Or.inr h⟩
    · exact Or.inr ⟨m, hm, Or.inr h⟩
  · rintro (⟨m, hm, h⟩ | ⟨m, hm, h⟩)
    · exact ⟨m, hm, h.imp Or.inl Or.inl⟩
    · exact ⟨m, hm, h.imp Or.inr Or.inr⟩

/-! ### What announcing one hub sends -/

section

variable {fmt : TextFormat} {protocol : ProtocolType} {hubInfo : HubInfo} {g : GatewayManager}

theorem eq_of_mem_tests {e : Sent} (h : e ∈ tests protocol hubInfo g) :
    (∃ ep text, e = .udp ep (testMessage hubInfo.name text)) ∨
      ∃ c text, e = .tcp c (testMessage hubInfo.name text) := by
  rw [tests, List.mem_append] at h
  rcases h with h | h
  · split at h
    · exact Or.inl ⟨_, _, List.mem_singleton.mp h⟩
    · cases h
  · split at h
    · obtain ⟨c, _, rfl⟩ := List.mem_map.mp h
      exact Or.inr ⟨c, _, rfl⟩
    · cases h

theorem tcp_info_mem_announced {c : TcpClient} {m : HubInfoMessage} :
    Sent.tcp c (.info m) ∈ announced fmt protocol hubInfo g ↔
      c ∈ g.liveClients g.connections ∧ m = hubInfo.toHubInfoMessage fmt := by
  have htests : Sent.tcp c (.info m) ∉ tests protocol hubInfo g := by
    intro h
    rcases eq_of_mem_tests h with ⟨_, _, he⟩ | ⟨_, _, he⟩ <;> cases he
  have hintro : Sent.tcp c (.info m) ∉ introductions fmt hubInfo g := by
    intro h
    rw [introductions] at h
    split at h
    · obtain ⟨d, _, hd⟩ := List.mem_map.mp h
      cases hd
    · cases h
  have hrest : Sent.tcp c (.info m) ∉ (if hubInfo.initialized then []
      else tests protocol hubInfo g ++ introductions fmt hubInfo g) := by
    split
    · simp
    · rw [List.mem_append]
      exact fun h => h.elim htests hintro
  rw [announced, List.mem_append, or_iff_left hrest, List.mem_map]
  refine ⟨?_, ?_⟩
  · rintro ⟨d, hd, he⟩
    cases he
    exact ⟨hd, rfl⟩
  · rintro ⟨hc, rfl⟩
    exact ⟨c, hc, rfl⟩

/-- In datagrams it is every hub, when the hub has just become complete, to the
source of the last datagram. -/
theorem udp_info_mem_announced {ep : IPEndPoint} {m : HubInfoMessage}
    (hinit : hubInfo.initialized = false) :
    Sent.udp ep (.info m) ∈ announced fmt protocol hubInfo g ↔
      complete hubInfo = true ∧ ep = g.udpEndpoint ∧
        ∃ ci ∈ g.connections, m = ci.toHubInfoMessage fmt := by
  have hcopies : Sent.udp ep (.info m) ∉
      (g.liveClients g.connections).map (Sent.tcp · (hubInfo.toMessage fmt)) := by
    intro h
    obtain ⟨d, _, hd⟩ := List.mem_map.mp h
    cases hd
  have htests : Sent.udp ep (.info m) ∉ tests protocol hubInfo g := by
    intro h
    rcases eq_of_mem_tests h with ⟨_, _, he⟩ | ⟨_, _, he⟩ <;> cases he
  rw [announced, List.mem_append, or_iff_right hcopies, hinit, if_neg (by simp), List.mem_append,
    or_iff_right htests, introductions]
  cases complete hubInfo with
  | false => simp
  | true =>
    rw [if_pos rfl, List.mem_map]
    refine ⟨?_, ?_⟩
    · rintro ⟨ci, hci, he⟩
      cases he
      exact ⟨rfl, rfl, ci, hci, rfl⟩
    · rintro ⟨_, rfl, ci, hci, rfl⟩
      exact ⟨ci, hci, rfl⟩

end

/-! ### The invariant -/

section

variable {ι : Type} {hubs : Hubs ι} {fmt : TextFormat} {before : List (HubEvent ι)} {e : HubEvent ι}
  {g : GatewayManager} {i j : ι}

/-- The entry of hub `i`: what the messages so far have shown. -/
structure IsEntry (hubs : Hubs ι) (before : List (HubEvent ι)) (i : ι) (h : HubInfo) : Prop where
  id : h.id = (hubs.localHubInfo i).id
  client : ∀ c, h.client = some c ↔ tcp i ∈ before ∧ c = hubs.client i
  endpoint : h.externalEndpoint.isSome = true ↔ udp i ∈ before
  initialized : h.initialized = true ↔ HubEvent.Complete before i

/-- The gateway holds one entry for each hub heard from. -/
structure Known (hubs : Hubs ι) (before : List (HubEvent ι)) (g : GatewayManager) : Prop where
  ids : (g.connections.map HubInfo.id).Nodup
  entries : ∀ h ∈ g.connections, ∃ i, Heard before i ∧ IsEntry hubs before i h
  heard : ∀ i, Heard before i → ∃ h ∈ g.connections, h.id = (hubs.localHubInfo i).id
  endpoint : ∀ i, lastReceived before = some i → g.udpEndpoint = hubs.endpoint i
  connected : ∀ i, g.connected (hubs.client i) = true
  writes : ∀ c, g.writeFails c = false

theorem Known.isEntry (hk : Known hubs before g) {h : HubInfo} (hh : h ∈ g.connections)
    (hid : h.id = (hubs.localHubInfo i).id) : Heard before i ∧ IsEntry hubs before i h := by
  obtain ⟨k, hheard, hentry⟩ := hk.entries h hh
  have : k = i := hubs.id_injective k i (hentry.id.symm.trans hid)
  subst this
  exact ⟨hheard, hentry⟩

theorem IsEntry.concat {h : HubInfo} (hentry : IsEntry hubs before i h) (he : handles e ≠ some i) :
    IsEntry hubs (before ++ [e]) i h := by
  have hu : udp i ∈ before ++ [e] ↔ udp i ∈ before := by
    rw [List.mem_append, List.mem_singleton, or_iff_left]
    rintro rfl
    exact he rfl
  have ht : tcp i ∈ before ++ [e] ↔ tcp i ∈ before := by
    rw [List.mem_append, List.mem_singleton, or_iff_left]
    rintro rfl
    exact he rfl
  constructor
  · exact hentry.id
  · intro c
    rw [ht]
    exact hentry.client c
  · rw [hu]
    exact hentry.endpoint
  · rw [HubEvent.Complete, hu, ht]
    exact hentry.initialized

/-- The entry as the message of the hub was entered, before it is announced. -/
structure IsEntered (hubs : Hubs ι) (events : List (HubEvent ι)) (i : ι) (h : HubInfo) : Prop where
  id : h.id = (hubs.localHubInfo i).id
  client : ∀ c, h.client = some c ↔ tcp i ∈ events ∧ c = hubs.client i
  endpoint : h.externalEndpoint.isSome = true ↔ udp i ∈ events
  initialized : h.initialized = false

theorem IsEntered.complete_iff {events : List (HubEvent ι)} {h : HubInfo}
    (hh : IsEntered hubs events i h) : complete h = true ↔ HubEvent.Complete events i := by
  rw [complete, Bool.and_eq_true, hh.endpoint, HubEvent.Complete, and_comm, Option.isSome_iff_exists]
  simp [hh.client]

theorem IsEntered.introduced {events : List (HubEvent ι)} {h : HubInfo}
    (hh : IsEntered hubs events i h) : IsEntry hubs events i (introduced h) := by
  have hiff := hh.complete_iff
  rw [Blockcore.Gateway.introduced]
  split
  · next hc => exact ⟨hh.id, hh.client, hh.endpoint, by simpa using hiff.mp hc⟩
  · next hc =>
    refine ⟨hh.id, hh.client, hh.endpoint, ?_⟩
    rw [hh.initialized, ← hiff]
    simpa using hc

/-! ### One message -/

theorem heard_concat : Heard (before ++ [e]) i ↔ Heard before i ∨ handles e = some i := by
  simp only [Heard, List.mem_append, List.mem_singleton]
  cases e with
  | receive k => simp [handles]
  | udp k =>
    simp only [handles, udp.injEq, reduceCtorEq, or_false, Option.some.injEq, eq_comm]
    exact or_right_comm
  | tcp k =>
    simp only [handles, tcp.injEq, reduceCtorEq, or_false, Option.some.injEq, eq_comm]
    exact or_assoc.symm

variable {as bs : List HubInfo} {found : Option HubInfo} {m : HubInfoMessage} {p : Parsed}

theorem Known.not_heard (hk : Known hubs before g) (hid : m.id = (hubs.localHubInfo i).id)
    (hcut : CutAt (fun x => x.id == m.id) g.connections as none bs) : ¬ Heard before i := by
  intro hheard
  obtain ⟨h, hh, hi⟩ := hk.heard i hheard
  have hl : g.connections = as := by
    have := hcut.eq
    rw [hcut.at_end rfl] at this
    simpa using this
  rw [hl] at hh
  have := hcut.not_before h hh
  simp [hi, hid] at this

theorem isEntered_udp (hk : Known hubs before g) (hnew : udp i ∉ before)
    (hid : m.id = (hubs.localHubInfo i).id)
    (hcut : CutAt (fun x => x.id == m.id) g.connections as found bs) (ep : IPEndPoint) :
    IsEntered hubs (before ++ [udp i]) i (entry p m (some ep) none found) := by
  have ht : tcp i ∈ before ++ [udp i] ↔ tcp i ∈ before := by simp
  cases found with
  | none =>
    have hnot := hk.not_heard hid hcut
    refine ⟨hid, fun c => ?_, by simp [entry, heardFrom], rfl⟩
    rw [ht]
    refine iff_of_false ?_ (fun h => hnot (Or.inr h.1))
    simp [entry, heardFrom, Parsed.create]
  | some h =>
    obtain ⟨_, hentry⟩ := hk.isEntry (h := h) (hcut.mem_of_found rfl)
      ((hcut.key_found h rfl).trans hid)
    refine ⟨hentry.id, fun c => ?_, by simp [entry, heardFrom], ?_⟩
    · rw [ht]
      exact hentry.client c
    · have : h.initialized ≠ true := fun hi => hnew (hentry.initialized.mp hi).1
      simpa [entry, heardFrom, Parsed.apply] using this

theorem isEntered_tcp (hk : Known hubs before g) (hnew : tcp i ∉ before)
    (hid : m.id = (hubs.localHubInfo i).id) (hext : p.externalEndpoint = none)
    (hcut : CutAt (fun x => x.id == m.id) g.connections as found bs) :
    IsEntered hubs (before ++ [tcp i]) i (entry p m none (some (hubs.client i)) found) := by
  have hu : udp i ∈ before ++ [tcp i] ↔ udp i ∈ before := by simp
  cases found with
  | none =>
    have hnot := hk.not_heard hid hcut
    refine ⟨hid, fun c => ?_, ?_, rfl⟩
    · simp [entry, heardFrom, eq_comm]
    · rw [hu]
      refine iff_of_false ?_ (fun h => hnot (Or.inl h))
      simp [entry, heardFrom, Parsed.create, hext]
  | some h =>
    obtain ⟨_, hentry⟩ := hk.isEntry (h := h) (hcut.mem_of_found rfl)
      ((hcut.key_found h rfl).trans hid)
    refine ⟨hentry.id, fun c => ?_, ?_, ?_⟩
    · simp [entry, heardFrom, eq_comm]
    · rw [hu, ← hentry.endpoint]
      simp [entry, heardFrom, Parsed.apply, hext]
    · have : h.initialized ≠ true := fun hi => hnew (hentry.initialized.mp hi).2
      simpa [entry, heardFrom, Parsed.apply] using this

theorem Known.other_id (hk : Known hubs before g)
    (hcut : CutAt (fun x => x.id == m.id) g.connections as found bs) {x : HubInfo}
    (hx : x ∈ as ++ bs) : x ∈ g.connections ∧ x.id ≠ m.id := by
  rcases List.mem_append.mp hx with hx | hx
  · refine ⟨by rw [hcut.eq]; simp [hx], ?_⟩
    simpa using hcut.not_before x hx
  · cases found with
    | none =>
      rw [hcut.at_end rfl] at hx
      cases hx
    | some h =>
      have hl : g.connections = as ++ h :: bs := hcut.eq
      have hids := hk.ids
      rw [hl, List.map_append, List.map_cons, List.nodup_append] at hids
      have hid : h.id = m.id := hcut.key_found h rfl
      refine ⟨by rw [hl]; simp [hx], fun he => ?_⟩
      exact (List.nodup_cons.mp hids.2.1).1 (by rw [hid, ← he]; exact List.mem_map_of_mem hx)

theorem Known.other_heard (hk : Known hubs before g) (hid : m.id = (hubs.localHubInfo i).id)
    (hcut : CutAt (fun x => x.id == m.id) g.connections as found bs) {k : ι}
    (hheard : Heard before k) (hki : k ≠ i) :
    ∃ x ∈ as ++ bs, x ∈ g.connections ∧ x.id = (hubs.localHubInfo k).id := by
  obtain ⟨x, hx, hxid⟩ := hk.heard k hheard
  have hmem := hx
  rw [hcut.eq, List.mem_append, List.mem_append] at hx
  rcases hx with hx' | hx' | hx'
  · exact ⟨x, List.mem_append_left _ hx', hmem, hxid⟩
  · -- the entry found is the hub's own
    have hxm : x.id = m.id := hcut.key_found x (Option.mem_toList.mp hx')
    exact absurd (hubs.id_injective k i (hxid.symm.trans (hxm.trans hid))) hki
  · exact ⟨x, List.mem_append_right _ hx', hmem, hxid⟩

/-- **One message**: the registry holds what the messages so far have shown. -/
theorem Known.handle (hk : Known hubs before g) (he : handles e = some i)
    (hid : m.id = (hubs.localHubInfo i).id)
    (hcut : CutAt (fun x => x.id == m.id) g.connections as found bs) {h : HubInfo}
    (hh : IsEntry hubs (before ++ [e]) i h) (hlast : lastReceived (before ++ [e]) = lastReceived before)
    (sent : List Sent) :
    Known hubs (before ++ [e]) ({ g with connections := as ++ h :: bs }.log sent) where
  ids := by
    have hself : h.id = m.id := hh.id.trans hid.symm
    have hids := hk.ids
    cases found with
    | some h' =>
      have hid' : h'.id = m.id := hcut.key_found h' rfl
      rw [hcut.eq] at hids
      simpa [hself, hid'] using hids
    | none =>
      have hbs := hcut.at_end rfl
      subst hbs
      have hl : g.connections = as := by simpa using hcut.eq
      rw [GatewayManager.log_connections, List.map_append, List.map_cons, List.map_nil,
        List.nodup_append]
      refine ⟨hl ▸ hids, by simp, ?_⟩
      intro a ha b hb
      obtain ⟨x, hx, rfl⟩ := List.mem_map.mp ha
      rw [List.mem_singleton.mp hb, hself]
      simpa using hcut.not_before x hx
  entries := by
    intro x hx
    rw [GatewayManager.log_connections, List.mem_append, List.mem_cons] at hx
    have hother : x ∈ as ++ bs → ∃ k, Heard (before ++ [e]) k ∧ IsEntry hubs (before ++ [e]) k x := by
      intro hx
      obtain ⟨hmem, hne⟩ := hk.other_id hcut hx
      obtain ⟨k, hheard, hentry⟩ := hk.entries x hmem
      refine ⟨k, heard_concat.mpr (Or.inl hheard), hentry.concat fun hek => hne ?_⟩
      rw [he] at hek
      rw [hentry.id, ← Option.some.inj hek, hid]
    rcases hx with hx | rfl | hx
    · exact hother (List.mem_append_left _ hx)
    · exact ⟨i, heard_concat.mpr (Or.inr he), hh⟩
    · exact hother (List.mem_append_right _ hx)
  heard := by
    intro k hheard
    by_cases hki : k = i
    · subst hki
      exact ⟨h, by simp, hh.id⟩
    · rw [heard_concat, he] at hheard
      obtain ⟨x, hx, _, hxid⟩ := hk.other_heard hid hcut (hheard.resolve_right fun hek =>
        hki (Option.some.inj hek).symm) hki
      refine ⟨x, ?_, hxid⟩
      rw [GatewayManager.log_connections, List.mem_append, List.mem_cons]
      exact (List.mem_append.mp hx).imp_right Or.inr
  endpoint := by
    intro k hk'
    rw [hlast] at hk'
    exact hk.endpoint k hk'
  connected := hk.connected
  writes := hk.writes

theorem Known.discovered_iff (hk : Known hubs before g) (he : handles e = some i)
    (hid : m.id = (hubs.localHubInfo i).id)
    (hcut : CutAt (fun x => x.id == m.id) g.connections as found bs) {h : HubInfo}
    (hh : IsEntered hubs (before ++ [e]) i h) (hlast : HubEvent.Complete (before ++ [e]) i →
      (lastReceived before).isSome = true) (protocol : ProtocolType) {a b : ι} (hab : a ≠ b) :
    Discovered hubs (announced fmt protocol h { g with connections := as ++ h :: bs }) a b ↔
      Announces before e a b := by
  have hother : ∀ x, x ∈ as ++ h :: bs ↔ x = h ∨ x ∈ as ++ bs := by
    intro x
    simp only [List.mem_append, List.mem_cons]
    exact or_left_comm
  refine ⟨?_, ?_⟩
  · rintro ⟨x, hx, hsent | hsent⟩
    · -- over TCP: the message is of `b`, and the client of `a` was registered before
      obtain ⟨hc, rfl⟩ := tcp_info_mem_announced.mp hsent
      have hbi : i = b := hubs.id_injective i b (hh.id.symm.trans hx)
      subst hbi
      obtain ⟨_, y, hy, hyc⟩ := GatewayManager.mem_liveClients.mp hc
      rcases (hother y).mp hy with rfl | hy
      · exact absurd (hubs.client_injective a i ((hh.client _).mp hyc).2) hab
      · obtain ⟨hmem, _⟩ := hk.other_id hcut hy
        obtain ⟨k, _, hentry⟩ := hk.entries y hmem
        obtain ⟨ht, hck⟩ := (hentry.client _).mp hyc
        rw [← hubs.client_injective a k hck] at ht
        exact Or.inl ⟨he, ht⟩
    · -- in a datagram: the hub is complete, and the last source is `a`
      obtain ⟨hcomp, hep, ci, hci, rfl⟩ := (udp_info_mem_announced hh.initialized).mp hsent
      have hcomplete := hh.complete_iff.mp hcomp
      obtain ⟨l, hl⟩ := Option.isSome_iff_exists.mp (hlast hcomplete)
      have hal : a = l := hubs.endpoint_injective a l (hep.trans (hk.endpoint l hl))
      refine Or.inr ⟨i, he, hcomplete, by rw [hal]; exact hl, heard_concat.mpr ?_⟩
      rcases (hother ci).mp hci with rfl | hci
      · exact Or.inr (by rw [he, hubs.id_injective i b (hh.id.symm.trans hx)])
      · exact Or.inl (hk.isEntry (hk.other_id hcut hci).1 hx).1
  · rintro (⟨heb, hta⟩ | ⟨k, hek, hcomplete, hl, hheard⟩)
    · have hbi : i = b := Option.some.inj (he.symm.trans heb)
      subst hbi
      obtain ⟨y, hy, hmem, hyid⟩ := hk.other_heard hid hcut (Or.inr hta) hab
      refine ⟨h.toHubInfoMessage fmt, hh.id, Or.inl (tcp_info_mem_announced.mpr ⟨?_, rfl⟩)⟩
      refine GatewayManager.mem_liveClients.mpr ⟨hk.connected a, y, (hother y).mpr (Or.inr hy), ?_⟩
      exact ((hk.isEntry hmem hyid).2.client _).mpr ⟨hta, rfl⟩
    · have hki : i = k := Option.some.inj (he.symm.trans hek)
      subst hki
      obtain ⟨ci, hci, hciid⟩ : ∃ ci ∈ as ++ h :: bs, ci.id = (hubs.localHubInfo b).id := by
        by_cases hbi : b = i
        · exact ⟨h, (hother h).mpr (Or.inl rfl), by rw [hbi]; exact hh.id⟩
        · rw [heard_concat, he] at hheard
          obtain ⟨y, hy, _, hyid⟩ := hk.other_heard hid hcut (hheard.resolve_right fun hib =>
            hbi (Option.some.inj hib).symm) hbi
          exact ⟨y, (hother y).mpr (Or.inr hy), hyid⟩
      exact ⟨ci.toHubInfoMessage fmt, hciid, Or.inr ((udp_info_mem_announced hh.initialized).mpr
        ⟨hh.complete_iff.mpr hcomplete, (hk.endpoint a hl).symm, ci, hci, rfl⟩)⟩

/-- **The handler on one message**, however its entry is found. -/
theorem Known.processInfo (hk : Known hubs before g) (he : handles e = some i)
    (hid : m.id = (hubs.localHubInfo i).id) (hp : Parses fmt m p) (protocol : ProtocolType)
    (ep : Option IPEndPoint) (cl : Option TcpClient) (hpeer : ∀ c ∈ cl, g.socket c ≠ .closed)
    (hentered : ∀ as found bs, CutAt (fun x => x.id == m.id) g.connections as found bs →
      IsEntered hubs (before ++ [e]) i (entry p m ep cl found))
    (ho : Orderly (before ++ [e])) :
    ∃ g', Blockcore.Gateway.processInfo fmt m protocol ep cl g = .done g' ∧
      Known hubs (before ++ [e]) g' ∧
      ∀ a b, a ≠ b → (Discovered hubs g'.sent a b ↔
        Discovered hubs g.sent a b ∨ Announces before e a b) := by
  obtain ⟨as, found, bs, hcut, henter, hproc⟩ := processInfo_of_parses protocol ep cl hp hpeer
  have hh := hentered as found bs hcut
  rw [hproc, henter]
  refine ⟨_, announce_alive (show _ = as ++ _ :: bs from rfl) (fun c _ => hk.writes c),
    hk.handle he hid hcut hh.introduced (lastReceived_handles he) _, ?_⟩
  intro a b hab
  rw [GatewayManager.log_sent, discovered_append]
  exact or_congr_right (hk.discovered_iff he hid hcut hh
    (fun hc => ho.lastReceived_isSome he hc.1) protocol hab)

theorem Known.step (hf : fmt.Lawful) (hk : Known hubs before g) (ho : Orderly (before ++ [e])) :
    Known hubs (before ++ [e]) (step fmt g (hubs.event fmt e)) ∧
      ∀ a b, a ≠ b → (Discovered hubs (step fmt g (hubs.event fmt e)).sent a b ↔
        Discovered hubs g.sent a b ∨ Announces before e a b) := by
  cases e with
  | receive i =>
    refine ⟨⟨hk.ids, ?_, ?_, ?_, hk.connected, hk.writes⟩, fun a b _ => ?_⟩
    · intro h hh
      obtain ⟨k, hheard, hentry⟩ := hk.entries h hh
      exact ⟨k, heard_concat.mpr (Or.inl hheard), hentry.concat (by simp [handles])⟩
    · intro k hheard
      rw [heard_concat] at hheard
      exact hk.heard k (hheard.resolve_right (by simp [handles]))
    · intro k hl
      rw [lastReceived_concat] at hl
      rw [← Option.some.inj hl]
      rfl
    · refine (or_iff_left ?_).symm
      rintro (⟨h, _⟩ | ⟨k, h, _⟩) <;> cases h
  | udp i =>
    obtain ⟨g', hproc, hknown, hdisc⟩ := hk.processInfo rfl rfl (toMessage_parses hf (hubs.udpInfo i))
      .Udp (some g.udpEndpoint) none (by simp)
      (fun as found bs hcut => isEntered_udp hk ho.not_mem rfl hcut g.udpEndpoint) ho
    have hstep : Blockcore.Gateway.step fmt g (hubs.event fmt (udp i)) = g' := by
      rw [Hubs.event, Blockcore.Gateway.step, udpRound, HubInfo.toMessage, attempt, dispatch,
        process_gatewayMaps]
      simp only [hproc, Outcome.done_handle, Outcome.state_done]
    rw [hstep]
    exact ⟨hknown, hdisc⟩
  | tcp i =>
    have hconn := hk.connected i
    have hopen := GatewayManager.open_of_connected hconn
    obtain ⟨g', hproc, hknown, hdisc⟩ := hk.processInfo rfl rfl (toMessage_parses hf (hubs.tcpInfo i))
      .Tcp none (some (hubs.client i)) hopen
      (fun as found bs hcut => isEntered_tcp hk ho.not_mem rfl (hubs.no_external i) hcut) ho
    have hstep : Blockcore.Gateway.step fmt g (hubs.event fmt (tcp i)) = g' := by
      rw [Hubs.event, Blockcore.Gateway.step, if_pos hconn, tcpRound, HubInfo.toMessage, attempt,
        dispatch, process_gatewayMaps]
      simp only [hproc, Outcome.done_handle, Outcome.state_done]
    rw [hstep]
    exact ⟨hknown, hdisc⟩

/-- **A whole run**: who was sent whom is who was announced to whom. -/
theorem known_run (hf : fmt.Lawful) (udpEndpoint : IPEndPoint) (socket : TcpClient → SocketState)
    (hsocket : ∀ i, socket (hubs.client i) = .connected) (events : List (HubEvent ι))
    (ho : Orderly events) :
    Known hubs events (hubs.after fmt (.start udpEndpoint socket) events) ∧
      ∀ a b, a ≠ b →
        (Discovered hubs (hubs.after fmt (.start udpEndpoint socket) events).sent a b ↔
          Announced events a b) := by
  induction events using List.reverseRecOn with
  | nil =>
    refine ⟨⟨List.nodup_nil, ?_, ?_, ?_, ?_, fun _ => rfl⟩, fun a b _ => iff_of_false ?_ ?_⟩
    · intro h hh
      cases hh
    · rintro i (h | h) <;> cases h
    · intro i h
      cases h
    · intro i
      exact beq_iff_eq.mpr (hsocket i)
    · rintro ⟨m, _, h | h⟩ <;> cases h
    · rintro ⟨as, e, bs, h, _⟩
      simp at h
  | append_singleton events e ih =>
    obtain ⟨hknown, hdisc⟩ := ih ho.init
    obtain ⟨hknown', hdisc'⟩ := hknown.step hf ho
    rw [Hubs.after_concat]
    refine ⟨hknown', fun a b hab => ?_⟩
    rw [hdisc' a b hab, hdisc a b hab, announced_concat]

end

/-- **Peer discovery is complete exactly when every hub was announced to every
other.** -/
theorem discovery_iff {ι : Type} (fmt : TextFormat) (hf : fmt.Lawful) (hubs : Hubs ι)
    (udpEndpoint : IPEndPoint) (socket : TcpClient → SocketState)
    (hsocket : ∀ i, socket (hubs.client i) = .connected) (events : List (HubEvent ι))
    (hs : Schedule events) :
    (∀ i j, i ≠ j →
      Discovered hubs (hubs.after fmt (.start udpEndpoint socket) events).sent i j) ↔
    (∀ i j, i ≠ j → Announced events i j) :=
  forall_congr' fun i => forall_congr' fun j => forall_congr' fun hij =>
    (known_run hf udpEndpoint socket hsocket events hs.orderly).2 i j hij

/-! ### Two hubs -/

def twoHubs : Hubs Bool where
  localHubInfo i := { id := some (if i then "b" else "a") }
  localEndpoint _ := anyEndPoint
  endpoint i := ⟨⟨[10, 0, 0, if i then 2 else 1], Or.inl rfl⟩, 5000⟩
  client i := if i then 2 else 1
  id_injective := by decide
  endpoint_injective := by decide
  client_injective := by decide
  no_external _ := rfl

/-- Both datagrams, then both TCP messages, the first hub's last. -/
def crossed : List (HubEvent Bool) :=
  [HubEvent.receive false, udp false, HubEvent.receive true, udp true, tcp true, tcp false]

theorem crossed_schedule : Schedule crossed := by
  have h : Orderly ([] ++ [HubEvent.receive false] ++ [udp false] ++ [HubEvent.receive true] ++ [udp true] ++
      [tcp true] ++ [tcp false]) := by
    have h0 : Orderly ([] : List (HubEvent Bool)) := ⟨List.nodup_nil, fun _ _ _ h => by simp at h⟩
    refine (((((h0.concat ?_ ?_).concat ?_ ?_).concat ?_ ?_).concat ?_ ?_).concat ?_ ?_).concat ?_ ?_
    all_goals decide
  refine ⟨h.once, fun e => ?_, h.worker⟩
  cases e with
  | receive i => cases i <;> decide
  | udp i => cases i <;> decide
  | tcp i => cases i <;> decide

theorem discovery_iff_crossed :
    (∀ i j, i ≠ j → Discovered twoHubs
      (twoHubs.after dottedText (.start anyEndPoint fun _ => .connected) crossed).sent i j) ↔
    (∀ i j, i ≠ j → Announced crossed i j) :=
  discovery_iff dottedText dottedText_lawful twoHubs anyEndPoint (fun _ => .connected)
    (fun _ => rfl) crossed crossed_schedule

/-- The second hub is never announced to the first: its messages came before the
first hub's client was known, and the datagrams meant for the first went to the
second. -/
theorem crossed_not_announced : ¬ Announced crossed false true := by
  show ¬ Announced ([] ++ [HubEvent.receive false] ++ [udp false] ++ [HubEvent.receive true] ++ [udp true] ++
    [tcp true] ++ [tcp false]) false true
  simp only [announced_concat]
  have h0 : ¬ Announced ([] : List (HubEvent Bool)) false true := by
    rintro ⟨as, e, bs, h, _⟩
    simp at h
  simp [h0, Announces, handles, HubEvent.Complete, lastReceived]

/-- **The first hub is not sent the second.** -/
theorem crossed_loses_peer :
    ¬ ∀ (ι : Type) (fmt : TextFormat) (hubs : Hubs ι) (udpEndpoint : IPEndPoint)
      (socket : TcpClient → SocketState) (events : List (HubEvent ι)), fmt.Lawful →
      (∀ i, socket (hubs.client i) = .connected) → Schedule events →
      ∀ i j, i ≠ j →
        Discovered hubs (hubs.after fmt (.start udpEndpoint socket) events).sent i j := by
  intro hall
  have hdisc := hall Bool dottedText twoHubs anyEndPoint (fun _ => .connected) crossed
    dottedText_lawful (fun _ => rfl) crossed_schedule false true (by decide)
  exact crossed_not_announced (((known_run dottedText_lawful anyEndPoint (fun _ => .connected)
    (fun _ => rfl) crossed crossed_schedule.orderly).2 false true (by decide)).mp hdisc)

end Blockcore.Gateway
