import Blockcore.Gateway.Registration
import Blockcore.Lib.Runs

/-!
# A session is initialized once

`Initialized` says that a hub was sent the list of all hubs, so a hub that comes
back over another client has to be sent it again.  Between two sessions the entry
is dropped by `Disconnect` and the flag with it.  But a hub may be back before its
old client is found out: then its entry gets the new client and keeps the flag.

`initialized_per_session` is about the runs in which no hub does that.  A message that is
handled is one turn of a run, and so is a `Disconnect`.
`turn_follows` is the step: an entry after it is one from before, or is not
initialized, or has just been sent the list.
-/

namespace Blockcore.Gateway

open Lib Networking

/-- What happens: an event at the gateway, or the network takes sockets down. -/
inductive Turn where
  | event (e : Event)
  | network (socket : TcpClient → SocketState) (writeFails : TcpClient → Bool)

/-- The hub's message of a turn, with the client it came over. -/
inductive Brings : Turn → Option TcpClient → HubInfoMessage → Prop where
  | udp (m : HubInfoMessage) : Brings (.event (.udp (.ok (some (.info m))))) none m
  | tcp (c : TcpClient) (m : HubInfoMessage) :
      Brings (.event (.tcp c (.ok (some (.info m))))) (some c) m

/-- The entry of this id is there, and has this client. -/
def Under (g : GatewayManager) (id : Option String) (client : Option TcpClient) : Prop :=
  (∃ x ∈ g.connections, x.id = id) ∧ ∀ x ∈ g.connections, x.id = id → x.client = client

section

variable (fmt : TextFormat)

def turn (g : GatewayManager) : Turn → GatewayManager
  | .event e => step fmt g e
  | .network socket writeFails => { g with socket := socket, writeFails := writeFails }

def turns (g : GatewayManager) (ts : List Turn) : GatewayManager := ts.foldl (turn fmt) g

/-- The turn handles a message of this hub and issues the list of all hubs. -/
def Issues (g : GatewayManager) (t : Turn) (id : Option String) : Prop :=
  (∃ client m, Brings t client m ∧ m.id = id) ∧
    ((turn fmt g t).sent.drop g.sent.length).filter isPeerInfo =
      peerList fmt g.udpEndpoint (turn fmt g t).connections

/-- The entry has both its channels, and since it was last sent the list its
client is the one it has now. -/
structure HasSession (g₀ : GatewayManager) (ts : List Turn) (x : HubInfo) : Prop where
  client : x.client.isSome = true
  externalEndpoint : x.externalEndpoint.isSome = true
  issued : ∃ before t during, ts = before ++ t :: during ∧ Issues fmt (turns fmt g₀ before) t x.id ∧
    ∀ mid, mid <+: during → Under (turns fmt g₀ (before ++ t :: mid)) x.id x.client

/-- The turn does not register a hub that is initialized over another client. -/
def KeepsSession (g : GatewayManager) (t : Turn) : Prop :=
  ∀ c m, t = .event (.tcp c (.ok (some (.info m)))) → g.connected c = true →
    (∃ p, Parses fmt m p) →
    ∀ x ∈ g.connections, x.id = m.id → x.initialized = true → x.client = some c

end

section

variable {fmt : TextFormat} {g : GatewayManager}

/-! ### One message -/

/-- What an entry is after a message was handled: one from before; or not
initialized; or the sender's, which was sent the list. -/
inductive Follows (fmt : TextFormat) (g : GatewayManager) (m : HubInfoMessage)
    (o : Outcome Exception GatewayManager) (x' : HubInfo) : Prop where
  | carried (x : HubInfo) : x ∈ g.connections → Carried x x' → Follows fmt g m o x'
  | fresh : x'.initialized = false → Follows fmt g m o x'
  | issued (g' : GatewayManager) : o = .done g' → x'.id = m.id → complete x' = true →
      (g'.sent.drop g.sent.length).filter isPeerInfo = peerList fmt g.udpEndpoint g'.connections →
      Follows fmt g m o x'

section

variable {p : Parsed} {m : HubInfoMessage} {endpoint : Option IPEndPoint} {client : Option TcpClient}
  {found : Option HubInfo}

variable (p m endpoint) in
theorem entry_follows (hkeep : ∀ x ∈ found, x.initialized = true → client = none ∨ x.client = client) :
    (∃ x ∈ found, Carried x (entry p m endpoint client found)) ∨
      (entry p m endpoint client found).initialized = false := by
  cases found with
  | none => exact Or.inr rfl
  | some x =>
    cases hi : x.initialized with
    | false => exact Or.inr hi
    | true =>
      refine Or.inl ⟨x, rfl, rfl, ?_, rfl, fun he => ?_⟩
      · show (client <|> x.client) = x.client
        rcases hkeep x rfl hi with h | h
        · rw [h]
          rfl
        · rw [h]
          cases client <;> rfl
      · exact isSome_orElse endpoint (isSome_orElse p.externalEndpoint he)

end

/-- **Announcing a hub** leaves its entry as it is, or completes it and sends the list. -/
theorem announce_follows {protocol : ProtocolType} {hubInfo : HubInfo} {as bs : List HubInfo}
    (hg : g.connections = as ++ hubInfo :: bs) {x' : HubInfo}
    (hx : x' ∈ (announce fmt protocol hubInfo as.length g).state.connections) :
    x' ∈ g.connections ∨ x' = introduced hubInfo ∧ hubInfo.initialized = false ∧
      complete hubInfo = true ∧ ∃ g', announce fmt protocol hubInfo as.length g = .done g' ∧
        (g'.sent.drop g.sent.length).filter isPeerInfo = peerList fmt g.udpEndpoint g'.connections := by
  by_cases hw : ∃ c ∈ g.liveClients g.connections, g.writeFails c = true
  · rw [announce_dead hw] at hx
    exact Or.inl hx
  · push Not at hw
    have halive : ∀ c ∈ g.liveClients g.connections, g.writeFails c = false :=
      fun c hc => by simpa using hw c hc
    rw [announce_alive hg halive] at hx ⊢
    by_cases hsame : introduced hubInfo = hubInfo
    · rw [hsame, ← hg] at hx
      exact Or.inl hx
    · have hcomplete : complete hubInfo = true := by
        by_contra hnot
        exact hsame (if_neg hnot)
      have hinit : hubInfo.initialized = false := by
        rw [← Bool.not_eq_true]
        exact fun h => hsame (introduced_of_initialized h)
      simp only [Outcome.state_done, GatewayManager.log_connections, List.mem_append,
        List.mem_cons] at hx
      rcases hx with hx | hx | hx
      · exact Or.inl (by simp [hg, hx])
      · refine Or.inr ⟨hx, hinit, hcomplete, _, rfl, ?_⟩
        rw [GatewayManager.log_sent, List.drop_left, filter_announced, hinit, introductions, hcomplete,
          introduced, hcomplete]
        simp [peerList, hg, HubInfo.toMessage, HubInfo.toHubInfoMessage]
      · exact Or.inl (by simp [hg, hx])

variable (fmt) in
theorem processInfo_follows (m : HubInfoMessage) (protocol : ProtocolType)
    (endpoint : Option IPEndPoint) (client : Option TcpClient)
    (hpeer : ∀ c ∈ client, g.socket c ≠ .closed)
    (hkeep : ∀ p, Parses fmt m p → ∀ x ∈ g.connections, x.id = m.id → x.initialized = true →
      client = none ∨ x.client = client)
    (hnodup : (g.connections.map HubInfo.id).Nodup) :
    ((processInfo fmt m protocol endpoint client g).state.connections.map HubInfo.id).Nodup ∧
      ∀ x' ∈ (processInfo fmt m protocol endpoint client g).state.connections,
        Follows fmt g m (processInfo fmt m protocol endpoint client g) x' := by
  by_cases hp : ∃ p, Parses fmt m p
  · obtain ⟨p, hparse⟩ := hp
    obtain ⟨as, found, bs, hcut, henter, hproc⟩ := processInfo_of_parses protocol endpoint client
      (g := g) hparse hpeer
    rw [henter] at hproc
    have hfound : ∀ x ∈ found, x.id = m.id := hcut.key_found
    have hid : (entry p m endpoint client found).id = m.id := entry_id hfound
    rw [hproc]
    refine ⟨?_, ?_⟩
    · rw [announce_map HubInfo.id (fun _ _ => rfl) rfl]
      exact hcut.nodup hid hnodup
    · intro x' hx'
      rcases announce_follows rfl hx' with h | ⟨rfl, _, hcomplete, g', hg', hsent⟩
      · rcases List.mem_append.mp h with h | h
        · exact .carried x' (hcut.mem_of_before h) (.refl x')
        · rcases List.mem_cons.mp h with rfl | h
          · have hkeep' := fun x hx => hkeep p hparse x (hcut.mem_of_found hx) (hfound x hx)
            rcases entry_follows p m endpoint hkeep' with ⟨x, hx, hc⟩ | hfresh
            · exact .carried x (hcut.mem_of_found hx) hc
            · exact .fresh hfresh
          · exact .carried x' (hcut.mem_of_after h) (.refl x')
      · refine .issued g' hg' ?_ ?_ hsent
        · rw [introduced, if_pos hcomplete]
          exact hid
        · rw [introduced, if_pos hcomplete]
          exact hcomplete
  · obtain ⟨e, l, hproc, hl⟩ := processInfo_refused protocol endpoint client (g := g) hp
    rw [hproc, Outcome.state_thrown]
    refine ⟨?_, ?_⟩
    · rwa [map_eq_of_carried (fun _ _ h => h.id) hl]
    · intro x' hx'
      change x' ∈ l at hx'
      obtain ⟨x, hx, hcarried⟩ := exists_of_forall₂ hl hx'
      exact .carried x hx hcarried

/-! ### One turn -/

/-- An entry after a turn: one from before; or not initialized; or just sent the list. -/
def FollowsTurn (fmt : TextFormat) (g : GatewayManager) (t : Turn) (x' : HubInfo) : Prop :=
  (∃ x ∈ g.connections, Carried x x') ∨ x'.initialized = false ∨
    complete x' = true ∧ Issues fmt g t x'.id

theorem Follows.turn {t : Turn} {client : Option TcpClient} {m : HubInfoMessage}
    {o : Outcome Exception GatewayManager} {x' : HubInfo} (hb : Brings t client m)
    (hdone : ∀ g', o = .done g' → turn fmt g t = g') (hx : Follows fmt g m o x') :
    FollowsTurn fmt g t x' := by
  cases hx with
  | carried x hx hc => exact Or.inl ⟨x, hx, hc⟩
  | fresh h => exact Or.inr (Or.inl h)
  | issued g' hg' hid hcomplete hsent =>
    refine Or.inr (Or.inr ⟨hcomplete, ⟨client, m, hb, hid.symm⟩, ?_⟩)
    rwa [hdone g' hg']

theorem followsTurn_of_sublist {t : Turn} (hnodup : (g.connections.map HubInfo.id).Nodup)
    {l : List HubInfo} (hl : l.Sublist g.connections) :
    (l.map HubInfo.id).Nodup ∧ ∀ x' ∈ l, FollowsTurn fmt g t x' :=
  ⟨(hl.map _).nodup hnodup, fun x' hx => Or.inl ⟨x', hl.subset hx, .refl x'⟩⟩

theorem udp_follows {message : Except Exception (Option BaseMessage)}
    (hnodup : (g.connections.map HubInfo.id).Nodup) :
    ((turn fmt g (.event (.udp message))).connections.map HubInfo.id).Nodup ∧
      ∀ x' ∈ (turn fmt g (.event (.udp message))).connections,
        FollowsTurn fmt g (.event (.udp message)) x' := by
  have hturn : turn fmt g (.event (.udp message)) =
      (attempt fmt message .Udp (some g.udpEndpoint) none g).state := step_udp ..
  rw [hturn]
  by_cases hinfo : ∃ m, message = .ok (some (.info m))
  · obtain ⟨m, rfl⟩ := hinfo
    rw [attempt_info] at hturn ⊢
    obtain ⟨hn, hf⟩ := processInfo_follows fmt m .Udp (some g.udpEndpoint) none (g := g)
      (by simp) (fun _ _ _ _ _ _ => Or.inl rfl) hnodup
    refine ⟨hn, fun x' hx' => (hf x' hx').turn (.udp m) fun g' hg' => ?_⟩
    rw [hturn, hg', Outcome.state_done]
  · rw [attempt_connections fmt hinfo]
    exact followsTurn_of_sublist hnodup (.refl _)

theorem tcp_follows {c : TcpClient} {message : Except Exception (Option BaseMessage)}
    (hkeep : KeepsSession fmt g (.event (.tcp c message)))
    (hnodup : (g.connections.map HubInfo.id).Nodup) :
    ((turn fmt g (.event (.tcp c message))).connections.map HubInfo.id).Nodup ∧
      ∀ x' ∈ (turn fmt g (.event (.tcp c message))).connections,
        FollowsTurn fmt g (.event (.tcp c message)) x' := by
  refine step_tcp_inv (P := fun g' => (g'.connections.map HubInfo.id).Nodup ∧
    ∀ x' ∈ g'.connections, FollowsTurn fmt g (.event (.tcp c message)) x') fmt (fun hconn => ?_)
      (fun g' h => ?_) (followsTurn_of_sublist hnodup (.refl _))
  · by_cases hinfo : ∃ m, message = .ok (some (.info m))
    · obtain ⟨m, rfl⟩ := hinfo
      rw [attempt_info]
      obtain ⟨hn, hf⟩ := processInfo_follows fmt m .Tcp none (some c) (g := g)
        (GatewayManager.open_of_connected hconn)
        (fun p hp x hx hid hi => Or.inr (hkeep c m rfl hconn ⟨p, hp⟩ x hx hid hi)) hnodup
      refine ⟨hn, fun x' hx' => (hf x' hx').turn (.tcp c m) fun g' hg' => ?_⟩
      rw [turn, step, if_pos hconn, tcpRound, attempt_info, hg']
      rfl
    · rw [attempt_connections fmt hinfo]
      exact followsTurn_of_sublist hnodup (.refl _)
  · -- `Disconnect` drops at most one of them
    have hsub := disconnect_sublist c g'
    exact ⟨(hsub.map _).nodup h.1, fun x' hx' => h.2 x' (hsub.subset hx')⟩

theorem turn_follows {t : Turn} (hkeep : KeepsSession fmt g t)
    (hnodup : (g.connections.map HubInfo.id).Nodup) :
    ((turn fmt g t).connections.map HubInfo.id).Nodup ∧
      ∀ x' ∈ (turn fmt g t).connections, FollowsTurn fmt g t x' := by
  cases t with
  | network socket writeFails => exact followsTurn_of_sublist hnodup (.refl g.connections)
  | event e =>
    cases e with
    | receive source => exact followsTurn_of_sublist hnodup (.refl g.connections)
    | udp message => exact udp_follows hnodup
    | tcp c message => exact tcp_follows hkeep hnodup

/-! ### Runs -/

variable {g₀ : GatewayManager} {ts : List Turn} {t : Turn} {x x' : HubInfo}

theorem turns_concat (g₀ : GatewayManager) (ts : List Turn) (t : Turn) :
    turns fmt g₀ (ts ++ [t]) = turn fmt (turns fmt g₀ ts) t := by
  rw [turns, List.foldl_append]
  rfl

theorem under_of_mem (hnodup : (g.connections.map HubInfo.id).Nodup) (hx : x ∈ g.connections) :
    Under g x.id x.client :=
  ⟨⟨x, hx, rfl⟩, fun y hy hid => by rw [List.inj_on_of_nodup_map hnodup hy hx hid]⟩

theorem HasSession.carried (h : HasSession fmt g₀ ts x) (hc : Carried x x')
    (hunder : Under (turns fmt g₀ (ts ++ [t])) x'.id x'.client) :
    HasSession fmt g₀ (ts ++ [t]) x' where
  client := by
    rw [hc.client]
    exact h.client
  externalEndpoint := hc.externalEndpoint h.externalEndpoint
  issued := by
    obtain ⟨before, t₀, during, rfl, hissued, hsince⟩ := h.issued
    refine ⟨before, t₀, during ++ [t], by simp, by rwa [hc.id], fun mid hmid => ?_⟩
    rcases List.prefix_concat_iff.mp hmid with rfl | hmid
    · simpa using hunder
    · rw [hc.id, hc.client]
      exact hsince mid hmid

theorem hasSession_of_issues (hcomplete : complete x' = true)
    (hissued : Issues fmt (turns fmt g₀ ts) t x'.id)
    (hunder : Under (turns fmt g₀ (ts ++ [t])) x'.id x'.client) :
    HasSession fmt g₀ (ts ++ [t]) x' := by
  rw [complete, Bool.and_eq_true] at hcomplete
  refine ⟨hcomplete.1, hcomplete.2, ts, t, [], rfl, hissued, fun mid hmid => ?_⟩
  rw [List.prefix_nil.mp hmid]
  exact hunder

/-- The invariant of the runs in which no hub comes back before it is dropped. -/
structure Sessions (fmt : TextFormat) (g₀ : GatewayManager) (ts : List Turn) (g : GatewayManager) :
    Prop where
  turns : g = turns fmt g₀ ts
  nodup : (g.connections.map HubInfo.id).Nodup
  each : ∀ x ∈ g.connections, x.initialized = true → HasSession fmt g₀ ts x

theorem Sessions.turn (h : Sessions fmt g₀ ts g) (hkeep : KeepsSession fmt g t) :
    Sessions fmt g₀ (ts ++ [t]) (turn fmt g t) := by
  obtain ⟨rfl, hnodup, heach⟩ := h
  obtain ⟨hn, hf⟩ := turn_follows hkeep hnodup
  rw [← turns_concat] at hn hf ⊢
  refine ⟨rfl, hn, fun x' hx' hi => ?_⟩
  have hunder := under_of_mem hn hx'
  rcases hf x' hx' with ⟨x, hx, hc⟩ | hfresh | ⟨hcomplete, hissued⟩
  · exact (heach x hx (by rw [← hc.initialized, hi])).carried hc hunder
  · rw [hi] at hfresh
    cases hfresh
  · exact hasSession_of_issues hcomplete hissued hunder

end

/-- **Initialization is per session**, in every run in which no initialized hub is
registered over another client: it has both channels, and was sent the list after it
got the client it has. -/
theorem initialized_per_session (fmt : TextFormat) {g₀ g : GatewayManager} (h₀ : g₀.connections = [])
    {ts : List Turn}
    (hrun : Reaches (fun g t => some (turn fmt g t)) (KeepsSession fmt) g₀ ts g) :
    ∀ x ∈ g.connections, x.initialized = true → HasSession fmt g₀ ts x := by
  have hinv : Sessions fmt g₀ ts g := by
    refine hrun.inv (P := Sessions fmt g₀) ⟨rfl, ?_, ?_⟩ ?_
    · show (g₀.connections.map HubInfo.id).Nodup
      rw [h₀]
      exact List.nodup_nil
    · intro x hx
      change x ∈ g₀.connections at hx
      rw [h₀] at hx
      cases hx
    · intro ts s t s' h hkeep hs
      rw [← Option.some.inj hs]
      exact h.turn hkeep
  exact hinv.each

def helloMessage (id : String) : BaseMessage := ({ id := some id } : HubInfo).toMessage dottedText

def overUdp (id : String) : Turn := .event (.udp (.ok (some (helloMessage id))))

def overTcp (c : TcpClient) (id : String) : Turn := .event (.tcp c (.ok (some (helloMessage id))))

/-- The read of a client fails, and it is disconnected. -/
def readFails (c : TcpClient) : Turn := .event (.tcp c (.error .endOfStream))

def noneYet : GatewayManager := .start anyEndPoint fun _ => .connected

def afterTurns (ts : List Turn) : GatewayManager := turns dottedText noneYet ts

/-- Two hubs come, and the first one leaves and comes back over another client. -/
def backAgain : List Turn :=
  [overTcp 1 "a", overUdp "a", overTcp 3 "b", overUdp "b", overTcp 1 "a", readFails 1, overTcp 2 "a",
    overUdp "a"]

theorem keepsSession_overTcp {g : GatewayManager} {c : TcpClient} {id : String}
    (h : ∀ x ∈ g.connections, x.id = some id → x.initialized = true → x.client = some c) :
    KeepsSession dottedText g (overTcp c id) := by
  intro c' m ht _ _
  cases ht
  exact h

theorem keepsSession_overUdp {g : GatewayManager} {id : String} :
    KeepsSession dottedText g (overUdp id) :=
  fun _ _ ht => by cases ht

theorem keepsSession_readFails {g : GatewayManager} {c : TcpClient} :
    KeepsSession dottedText g (readFails c) :=
  fun _ _ ht => by cases ht

theorem initialized_per_session_backAgain :
    (afterTurns backAgain).connections.map (fun x => (x.id, x.client, x.initialized)) =
      [(some "b", some 3, true), (some "a", some 2, true)] ∧
    ∀ x ∈ (afterTurns backAgain).connections, x.initialized = true →
      HasSession dottedText noneYet backAgain x := by
  refine ⟨by decide +kernel, initialized_per_session dottedText rfl ?_⟩
  have h₁ : Reaches (fun g t => some (turn dottedText g t)) (KeepsSession dottedText) noneYet
      [overTcp 1 "a", overUdp "a", overTcp 3 "b", overUdp "b"] _ :=
    .step (.step (.step (.step .start (keepsSession_overTcp (by decide)) rfl) keepsSession_overUdp rfl)
      (keepsSession_overTcp (by decide +kernel)) rfl) keepsSession_overUdp rfl
  -- now the first one is initialized: it comes over its client, and over another one only after
  -- `Disconnect` has dropped its entry
  exact .step (.step (.step (.step h₁ (keepsSession_overTcp (by decide +kernel)) rfl)
    keepsSession_readFails rfl) (keepsSession_overTcp (by decide +kernel)) rfl) keepsSession_overUdp rfl

/-- **A hub that comes back before its old client is found out** keeps the flag, and is
not sent the list. -/
theorem flag_kept :
    ¬ ∀ (fmt : TextFormat) (g₀ : GatewayManager) (ts : List Turn), g₀.connections = [] →
      ∀ x ∈ (turns fmt g₀ ts).connections, x.initialized = true → HasSession fmt g₀ ts x := by
  intro hall
  obtain ⟨x, hx, hi, hid, hc⟩ : ∃ x ∈ (afterTurns [overTcp 1 "a", overUdp "a", overTcp 2 "a"]).connections,
      x.initialized = true ∧ x.id = some "a" ∧ x.client = some 2 := by decide
  obtain ⟨before, t, during, hts, ⟨_, hissued⟩, hsince⟩ := (hall dottedText _ _ rfl x hx hi).issued
  have hunder := (hsince [] List.nil_prefix).2
  rw [hid, hc] at hunder
  rcases before with _ | ⟨t₁, _ | ⟨t₂, _ | ⟨t₃, before⟩⟩⟩
  · -- the client was not there yet
    cases hts
    exact absurd hunder (by decide)
  · cases hts
    exact absurd hunder (by decide)
  · -- the list was not sent when it came
    cases hts
    exact absurd hissued (by decide)
  · simp at hts

end Blockcore.Gateway
