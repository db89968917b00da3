import Blockcore.Hub.Learning
import Blockcore.Network.Departures

/-!
# Whose id a datagram carries

`SendMessageUDP` sets the id of what it is given to the hub's own, but only once the
message has been made of it; so a datagram carries whatever id the entity came with
(`sendMessageUDP_id`).  A probe and the hub's own `HubInfo` come with the hub's id.  The
reply to a request for an acknowledgement is made of the request, and comes with the id of
the hub that asked.

`stamped_iff` says when all datagrams of a run carry their sender's id: as long as no hub
answers a request but its own.
-/

namespace Blockcore.Network.Links.Senders

open Lib Networking Hub
open Learning (datagrams datagrams_append)

/-- `BaseMessage.Id`. -/
def senderId : BaseMessage → Option String
  | .ack m => m.id
  | .msg m => m.id
  | .info m => m.id
  | .keepAlive m => m.id
  | .notification m => m.id
  | .req m => m.id
  | .broadcast m => m.id
  | .test m => m.id

@[simp] theorem toMessage_id (entity : Entity) : senderId entity.toMessage = entity.id := by
  cases entity <;> rfl

/-- **The message was made before the id was set**: it has the id the entity came with, and
the entity has the hub's. -/
theorem sendMessageUDP_id (entity : Entity) (endpoint : IPEndPoint) (h : HubManager) :
    (∃ msg, senderId msg = entity.id ∧ (h.sendMessageUDP entity endpoint).1 = h.log [.sendUDP msg endpoint]) ∧
      (h.sendMessageUDP entity endpoint).2.id = h.localHubInfo.id :=
  ⟨⟨_, toMessage_id entity, rfl⟩, entity.setId_id _⟩

/-! ### What a hub sends -/

/-- Every datagram the hub sent carries its id. -/
def Stamped (h : HubManager) : Prop := ∀ d ∈ datagrams h.acts, senderId d.1 = h.localHubInfo.id

/-- The hub went on, and sent these datagrams. -/
structure Sends (h h' : HubManager) (new : List (BaseMessage × IPEndPoint)) : Prop where
  id : h'.localHubInfo.id = h.localHubInfo.id
  datagrams : datagrams h'.acts = datagrams h.acts ++ new

variable {fmt : TextFormat} {h h' h'' : HubManager} {new : List (BaseMessage × IPEndPoint)}

theorem Sends.stamped (hs : Sends h h' new) :
    Stamped h' ↔ Stamped h ∧ ∀ d ∈ new, senderId d.1 = h.localHubInfo.id := by
  unfold Stamped
  rw [hs.datagrams, hs.id]
  exact List.forall_mem_append

theorem Sends.trans {more : List (BaseMessage × IPEndPoint)} (hs : Sends h h' new)
    (hs' : Sends h' h'' more) : Sends h h'' (new ++ more) :=
  ⟨hs'.id.trans hs.id, by rw [hs'.datagrams, hs.datagrams, List.append_assoc]⟩

theorem sends_log (acts : List Act) (hid : h'.localHubInfo.id = h.localHubInfo.id)
    (hacts : h'.acts = h.acts ++ acts) : Sends h h' (Learning.datagrams acts) :=
  ⟨hid, by rw [hacts, datagrams_append]⟩

theorem sends_none (hid : h'.localHubInfo.id = h.localHubInfo.id) (hacts : h'.acts = h.acts) :
    Sends h h' [] :=
  sends_log [] hid (by rw [hacts, List.append_nil])

theorem sends_publish (h : HubManager) (event : BaseEvent) : Sends h (h.publish event) [] :=
  sends_log [.publish event] rfl rfl

theorem sends_sendMessageTCP (h : HubManager) (message : BaseMessage) :
    Sends h (h.sendMessageTCP message) [] := by
  rw [HubManager.sendMessageTCP]
  split
  · exact sends_log [.sendTCP message] rfl rfl
  · exact sends_none rfl rfl

theorem sends_sendMessageUDP (h : HubManager) (entity : Entity) (endpoint : IPEndPoint) :
    Sends h (h.sendMessageUDP entity endpoint).1 [(entity.toMessage, endpoint)] :=
  sends_log [.sendUDP entity.toMessage endpoint] rfl rfl

theorem sends_findReachableEndpoint (h : HubManager) (caller : Caller) (r : Ref) :
    Sends h (h.findReachableEndpoint caller r) [] :=
  sends_log [.findReachableEndpoint (h.hubInfo r)] rfl rfl

theorem sends_connectToClient (h : HubManager) (r : Ref) : Sends h (h.connectToClient r) [] :=
  (sends_sendMessageTCP ..).trans (sends_findReachableEndpoint ..)

theorem sends_publishUpdated (h : HubManager) (r : Ref) : Sends h (h.publishUpdated r) [] := by
  rw [HubManager.publishUpdated]
  split
  · exact (sends_publish ..).trans (sends_connectToClient ..)
  · exact sends_publish ..

theorem sends_disconnectedGateway (h : HubManager) : Sends h h.disconnectedGateway.state [] := by
  rw [HubManager.disconnectedGateway]
  split <;> exact sends_none rfl rfl

/-- **A call** sends its probe, if anything. -/
theorem sends_advance {t : Nat} (hs : h.advance t = some h') : ∃ new, Sends h h' new ∧
    ∀ d ∈ new, senderId d.1 = h.localHubInfo.id := by
  obtain ⟨pc, rfl | ⟨endpoint, rfl⟩ | ⟨r, type, response, rfl⟩ | ⟨call, endpoint, _, rfl⟩⟩ :=
    HubManager.advance_effects hs
  · exact ⟨[], sends_none rfl rfl, by simp⟩
  · refine ⟨[((Ack.new h.localHubInfo.id).toMessage, endpoint)], ?_, by simp [Ack.new, Ack.toMessage, senderId]⟩
    exact (sends_sendMessageUDP h (.ack (Ack.new h.localHubInfo.id)) endpoint).trans (sends_none rfl rfl)
  · exact ⟨[], sends_none rfl rfl, by simp⟩
  · have hresume : Sends h (h.resume call endpoint) [] := by
      rw [HubManager.resume]
      split
      · exact sends_publish ..
      · exact (sends_publish ..).trans (sends_publishUpdated ..)
    exact ⟨[], hresume.trans (sends_none rfl rfl), by simp⟩

/-! ### What a handler sends -/

/-- The hub answers the request: it knows the hub named, and that hub's external
endpoint. -/
def Answers (h : HubManager) (msg : AckMessage) : Prop :=
  msg.response = false ∧ ∃ r known, h.connections.getConnection msg.id = some r ∧
    (h.hubInfo r).externalEndpoint = some known

theorem sends_learn (h : HubManager) (r : Ref) (known source : IPEndPoint) :
    Sends h (learnAddress fmt r known source (learnPort r known source h)) [] := by
  have hport : Sends h (learnPort r known source h) [] := by
    rw [learnPort]
    split
    · have hstore : ∀ x, Sends h (h.store r x) [] := fun x => sends_none rfl rfl
      exact (hstore _).trans (sends_publishUpdated ..)
    · exact sends_none rfl rfl
  refine hport.trans (?_ : Sends _ _ [])
  rw [learnAddress]
  split <;> exact sends_none rfl rfl

/-- **A request** is replied to with the id of who asked. -/
theorem sends_processAck (fmt : TextFormat) (msg : AckMessage) (endpoint : Option IPEndPoint) (h : HubManager) :
    ∃ new, Sends h (processAck fmt msg endpoint h).state new ∧ (∀ d ∈ new, senderId d.1 = msg.id) ∧
      (new ≠ [] ↔ Answers h msg ∧ endpoint.isSome = true) := by
  have hsilent : ∀ h', Sends h h' [] → ¬ (Answers h msg ∧ endpoint.isSome = true) → ∃ new,
      Sends h h' new ∧ (∀ d ∈ new, senderId d.1 = msg.id) ∧
        (new ≠ [] ↔ Answers h msg ∧ endpoint.isSome = true) :=
    fun h' hs hnot => ⟨[], hs, by simp, by simpa using hnot⟩
  rw [processAck]
  split
  · next hresponse =>
    refine hsilent _ (sends_none rfl rfl) ?_
    rintro ⟨⟨hasks, _⟩, _⟩
    rw [hasks] at hresponse
    cases hresponse
  · next hasks =>
    split
    · next hget =>
      refine hsilent _ (sends_none rfl rfl) ?_
      rintro ⟨⟨_, r, known, hsome, _⟩, _⟩
      rw [hget] at hsome
      cases hsome
    · next r hget =>
      split
      · next known source hx =>
        refine ⟨_, (sends_learn h r known source).trans (sends_sendMessageUDP ..), ?_, ?_⟩
        · intro d hd
          rw [List.nil_append, List.mem_singleton] at hd
          rw [hd]
          rfl
        · exact iff_of_true (by simp) ⟨⟨by simpa using hasks, r, known, hget, hx⟩, rfl⟩
      · next hnot =>
        refine hsilent _ (sends_none rfl rfl) ?_
        rintro ⟨⟨_, r', known, hsome, hx⟩, hendpoint⟩
        obtain rfl : r = r' := Option.some.inj (hget.symm.trans hsome)
        obtain ⟨source, rfl⟩ := Option.isSome_iff_exists.mp hendpoint
        exact absurd rfl (hnot known source hx)

theorem sends_processInfo (msg : HubInfoMessage) (h : HubManager) :
    Sends h (processInfo fmt msg h).state [] := by
  rw [processInfo]
  split
  · split
    · exact sends_none rfl rfl
    · exact sends_log [.publish (.connectionAdded _)] rfl rfl
  · next r _ =>
    split
    · exact sends_none rfl rfl
    · have hstore : ∀ x, Sends h (h.store r x) [] := fun x => sends_none rfl rfl
      exact (hstore _).trans (sends_publishUpdated ..)

theorem sends_processMessage (msg : MessageMessage) (endpoint : Option IPEndPoint)
    (client : Option TcpClient) (h : HubManager) :
    Sends h (processMessage msg endpoint client h) [] := by
  rw [processMessage]
  split
  · exact sends_publish ..
  · split
    · exact sends_publish ..
    · exact sends_none rfl rfl

theorem sends_processNotification (item : NotificationMessage) (h : HubManager) :
    Sends h (processNotification item h).state [] := by
  rw [processNotification]
  split
  · split
    · exact sends_none rfl rfl
    · split
      · exact sends_none rfl rfl
      · exact sends_log [.publish (.connectionRemoved _)] rfl rfl
  · have hdisconnected := sends_disconnectedGateway h
    cases hd : h.disconnectedGateway with
    | done h' =>
      rw [hd] at hdisconnected
      rw [Outcome.done_andThen]
      exact hdisconnected.trans (sends_publish ..)
    | thrown e h' =>
      rw [hd] at hdisconnected
      rw [Outcome.thrown_andThen]
      exact hdisconnected

theorem sends_processReq (msg : ReqMessage) (protocol : ProtocolType) (h : HubManager) :
    Sends h (processReq msg protocol h) [] := by
  rw [processReq]
  split
  · exact sends_none rfl rfl
  · exact (sends_publish ..).trans (sends_findReachableEndpoint ..)

/-- **A listener** sends nothing but its reply to a request. -/
theorem sends_listen (fmt : TextFormat) (m : BaseMessage) (protocol : ProtocolType) (endpoint : Option IPEndPoint)
    (h : HubManager) : ∃ new, Sends h (h.listen fmt (.ok (some m)) protocol endpoint) new ∧
      (∀ d ∈ new, senderId d.1 = senderId m) ∧
      (new ≠ [] ↔ ∃ msg, m = .ack msg ∧ Answers h msg ∧ endpoint.isSome = true) := by
  rw [HubManager.listen_some, process_hubMaps]
  have hother : (∀ msg, m ≠ .ack msg) → ∀ h', Sends h h' [] → ∃ new, Sends h h' new ∧
      (∀ d ∈ new, senderId d.1 = senderId m) ∧
        (new ≠ [] ↔ ∃ msg, m = .ack msg ∧ Answers h msg ∧ endpoint.isSome = true) := by
    refine fun hne h' hs => ⟨[], hs, by simp, iff_of_false (by simp) ?_⟩
    rintro ⟨msg, heq, _⟩
    exact hne msg heq
  cases m with
  | ack msg =>
    obtain ⟨new, hnew, hid, hiff⟩ := sends_processAck fmt msg endpoint h
    refine ⟨new, hnew, hid, hiff.trans ⟨fun hanswers => ⟨msg, rfl, hanswers⟩, ?_⟩⟩
    rintro ⟨msg', heq, hanswers⟩
    cases heq
    exact hanswers
  | info msg => exact hother (fun _ heq => by cases heq) _ (sends_processInfo msg h)
  | msg msg => exact hother (fun _ heq => by cases heq) _ (sends_processMessage ..)
  | notification item => exact hother (fun _ heq => by cases heq) _ (sends_processNotification item h)
  | req msg => exact hother (fun _ heq => by cases heq) _ (sends_processReq ..)
  | keepAlive _ => exact hother (fun _ heq => by cases heq) _ (sends_none rfl rfl)
  | broadcast _ => exact hother (fun _ heq => by cases heq) _ (sends_none rfl rfl)
  | test _ => exact hother (fun _ heq => by cases heq) _ (sends_none rfl rfl)

theorem sends_own {a : Events.Step} (hown : ownStep a = true) (h : HubManager) :
    ∃ new, Sends h (Events.step fmt h a) new ∧ ∀ d ∈ new, senderId d.1 = h.localHubInfo.id := by
  cases a with
  | receive message protocol endpoint => cases hown
  | advance t =>
    rw [Events.step]
    cases hs : h.advance t with
    | none => exact ⟨[], sends_none rfl rfl, by simp⟩
    | some h' => exact sends_advance hs
  | connectToClient r => exact ⟨[], sends_connectToClient h r, by simp⟩
  | connectGateway serverEndpoint localEndPoint => cases hown
  | connectedGateway => exact ⟨[], (sends_sendMessageTCP ..).trans (sends_publish ..), by simp⟩
  | refusedGateway serverEndpoint => exact ⟨[], sends_publish .., by simp⟩
  | disconnectedGateway => exact ⟨[], sends_disconnectedGateway h, by simp⟩
  | network connected writeFails => exact ⟨[], sends_none rfl rfl, by simp⟩

theorem sends_connectGateway (serverEndpoint : IPEndPoint) (localEndPoint : Option IPEndPoint) (h : HubManager) :
    Sends h (h.connectGateway fmt serverEndpoint localEndPoint)
      [(h.localHubInfo.simplified.toMessage fmt, serverEndpoint)] :=
  sends_log [.sendUDP (h.localHubInfo.simplified.toMessage fmt) serverEndpoint] rfl rfl

/-! ### Runs -/

section

variable {ι : Type} [DecidableEq ι] {address : ι → IPEndPoint} {server : IPEndPoint}

/-- A request that a hub answers has the hub's own id. -/
def AnswersOwn (s : State ι) : Label ι → Prop
  | .datagram i k => ∀ d msg, s.datagrams[k]? = some d → d.message = .ack msg →
    Answers (s.hub i) msg → msg.id = (s.hub i).localHubInfo.id
  | _ => True

/-- All datagrams the hubs sent carry their ids. -/
def AllStamped (s : State ι) : Prop := ∀ i, Stamped (s.hub i)

theorem allStamped_update {s s' : State ι} {i : ι} {h' : HubManager} {new : List (BaseMessage × IPEndPoint)}
    (hhub : s'.hub = Function.update s.hub i h') (hs : Sends (s.hub i) h' new) :
    AllStamped s' ↔ AllStamped s ∧ ∀ d ∈ new, senderId d.1 = (s.hub i).localHubInfo.id := by
  unfold AllStamped
  rw [hhub, Function.forall_update_iff s.hub (p := fun _ h => Stamped h), hs.stamped]
  refine ⟨?_, ?_⟩
  · rintro ⟨⟨hi, hnew⟩, hrest⟩
    refine ⟨fun j => ?_, hnew⟩
    by_cases hj : j = i
    · rw [hj]
      exact hi
    · exact hrest j hj
  · rintro ⟨hall, hnew⟩
    exact ⟨⟨hall i, hnew⟩, fun j _ => hall j⟩

theorem allStamped_own {s s' : State ι} {i : ι} {h' : HubManager}
    (hhub : s'.hub = Function.update s.hub i h') (hs : ∃ new, Sends (s.hub i) h' new ∧
      ∀ d ∈ new, senderId d.1 = (s.hub i).localHubInfo.id) : AllStamped s' ↔ AllStamped s := by
  obtain ⟨new, hnew, hown⟩ := hs
  rw [allStamped_update hhub hnew]
  exact and_iff_left hown

theorem allStamped_step {s s' : State ι} {l : Label ι} (hs : step fmt address server s l = some s') :
    AllStamped s' ↔ AllStamped s ∧ AnswersOwn s l := by
  have hfree : AnswersOwn s l → (AllStamped s' ↔ AllStamped s) →
      (AllStamped s' ↔ AllStamped s ∧ AnswersOwn s l) :=
    fun ha hiff => hiff.trans (and_iff_left ha).symm
  cases l with
  | connect i localEndPoint =>
    obtain rfl := Option.some.inj hs
    refine hfree trivial (allStamped_own (i := i) rfl ⟨_, sends_connectGateway .., ?_⟩)
    simp [senderId, HubInfo.toMessage, HubInfo.toHubInfoMessage, HubInfo.simplified]
  | act i a =>
    simp only [step] at hs
    split at hs
    · next hown =>
      obtain rfl := Option.some.inj hs
      exact hfree trivial (allStamped_own (i := i) rfl (sends_own hown _))
    · cases hs
  | send i message =>
    simp only [step] at hs
    split at hs
    · cases hs
    · obtain rfl := Option.some.inj hs
      exact hfree trivial (allStamped_own (i := i) rfl ⟨[], sends_sendMessageTCP .., by simp⟩)
  | receive i =>
    simp only [step] at hs
    split at hs
    · cases hs
    · split at hs
      · cases hs
      · next message rest _ =>
        split at hs
        · obtain rfl := Option.some.inj hs
          obtain ⟨new, hnew, _, hiff⟩ := sends_listen fmt message .Tcp none (s.hub i)
          have hnone : new = [] := by
            by_contra hne
            obtain ⟨_, _, _, hendpoint⟩ := hiff.mp hne
            cases hendpoint
          exact hfree trivial (allStamped_own (i := i) rfl ⟨new, hnew, by simp [hnone]⟩)
        · cases hs
  | datagram i k =>
    simp only [step] at hs
    split at hs
    · cases hs
    · next d hd =>
      split at hs
      · obtain rfl := Option.some.inj hs
        obtain ⟨new, hnew, hid, hiff⟩ :=
          sends_listen fmt d.message .Udp (some d.source) (s.hub i)
        rw [allStamped_update (i := i) rfl hnew]
        refine and_congr_right fun _ => ?_
        refine ⟨?_, ?_⟩
        · intro hown d' msg hd' hm hanswers
          obtain rfl : d = d' := Option.some.inj (hd.symm.trans hd')
          obtain ⟨e, he⟩ := List.exists_mem_of_ne_nil new (hiff.mpr ⟨msg, hm, hanswers, rfl⟩)
          rw [← hown e he, hid e he, hm]
          rfl
        · intro hown e he
          obtain ⟨msg, hm, hanswers, _⟩ := hiff.mp (List.ne_nil_of_mem he)
          rw [hid e he, hm]
          exact hown d msg hd hm hanswers
      · cases hs
  | lose k =>
    obtain rfl := Option.some.inj hs
    exact hfree trivial Iff.rfl
  | network lost writeFails =>
    obtain rfl := Option.some.inj hs
    exact hfree trivial Iff.rfl
  | gatewayDatagram k =>
    simp only [step] at hs
    split at hs
    · cases hs
    · split at hs
      · obtain rfl := Option.some.inj hs
        exact hfree trivial Iff.rfl
      · cases hs
  | gatewayHandle =>
    simp only [step] at hs
    split at hs
    · cases hs
    · obtain rfl := Option.some.inj hs
      exact hfree trivial Iff.rfl
  | gatewayReceive c =>
    simp only [step] at hs
    split at hs
    · cases hs
    · split at hs
      · obtain rfl := Option.some.inj hs
        exact hfree trivial Iff.rfl
      · cases hs
  | gatewayEnd c e =>
    obtain rfl := Option.some.inj hs
    exact hfree trivial Iff.rfl

/-- **Every datagram carries its sender's id** after a run from a state in which all do,
exactly if every request that a hub answered in it had the hub's own id. -/
theorem stamped_iff (fmt : TextFormat) (address : ι → IPEndPoint) (server : IPEndPoint)
    {s₀ s : State ι} {ls : List (Label ι)} (h₀ : AllStamped s₀)
    (hrun : Run (step fmt address server) s₀ ls s) :
    AllStamped s ↔ Reaches (step fmt address server) AnswersOwn s₀ ls s :=
  run_iff_reaches (fun _ _ _ hs => allStamped_step hs) h₀ hrun

end

/-! ### A probe and its reply -/

theorem allStamped_apart : AllStamped apart := by
  intro i d hd
  cases hd

/-- Every datagram carries the id, as a computation. -/
def stamped (h : HubManager) : Bool :=
  (datagrams h.acts).all fun d => senderId d.1 == h.localHubInfo.id

theorem stamped_eq_true {h : HubManager} : stamped h = true ↔ Stamped h := by
  rw [stamped, List.all_eq_true]
  exact forall₂_congr fun d _ => beq_iff_eq

/-- `b` and `a` register and hear of each other, and `b` probes `a`. -/
def probes : List (Label Bool) :=
  [.connect false (homes false), .gatewayDatagram 0, .gatewayHandle,
    .act false .connectedGateway, .gatewayReceive 0,
    .connect true (homes true), .gatewayDatagram 2, .gatewayHandle,
    .act true .connectedGateway, .gatewayReceive 1,
    .datagram true 3, .receive false, .receive false, .receive false,
    .act false (.connectToClient 1), .act false (.advance 0), .act false (.advance 0),
    .act false (.advance 0)]

/-- No hub has answered another so far. -/
theorem stamped_iff_probes : ∃ s, Run (step dottedText homes Gateway.anyEndPoint) apart probes s ∧
    Reaches (step dottedText homes Gateway.anyEndPoint) AnswersOwn apart probes s := by
  have hexec : (exec (step dottedText homes Gateway.anyEndPoint) apart probes).any
      (fun s => stamped (s.hub false) && stamped (s.hub true)) = true := by
    decide +kernel
  obtain ⟨s, hs, hcheck⟩ := (Option.any_eq_true _ _).mp hexec
  rw [Bool.and_eq_true, stamped_eq_true, stamped_eq_true] at hcheck
  refine ⟨s, run_of_exec hs, ?_⟩
  refine (stamped_iff dottedText homes Gateway.anyEndPoint allStamped_apart (run_of_exec hs)).mp ?_
  intro i
  cases i
  · exact hcheck.1
  · exact hcheck.2

/-- **The reply of `a` carries the id of `b`.** -/
theorem reply_unstamped :
    ¬ ∀ (ι : Type) [DecidableEq ι] (fmt : TextFormat) (address : ι → IPEndPoint) (server : IPEndPoint)
      (s₀ s : State ι) (ls : List (Label ι)), Fresh s₀ → AllStamped s₀ →
        Run (step fmt address server) s₀ ls s → AllStamped s := by
  intro hall
  have hexec : (exec (step dottedText homes Gateway.anyEndPoint) apart (probes ++ [.datagram true 4])).any
      (fun s => !stamped (s.hub true)) = true := by
    decide +kernel
  obtain ⟨s, hs, hcheck⟩ := (Option.any_eq_true _ _).mp hexec
  have htrue := stamped_eq_true.mpr (hall Bool dottedText homes Gateway.anyEndPoint apart s _
    fresh_apart allStamped_apart (run_of_exec hs) true)
  rw [htrue] at hcheck
  cases hcheck

end Blockcore.Network.Links.Senders
