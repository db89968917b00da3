import Blockcore.Hub.Events
import Blockcore.Network.Origins

/-!
# Missing peers and endpoints

`AckMessageHandler` looks up whom a request for an acknowledgement is from and where that
hub was last heard, and asks neither whether it is there.  `FindReachableEndpoint` takes the
port for the internal addresses of an entry from its internal endpoint, and does not ask
either.  There may be none: the handler adds an address it sees to an entry without one, and a
hub that could send nothing over UDP tells of its addresses all the same.

`null_safe_iff` is about the runs of a hub that takes the messages hubs and gateways make.
Nothing else they do runs into a null reference (`Safe`): what is looked up elsewhere is
tested, and an endpoint stays known once it is.
-/

namespace Blockcore.Hub.NullSafety

open Lib Networking Network Events

/-- Where there are internal addresses there is an internal endpoint. -/
def Located (x : HubInfo) : Prop := x.internalAddresses ≠ [] → x.internalEndpoint.isSome = true

/-- The step can happen: what is received was produced, and comes with its source if it is a
datagram; it is an entry the user connects to. -/
def Arises (fmt : TextFormat) (h : HubManager) : Step → Prop
  | .receive message protocol endpoint =>
    (∀ m, message = .ok (some m) → Produced fmt m) ∧ (endpoint.isSome = true ↔ protocol = .Udp)
  | .connectToClient r => r ∈ h.connections.connections
  | _ => True

def Fails (fmt : TextFormat) (h : HubManager) : Step → Prop
  | .receive (.ok (some m)) protocol endpoint =>
    ∃ h', process (hubMaps fmt) (some ⟨m, protocol, endpoint, none⟩) h = .thrown .nullReference h'
  | _ => False

/-- No handler dereferences null; nor has a call of `FindReachableEndpoint`, nor would one,
on any entry there is. -/
structure NullSafe (fmt : TextFormat) (h : HubManager) (s : Step) : Prop where
  handler : ¬ Fails fmt h s
  calls : ∀ call ∈ (step fmt h s).calls, call.pc ≠ .threw .nullReference
  entries : ∀ r ∈ (step fmt h s).connections.connections, Located ((step fmt h s).hubInfo r)

/-- A request for an acknowledgement comes with its source, from a hub whose entry and
external endpoint are known; and from there, if the internal endpoint is not.  A `HubInfo` with
internal addresses comes with an internal endpoint, or there is one in the hub's entry. -/
def Meets (h : HubManager) : Step → Prop
  | .receive (.ok (some (.ack msg))) _ endpoint => msg.response = false →
    ∃ r known source, h.connections.getConnection msg.id = some r ∧
      (h.hubInfo r).externalEndpoint = some known ∧ endpoint = some source ∧
      ((h.hubInfo r).internalEndpoint = none → known.address = source.address)
  | .receive (.ok (some (.info msg))) _ _ => msg.internalAddresses.getD [] ≠ [] →
    msg.internalEndpoint.isSome = true ∨ ∃ r, h.connections.getConnection msg.id = some r ∧
      (h.hubInfo r).internalEndpoint.isSome = true
  | _ => True

/-! ### The invariant -/

/-- The call found the external endpoint there, and uses it. -/
def tested (pc : CallPc) : Prop :=
  match pc with
  | .wanTry _ => True
  | .wanSleep _ => True
  | .wanReceived _ => True
  | _ => False

/-- The object of a call was made, and is as the call found it. -/
structure CallSafe (s : ConnectionManager) (call : Call) : Prop where
  lt : call.hubInfo < s.next
  external : tested call.pc → (s.heap call.hubInfo).externalEndpoint.isSome = true
  running : call.pc ≠ .threw .nullReference

structure Safe (h : HubManager) : Prop where
  lt : ∀ r ∈ h.connections.connections, r < h.connections.next
  located : ∀ r, Located (h.hubInfo r)
  calls : ∀ call ∈ h.calls, CallSafe h.connections call

variable {fmt : TextFormat} {h h' : HubManager}

theorem Safe.of_eq (hs : Safe h) (hc : h'.connections = h.connections) (hcalls : h'.calls = h.calls) :
    Safe h' where
  lt := by
    rw [hc]
    exact hs.lt
  located r := by
    rw [HubManager.hubInfo, hc]
    exact hs.located r
  calls := by
    rw [hc, hcalls]
    exact hs.calls

theorem Safe.store (hs : Safe h) (r : Ref) (hubInfo : HubInfo) (hl : Located hubInfo)
    (hext : (h.hubInfo r).externalEndpoint.isSome = true → hubInfo.externalEndpoint.isSome = true) :
    Safe (h.store r hubInfo) := by
  have hheap : ∀ r', (h.store r hubInfo).hubInfo r' = if r' = r then hubInfo else h.hubInfo r' :=
    fun r' => Function.update_apply ..
  refine ⟨hs.lt, fun r' => ?_, fun call hcall => ?_⟩
  · rw [hheap]
    split
    · exact hl
    · exact hs.located r'
  · obtain ⟨hlt, hexternal, hrunning⟩ := hs.calls call hcall
    refine ⟨hlt, fun ht => ?_, hrunning⟩
    show ((h.store r hubInfo).hubInfo call.hubInfo).externalEndpoint.isSome = true
    rw [hheap]
    split
    · next heq =>
      subst heq
      exact hext (hexternal ht)
    · exact hexternal ht

theorem Safe.find (hs : Safe h) (caller : Caller) {r : Ref} (hr : r < h.connections.next) :
    Safe (h.findReachableEndpoint caller r) := by
  refine ⟨hs.lt, hs.located, fun call hcall => ?_⟩
  rcases List.mem_append.mp hcall with hcall | hcall
  · exact hs.calls call hcall
  · rw [List.mem_singleton.mp hcall]
    exact ⟨hr, fun ht => ht.elim, fun heq => by cases heq⟩

theorem Safe.sendMessageTCP (hs : Safe h) (message : BaseMessage) : Safe (h.sendMessageTCP message) := by
  rw [HubManager.sendMessageTCP]
  split
  · exact hs.of_eq rfl rfl
  · exact hs

theorem Safe.connectToClient (hs : Safe h) {r : Ref} (hr : r < h.connections.next) :
    Safe (h.connectToClient r) := by
  refine (hs.sendMessageTCP _).find .connectToClient ?_
  rwa [HubManager.sendMessageTCP_connections]

theorem Safe.publishUpdated (hs : Safe h) {r : Ref} (hr : r < h.connections.next) :
    Safe (h.publishUpdated r) := by
  have hpublish : Safe (h.publish (.connectionUpdated (h.hubInfo r))) := hs.of_eq rfl rfl
  rw [HubManager.publishUpdated]
  split
  · exact hpublish.connectToClient hr
  · exact hpublish

theorem Safe.goto (hs : Safe h) (t : Nat) {pc : CallPc} (hpc : pc ≠ .threw .nullReference)
    (hext : tested pc → ∀ call, h.calls[t]? = some call →
      (h.hubInfo call.hubInfo).externalEndpoint.isSome = true) : Safe (h.goto t pc) := by
  refine ⟨hs.lt, hs.located, fun call hcall => ?_⟩
  obtain ⟨i, hi⟩ := List.mem_iff_getElem?.mp hcall
  rw [HubManager.goto, List.getElem?_modify] at hi
  obtain ⟨call₀, hcall₀, rfl⟩ := Option.map_eq_some_iff.mp hi
  have hold := hs.calls call₀ (List.mem_of_getElem? hcall₀)
  split
  · next heq =>
    subst heq
    exact ⟨hold.lt, fun ht => hext ht call₀ hcall₀, hpc⟩
  · exact hold

/-- **A call goes on**, whoever waits for it. -/
theorem Safe.advance {t : Nat} (hs : Safe h) (ha : h.advance t = some h') : Safe h' := by
  cases hc : h.calls[t]? with
  | none => simp [HubManager.advance, hc] at ha
  | some call =>
    have hcall := hs.calls call (List.mem_of_getElem? hc)
    have hself : ∀ call', h.calls[t]? = some call' → call' = call := fun call' hc' =>
      Option.some.inj (hc'.symm.trans hc)
    obtain ⟨caller, r, pc⟩ := call
    have hinside : ∀ pc, pc ≠ .threw .nullReference → ¬ tested pc → Safe (h.goto t pc) :=
      fun pc hne ht => hs.goto t hne fun h => absurd h ht
    have houtside : ∀ pc, pc ≠ .threw .nullReference →
        (h.hubInfo r).externalEndpoint.isSome = true → Safe (h.goto t pc) := by
      intro pc hne hext
      refine hs.goto t hne fun _ call' hc' => ?_
      rw [hself call' hc']
      exact hext
    have haccept : ∀ type response, Safe (h.accept r type response) := fun type response =>
      (hs.store r { h.hubInfo r with connectionType := type } (hs.located r) id).of_eq rfl rfl
    cases pc with
    | lan ip =>
      simp only [HubManager.advance, hc] at ha
      split at ha
      · cases ha
        exact hinside _ (by simp) (by simp [tested])
      · next IP hip =>
        split at ha
        · -- an address was found, so the endpoint is there
          have hend := hs.located r (List.ne_nil_of_mem (List.mem_of_getElem? hip))
          obtain ⟨endpoint, he⟩ := Option.isSome_iff_exists.mp hend
          simp only [he] at ha
          cases ha
          exact hinside _ (by simp) (by simp [tested])
        · cases ha
          exact hinside _ (by simp) (by simp [tested])
    | lanTry ip endpoint i =>
      simp only [HubManager.advance, hc] at ha
      split at ha
      · cases ha
        exact Safe.of_eq (hinside (.lanSleep ip endpoint i) (by simp) (by simp [tested])) rfl rfl
      · cases ha
        exact hinside _ (by simp) (by simp [tested])
    | lanSleep ip endpoint i =>
      simp only [HubManager.advance, hc] at ha
      split at ha
      · cases ha
        exact hinside _ (by simp) (by simp [tested])
      · cases ha
        exact hinside _ (by simp) (by simp [tested])
    | lanReceived endpoint response =>
      simp only [HubManager.advance, hc] at ha
      cases ha
      exact (haccept .LAN response).goto t (by simp) (by simp [tested])
    | wan =>
      simp only [HubManager.advance, hc] at ha
      split at ha
      · next hext =>
        cases ha
        exact houtside _ (by simp) hext
      · cases ha
        exact hinside _ (by simp) (by simp [tested])
    | wanTry i =>
      have hext := hcall.external trivial
      obtain ⟨endpoint, he⟩ := Option.isSome_iff_exists.mp hext
      change (h.hubInfo r).externalEndpoint = some endpoint at he
      simp only [HubManager.advance, hc, he] at ha
      split at ha
      · cases ha
        exact Safe.of_eq (houtside (.wanSleep i) (by simp) hext) rfl rfl
      · cases ha
        exact hinside _ (by simp) (by simp [tested])
    | wanSleep i =>
      have hext := hcall.external trivial
      simp only [HubManager.advance, hc] at ha
      split at ha
      · cases ha
        exact houtside _ (by simp) hext
      · cases ha
        exact houtside _ (by simp) hext
    | wanReceived response =>
      obtain ⟨endpoint, he⟩ := Option.isSome_iff_exists.mp (hcall.external trivial)
      change (h.hubInfo r).externalEndpoint = some endpoint at he
      simp only [HubManager.advance, hc, he] at ha
      cases ha
      exact (haccept .WAN response).goto t (by simp) (by simp [tested])
    | returned endpoint =>
      cases endpoint with
      | none =>
        simp only [HubManager.advance, hc] at ha
        cases ha
        exact hinside _ (by simp) (by simp [tested])
      | some endpoint =>
        simp only [HubManager.advance, hc] at ha
        cases ha
        refine Safe.goto ?_ t (by simp) (by simp [tested])
        have hstarted : Safe (h.publish (.connectionStarted (h.hubInfo r) endpoint)) := hs.of_eq rfl rfl
        rw [HubManager.resume]
        split
        · exact hstarted
        · exact hstarted.publishUpdated hcall.lt
    | threw e => simp [HubManager.advance, hc] at ha
    | ended => simp [HubManager.advance, hc] at ha

/-! ### Handlers -/

/-- The handler kept the invariant, and did not dereference null. -/
def Handled (o : Outcome Exception HubManager) : Prop :=
  Safe o.state ∧ ∀ h, o ≠ .thrown .nullReference h

theorem handled_done (hs : Safe h) : Handled (.done h) := ⟨hs, fun h' heq => by cases heq⟩

theorem mem_of_getConnection {s : ConnectionManager} {id : Option String} {r : Ref}
    (hget : s.getConnection id = some r) : r ∈ s.connections := List.mem_of_find?_eq_some hget

theorem learnPort_internalEndpoint (r : Ref) (known source : IPEndPoint) (h : HubManager) :
    ((learnPort r known source h).hubInfo r).internalEndpoint = (h.hubInfo r).internalEndpoint := by
  rw [learnPort]
  split
  · rw [HubManager.hubInfo, HubManager.publishUpdated_connections]
    simp [HubManager.store, HubManager.hubInfo, ConnectionManager.store]
  · rfl

theorem Safe.learnPort (hs : Safe h) {r : Ref} (hr : r < h.connections.next) (known source : IPEndPoint) :
    Safe (learnPort r known source h) := by
  rw [Hub.learnPort]
  split
  · exact (hs.store r { h.hubInfo r with
      externalEndpoint := some { known with port := source.port } } (hs.located r)
        fun _ => rfl).publishUpdated hr
  · exact hs

variable (fmt) in
theorem Safe.learnAddress (hs : Safe h) {r : Ref} {known source : IPEndPoint}
    (hmeets : (h.hubInfo r).internalEndpoint = none → known.address = source.address) :
    Safe (learnAddress fmt r known source h) := by
  rw [Hub.learnAddress]
  split
  · next hne =>
    refine hs.store r _ (fun _ => ?_) id
    rw [Option.isSome_iff_ne_none]
    exact fun hnone => hne.1 (hmeets hnone)
  · exact hs

variable (fmt) in
theorem handled_ack {msg : AckMessage} {protocol : ProtocolType} {endpoint : Option IPEndPoint}
    (hs : Safe h) (hmeets : Meets h (.receive (.ok (some (.ack msg))) protocol endpoint)) :
    Handled (processAck fmt msg endpoint h) := by
  rw [processAck]
  split
  · exact handled_done (hs.of_eq rfl rfl)
  · next hresponse =>
    obtain ⟨r, known, source, hget, hknown, rfl, haddress⟩ := hmeets (by simpa using hresponse)
    have hr := hs.lt r (mem_of_getConnection hget)
    have hport : Safe (learnPort r known source h) := hs.learnPort hr known source
    rw [hget]
    simp only [hknown]
    have hlearned : Safe (learnAddress fmt r known source (learnPort r known source h)) := by
      refine hport.learnAddress fmt fun hnone => ?_
      rw [learnPort_internalEndpoint] at hnone
      exact haddress hnone
    exact handled_done (hlearned.of_eq rfl rfl)

theorem Safe.addConnection (hs : Safe h) {hubInfo : HubInfo} (hl : Located hubInfo) :
    Safe { h with connections := h.connections.addConnection hubInfo } := by
  have hheap : ∀ r, (h.connections.addConnection hubInfo).heap r =
      if r = h.connections.next then hubInfo else h.hubInfo r := fun r => Function.update_apply ..
  refine ⟨fun r hr => ?_, fun r => ?_, fun call hcall => ?_⟩
  · rcases List.mem_append.mp hr with hr | hr
    · exact Nat.lt_succ_of_lt (hs.lt r hr)
    · rw [List.mem_singleton.mp hr]
      exact Nat.lt_succ_self h.connections.next
  · rw [HubManager.hubInfo, hheap]
    split
    · exact hl
    · exact hs.located r
  · obtain ⟨hlt, hexternal, hrunning⟩ := hs.calls call hcall
    refine ⟨Nat.lt_succ_of_lt hlt, fun ht => ?_, hrunning⟩
    rw [hheap, if_neg (Nat.ne_of_lt hlt)]
    exact hexternal ht

theorem Safe.drop (hs : Safe h) {rs : List Ref} (hrs : rs ⊆ h.connections.connections) :
    Safe { h with connections := { h.connections with connections := rs } } := by
  refine ⟨fun r hr => hs.lt r (hrs hr), hs.located, fun call hcall => ?_⟩
  obtain ⟨hlt, hexternal, hrunning⟩ := hs.calls call hcall
  exact ⟨hlt, hexternal, hrunning⟩

theorem addresses_eq_nil {x : HubInfo} :
    (x.toHubInfoMessage fmt).internalAddresses.getD [] = [] ↔ x.internalAddresses = [] := by
  rw [HubInfo.toHubInfoMessage, Option.getD_some, List.map_eq_nil_iff]

theorem located_apply {x y : HubInfo} (hy : Located y)
    (hx : x.internalAddresses ≠ [] → x.internalEndpoint.isSome = true ∨ y.internalEndpoint.isSome = true)
    (message : HubInfoMessage) : Located (x.parsed.apply message y) := by
  intro h
  show (x.internalEndpoint <|> y.internalEndpoint).isSome = true
  by_cases hnil : x.internalAddresses = []
  · refine isSome_orElse _ (hy fun hy => h ?_)
    exact (if_pos hnil).trans hy
  · rcases hx hnil with hx | hy
    · obtain ⟨e, he⟩ := Option.isSome_iff_exists.mp hx
      rw [he]
      rfl
    · exact isSome_orElse _ hy

theorem handled_info (hf : fmt.Lawful) {x : HubInfo} {protocol : ProtocolType} {endpoint : Option IPEndPoint}
    (hs : Safe h) (hmeets : Meets h (.receive (.ok (some (x.toMessage fmt))) protocol endpoint)) :
    Handled (processInfo fmt (x.toHubInfoMessage fmt) h) := by
  have hparses := toMessage_parses hf x
  have hend : x.internalAddresses ≠ [] → x.internalEndpoint.isSome = true ∨
      ∃ r, h.connections.getConnection x.id = some r ∧ (h.hubInfo r).internalEndpoint.isSome = true := by
    intro hne
    refine (hmeets (addresses_eq_nil.not.mpr hne)).imp_left fun hsome => ?_
    rwa [HubInfo.toHubInfoMessage, Option.isSome_map] at hsome
  rw [processInfo]
  split
  · next hget =>
    have hl : Located x := by
      intro hne
      rcases hend hne with hsome | ⟨r, hsome, _⟩
      · exact hsome
      · rw [show h.connections.getConnection x.id = none from hget] at hsome
        cases hsome
    rw [ofMessage_of_parses hparses]
    have hadded : Safe { h with
        connections := h.connections.addConnection (x.parsed.create (x.toHubInfoMessage fmt)) } :=
      hs.addConnection hl
    exact handled_done (hadded.of_eq rfl rfl)
  · next r hget =>
    have hid : (h.hubInfo r).id = (x.toHubInfoMessage fmt).id := ConnectionManager.getConnection_id hget
    rw [update_of_parses hparses hid]
    have hr := hs.lt r (mem_of_getConnection hget)
    have hl : Located (x.parsed.apply (x.toHubInfoMessage fmt) (h.hubInfo r)) := by
      refine located_apply (hs.located r) (fun hne => (hend hne).imp_right ?_) _
      rintro ⟨r', hget', hsome⟩
      obtain rfl : r = r' := Option.some.inj (hget.symm.trans hget')
      exact hsome
    exact handled_done ((hs.store r _ hl (isSome_orElse _)).publishUpdated hr)

theorem handled_disconnected {tag : Option String} (htag : tag.isSome = true) (hs : Safe h) :
    Handled (processNotification { type := .Disconnected, tag := tag } h) := by
  obtain ⟨id, rfl⟩ := Option.isSome_iff_exists.mp htag
  simp only [processNotification]
  split
  · exact handled_done hs
  · next r hget =>
    exact handled_done ((hs.drop List.erase_subset).of_eq rfl rfl)

theorem handled_disconnectedGateway (hs : Safe h) : Handled h.disconnectedGateway := by
  rw [HubManager.disconnectedGateway]
  split
  · exact handled_done ((hs.drop (List.nil_subset _)).of_eq rfl rfl)
  · exact ⟨hs, fun h' heq => by cases heq⟩

theorem handled_shutdown (hs : Safe h) :
    Handled (processNotification { type := .ServerShutdown, tag := none } h) := by
  have hdown := handled_disconnectedGateway hs
  simp only [processNotification]
  cases hd : h.disconnectedGateway with
  | done h₁ =>
    rw [hd] at hdown
    exact handled_done (hdown.1.of_eq rfl rfl)
  | thrown e h₁ =>
    rw [hd] at hdown
    exact hdown

/-- **Every message that was produced** is handled, if the condition is met. -/
theorem handled_process (hf : fmt.Lawful) {m : BaseMessage} {protocol : ProtocolType}
    {endpoint : Option IPEndPoint} (hm : Produced fmt m) (hs : Safe h)
    (hmeets : Meets h (.receive (.ok (some m)) protocol endpoint)) :
    Handled (process (hubMaps fmt) (some ⟨m, protocol, endpoint, none⟩) h) := by
  rw [process_hubMaps]
  cases hm with
  | info x hx => exact handled_info hf hs hmeets
  | disconnected x hx => exact handled_disconnected (hx.named hf) hs
  | shutdown => exact handled_shutdown hs
  | ack a => exact handled_ack fmt hs hmeets
  | req r =>
    simp only [Req.toMessage, processReq]
    split
    · exact handled_done hs
    · next r hget =>
      have hstarting : Safe (h.publish (.connectionStarting (h.hubInfo r))) := hs.of_eq rfl rfl
      exact handled_done (hstarting.find _ (hs.lt r (mem_of_getConnection hget)))
  | broadcast b => exact handled_done hs
  | msg m =>
    simp only [Message.toMessage, processMessage]
    split
    · exact handled_done (hs.of_eq rfl rfl)
    · split
      · exact handled_done (hs.of_eq rfl rfl)
      · exact handled_done hs
  | keepAlive m => exact handled_done hs
  | test m => exact handled_done hs

/-! ### Steps -/

theorem safe_step (hf : fmt.Lawful) (hs : Safe h) {s : Step} (ha : Arises fmt h s) (hm : Meets h s) :
    Safe (step fmt h s) := by
  cases s with
  | receive message protocol endpoint =>
    rcases message with e | _ | message
    · exact hs
    · exact hs
    · exact (handled_process hf (ha.1 message rfl) hs hm).1
  | advance t =>
    rw [step]
    cases hadv : h.advance t with
    | none => exact hs
    | some h' => exact hs.advance hadv
  | connectToClient r => exact hs.connectToClient (hs.lt r ha)
  | connectGateway serverEndpoint localEndPoint => exact hs.of_eq rfl rfl
  | connectedGateway => exact (hs.sendMessageTCP _).of_eq rfl rfl
  | refusedGateway serverEndpoint => exact hs.of_eq rfl rfl
  | disconnectedGateway => exact (handled_disconnectedGateway hs).1
  | network connected writeFails => exact hs.of_eq rfl rfl

theorem nullSafe_of_meets (hf : fmt.Lawful) (hs : Safe h) {s : Step} (ha : Arises fmt h s)
    (hm : Meets h s) : NullSafe fmt h s := by
  have hafter := safe_step hf hs ha hm
  refine ⟨?_, fun call hcall => (hafter.calls call hcall).running, fun r _ => hafter.located r⟩
  intro hfails
  cases s with
  | receive message protocol endpoint =>
    rcases message with e | _ | message
    · exact hfails
    · exact hfails
    · obtain ⟨h', hthrown⟩ := hfails
      exact (handled_process hf (ha.1 message rfl) hs hm).2 h' hthrown
  | _ => exact hfails

variable (fmt) in
theorem processAck_adds {msg : AckMessage} {r : Ref} {known source : IPEndPoint}
    (hresponse : msg.response = false) (hget : h.connections.getConnection msg.id = some r)
    (hknown : (h.hubInfo r).externalEndpoint = some known) (hne : known.address ≠ source.address)
    (hnil : (h.hubInfo r).internalAddresses = []) :
    (processAck fmt msg (some source) h).state.connections =
      h.connections.store r { h.hubInfo r with internalAddresses := [source.address] } := by
  have hport : learnPort r known source h = h := if_neg fun heq => hne heq.1
  have haddress : learnAddress fmt r known source h =
      h.store r { h.hubInfo r with internalAddresses := [source.address] } := by
    rw [learnAddress, hnil]
    exact if_pos ⟨hne, by simp⟩
  simp only [processAck, hresponse, hget, hknown, Bool.false_eq_true, if_false, hport, haddress]
  rfl

theorem processInfo_entry (hf : fmt.Lawful) {x : HubInfo} (hne : x.internalAddresses ≠ [])
    (hend : x.internalEndpoint = none)
    (hnone : ∀ r, h.connections.getConnection x.id = some r → (h.hubInfo r).internalEndpoint = none) :
    ∃ r ∈ (processInfo fmt (x.toHubInfoMessage fmt) h).state.connections.connections,
      ¬ Located ((processInfo fmt (x.toHubInfoMessage fmt) h).state.hubInfo r) := by
  have hparses := toMessage_parses hf x
  have hentry : ∀ {y : HubInfo}, y.internalAddresses = x.internalAddresses → y.internalEndpoint = none →
      ¬ Located y := by
    intro y haddresses hy hl
    have hsome := hl (haddresses ▸ hne)
    rw [hy] at hsome
    cases hsome
  rw [processInfo]
  split
  · rw [ofMessage_of_parses hparses]
    refine ⟨h.connections.next, List.mem_append_right _ (List.mem_singleton_self _), ?_⟩
    rw [Outcome.state_done, HubManager.hubInfo]
    show ¬ Located ((h.connections.addConnection _).heap h.connections.next)
    rw [ConnectionManager.addConnection_heap_next]
    exact hentry rfl hend
  · next r hget =>
    have hid : (h.hubInfo r).id = (x.toHubInfoMessage fmt).id := ConnectionManager.getConnection_id hget
    rw [update_of_parses hparses hid]
    have hmem : r ∈ h.connections.connections := mem_of_getConnection hget
    have hconnections : ∀ y, ((h.store r y).publishUpdated r).connections = h.connections.store r y :=
      fun y => HubManager.publishUpdated_connections ..
    simp only [Outcome.state_done]
    refine ⟨r, by rw [hconnections]; exact hmem, ?_⟩
    rw [HubManager.hubInfo, hconnections, ConnectionManager.store_heap_self]
    refine hentry (if_neg hne) ?_
    show (x.internalEndpoint <|> (h.hubInfo r).internalEndpoint) = none
    rw [hend, hnone r hget]
    rfl

/-- **A request that cannot be answered** dereferences null, or leaves an entry on which
`FindReachableEndpoint` will; so does a `HubInfo` with nowhere to try its addresses. -/
theorem meets_of_nullSafe (hf : fmt.Lawful) (hs : Safe h) {s : Step} (ha : Arises fmt h s)
    (hn : NullSafe fmt h s) : Meets h s := by
  cases s with
  | receive message protocol endpoint =>
    rcases message with e | _ | message
    · trivial
    · trivial
    · cases message with
      | ack msg =>
        intro hresponse
        have hhandler : ∀ h', processAck fmt msg endpoint h ≠ .thrown .nullReference h' := by
          intro h' hthrown
          exact hn.handler ⟨h', by rw [process_hubMaps]; exact hthrown⟩
        cases hget : h.connections.getConnection msg.id with
        | none =>
          refine absurd ?_ (hhandler h)
          simp only [processAck, hresponse, hget, Bool.false_eq_true, if_false]
        | some r =>
          cases hknown : (h.hubInfo r).externalEndpoint with
          | none =>
            refine absurd ?_ (hhandler h)
            simp only [processAck, hresponse, hget, hknown, Bool.false_eq_true, if_false]
          | some known =>
            cases endpoint with
            | none =>
              refine absurd ?_ (hhandler h)
              simp only [processAck, hresponse, hget, hknown, Bool.false_eq_true, if_false]
            | some source =>
              refine ⟨r, known, source, rfl, hknown, rfl, fun hnone => ?_⟩
              by_contra hne
              have hnil : (h.hubInfo r).internalAddresses = [] := by
                by_contra hsome
                have hend := hs.located r hsome
                rw [hnone] at hend
                cases hend
              -- the entry gets an address, and has no endpoint to go with it
              have hadds := processAck_adds fmt hresponse hget hknown hne hnil
              have hlocated := hn.entries r
              rw [step, HubManager.listen_some, process_hubMaps] at hlocated
              change r ∈ (processAck fmt msg (some source) h).state.connections.connections →
                Located ((processAck fmt msg (some source) h).state.hubInfo r) at hlocated
              rw [HubManager.hubInfo, hadds, ConnectionManager.store_heap_self] at hlocated
              have hmem : r ∈ h.connections.connections := mem_of_getConnection hget
              have hend := hlocated hmem (by simp)
              rw [hnone] at hend
              cases hend
      | info msg =>
        intro hne
        have hproduced := ha.1 _ rfl
        generalize hmessage : BaseMessage.info msg = message at hproduced
        cases hproduced with
        | info x hx =>
          cases hmessage
          by_contra hnot
          rw [not_or] at hnot
          have hend : x.internalEndpoint = none := by
            rw [← Option.not_isSome_iff_eq_none]
            simpa [HubInfo.toHubInfoMessage] using hnot.1
          obtain ⟨r, hr, hl⟩ := processInfo_entry hf (addresses_eq_nil.not.mp hne) hend fun r hget => by
            rw [← Option.not_isSome_iff_eq_none]
            exact fun hsome => hnot.2 ⟨r, hget, hsome⟩
          have hlocated := hn.entries r
          rw [step, HubManager.listen_some, process_hubMaps] at hlocated
          exact hl (hlocated hr)
        | _ => cases hmessage
      | _ => trivial
  | _ => trivial

theorem nullSafe_step_iff (hf : fmt.Lawful) (hs : Safe h) {s : Step} (ha : Arises fmt h s) :
    NullSafe fmt h s ↔ Meets h s :=
  ⟨meets_of_nullSafe hf hs ha, nullSafe_of_meets hf hs ha⟩

/-- **No null reference, at any step of a run**, exactly if every request for an
acknowledgement can be answered when it is taken, and every `HubInfo` has a port for its addresses. -/
theorem null_safe_iff (hf : fmt.Lawful) {h₀ : HubManager} (hempty : h₀.connections = .empty)
    (hcalls : h₀.calls = []) {steps : List Step} (harises : AllSteps (step fmt) (Arises fmt) h₀ steps) :
    AllSteps (step fmt) (NullSafe fmt) h₀ steps ↔ AllSteps (step fmt) Meets h₀ steps := by
  refine allSteps_iff (I := Safe) (fun h s hs ha => nullSafe_step_iff hf hs ha)
    (fun h s hs ha hm => safe_step hf hs ha hm) ⟨fun r hr => ?_, fun r => ?_, fun call hcall => ?_⟩ harises
  · rw [hempty] at hr
    cases hr
  · rw [HubManager.hubInfo, hempty]
    exact fun hne => absurd rfl hne
  · rw [hcalls] at hcall
    cases hcall

def peer : HubInfo where
  id := some "a"
  externalEndpoint := some ⟨⟨[10, 0, 0, 1], Or.inl rfl⟩, 6000⟩
  internalEndpoint := some ⟨⟨[10, 0, 0, 1], Or.inl rfl⟩, 6000⟩
  internalAddresses := [⟨[10, 0, 0, 1], Or.inl rfl⟩]

def heard : Step := .receive (.ok (some (peer.toMessage dottedText))) .Tcp none

def asked : Step := .receive (.ok (some (Ack.new peer.id).toMessage)) .Udp peer.externalEndpoint

theorem null_safe_heard :
    AllSteps (step dottedText) (NullSafe dottedText) connectedHub [heard, asked] := by
  have harises : AllSteps (step dottedText) (Arises dottedText) connectedHub [heard, asked] := by
    refine ⟨⟨fun m hm => ?_, by decide⟩, ⟨fun m hm => ?_, by decide⟩, trivial⟩
    · cases hm
      exact .info peer (.whole peer rfl)
    · cases hm
      exact .ack (Ack.new peer.id)
  refine (null_safe_iff dottedText_lawful rfl rfl harises).mpr ⟨fun _ => Or.inl rfl, fun _ => ?_, trivial⟩
  refine ⟨0, ⟨⟨[10, 0, 0, 1], Or.inl rfl⟩, 6000⟩, _, ?_, ?_, rfl, fun _ => rfl⟩
  · decide +kernel
  · decide +kernel

/-- **A hub that asks before it is heard of** is dereferenced all the same. -/
theorem asked_too_early :
    ¬ ∀ (fmt : TextFormat) (h₀ : HubManager) (steps : List Step), fmt.Lawful → h₀.connections = .empty →
      h₀.calls = [] → AllSteps (step fmt) (Arises fmt) h₀ steps →
        AllSteps (step fmt) (NullSafe fmt) h₀ steps := by
  intro hall
  have hsafe := hall dottedText connectedHub [asked] dottedText_lawful rfl rfl
    ⟨⟨fun m hm => by cases hm; exact .ack (Ack.new peer.id), by decide⟩, trivial⟩
  refine hsafe.1.handler ⟨connectedHub, ?_⟩
  rw [process_hubMaps]
  rfl

end Blockcore.Hub.NullSafety
