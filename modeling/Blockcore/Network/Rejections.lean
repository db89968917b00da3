import Blockcore.Gateway.Workers
import Blockcore.Hub.Handlers
import Blockcore.Networking.DottedText

/-!
# Messages that do not parse

`HubInfo.Update` assigns and parses in turn, so a text that does not parse ends it with
what stands before assigned, and the list of addresses emptied.  Neither a gateway nor a
hub undoes it.

`rejected_iff` says when nothing has changed then: where all that was assigned was there
before.
-/

namespace Blockcore.Network.Rejections

open Lib Networking

section

variable (fmt : TextFormat)

/-- The addresses before the first text that does not parse. -/
def parsedBefore : List (Option String) → List IPAddress
  | [] => []
  | addr :: addresses =>
    match parseAddress fmt addr with
    | .error _ => []
    | .ok a => a :: parsedBefore addresses

/-- All that is assigned before the text that does not parse is there already: the name;
behind a connection type that parses that type and the first name; behind an external
endpoint that parses that endpoint, unless it is blank; the same of the internal one; and
behind it the addresses before the one that does not parse. -/
def SameSoFar (h : HubInfo) (message : HubInfoMessage) : Prop :=
  h.name = message.name ∧
  ∀ type, parseConnectionType fmt message.connectionType = .ok type →
    h.connectionType = type ∧ h.firstName = message.firstName ∧
    ∀ external, parseEndpoint fmt message.externalEndpoint = .ok external →
      (∀ e ∈ external, h.externalEndpoint = some e) ∧
      ∀ internal, parseEndpoint fmt message.internalEndpoint = .ok internal →
        (∀ e ∈ internal, h.internalEndpoint = some e) ∧
        h.internalAddresses = parsedBefore fmt (message.internalAddresses.getD [])

def Rejected (message : HubInfoMessage) : Prop := ¬ ∃ p, Parses fmt message p

variable {fmt} {h : HubInfo} {message : HubInfoMessage}

theorem addAddresses_state (addresses : List (Option String)) (h : HubInfo) :
    (HubInfo.addAddresses fmt addresses h).state =
      { h with internalAddresses := h.internalAddresses ++ parsedBefore fmt addresses } := by
  induction addresses generalizing h with
  | nil => simp [HubInfo.addAddresses, parsedBefore]
  | cons addr addresses ih =>
    rw [HubInfo.addAddresses, Outcome.forEach_cons, parsedBefore]
    cases hp : parseAddress fmt addr with
    | error e => simp [HubInfo.assign]
    | ok a =>
      have hrest := ih { h with internalAddresses := h.internalAddresses ++ [a] }
      rw [List.append_assoc, List.singleton_append] at hrest
      exact hrest

theorem endpoint_kept_iff {e known : Option IPEndPoint} :
    known = (e <|> known) ↔ ∀ x ∈ e, known = some x := by
  cases e with
  | none => simp
  | some x => simp

theorem assigned_eq_iff (h : HubInfo) (name firstName : Option String) (type : ConnectionTypes)
    (external internal : Option IPEndPoint) (addresses : List IPAddress) :
    { h with name := name, connectionType := type, firstName := firstName,
             externalEndpoint := external, internalEndpoint := internal,
             internalAddresses := addresses } = h ↔
      h.name = name ∧ h.connectionType = type ∧ h.firstName = firstName ∧
        h.externalEndpoint = external ∧ h.internalEndpoint = internal ∧
        h.internalAddresses = addresses := by
  refine ⟨?_, ?_⟩
  · intro heq
    rw [← heq]
    exact ⟨rfl, rfl, rfl, rfl, rfl, rfl⟩
  · rintro ⟨rfl, rfl, rfl, rfl, rfl, rfl⟩
    rfl

/-- **An update by a message that is rejected** leaves what it assigned. -/
theorem update_state_iff (hid : h.id = message.id) (hr : Rejected fmt message) :
    (h.update fmt message).state = h ↔ SameSoFar fmt h message := by
  rw [HubInfo.update, if_pos hid, SameSoFar]
  cases ht : parseConnectionType fmt message.connectionType with
  | error e =>
    refine (assigned_eq_iff h message.name h.firstName h.connectionType _ _ _).trans ?_
    simp
  | ok type =>
    cases he : parseEndpoint fmt message.externalEndpoint with
    | error e =>
      refine (assigned_eq_iff h message.name message.firstName type _ _ _).trans ?_
      simp
    | ok external =>
      cases hi : parseEndpoint fmt message.internalEndpoint with
      | error e =>
        refine (assigned_eq_iff h message.name message.firstName type
          (external <|> h.externalEndpoint) _ _).trans ?_
        rw [endpoint_kept_iff]
        simp
      | ok internal =>
        -- an address does not parse, so there is one
        cases ha : message.internalAddresses with
        | none => exact absurd ⟨⟨_, _, _, []⟩, he, hi, ht, by rw [ha]; rfl⟩ hr
        | some texts =>
          cases texts with
          | nil => exact absurd ⟨⟨_, _, _, []⟩, he, hi, ht, by rw [ha]; rfl⟩ hr
          | cons addr addresses =>
            simp only [HubInfo.assign, Outcome.done_andThen, addAddresses_state, List.nil_append]
            refine (assigned_eq_iff h message.name message.firstName type
              (external <|> h.externalEndpoint) (internal <|> h.internalEndpoint) _).trans ?_
            rw [endpoint_kept_iff, endpoint_kept_iff]
            simp

theorem update_threw (hid : h.id = message.id) (hr : Rejected fmt message) :
    (h.update fmt message).threw = true := by
  cases hu : h.update fmt message with
  | done h' => exact absurd (parses_of_update hid hu) hr
  | thrown e h' => rfl

theorem ofMessage_error (hr : Rejected fmt message) : ∃ e, HubInfo.ofMessage fmt message = .error e := by
  cases hm : HubInfo.ofMessage fmt message with
  | error e => exact ⟨e, rfl⟩
  | ok h => exact absurd (parses_of_ofMessage hm) hr

/-- **A gateway's registry** after a message that is rejected. -/
theorem gateway_unchanged_iff (hr : Rejected fmt message) (g : Gateway.GatewayManager) :
    (Gateway.step fmt g (.udp (.ok (some (.info message))))).connections = g.connections ↔
      ∀ x i, g.getConnection message.id = some (x, i) → SameSoFar fmt x message := by
  rw [Gateway.step_udp, Gateway.attempt_info, Gateway.processInfo]
  cases hget : g.getConnection message.id with
  | none =>
    obtain ⟨e, he⟩ := ofMessage_error hr
    rw [he]
    simp
  | some found =>
    obtain ⟨x, i⟩ := found
    obtain ⟨as, bs, hcut, rfl⟩ := cutAt_of_some hget
    have hid : x.id = message.id := hcut.key_found x rfl
    have hl : g.connections = as ++ x :: bs := hcut.eq
    have hiff := update_state_iff hid hr
    have hthrew := update_threw hid hr
    cases hu : x.update fmt message with
    | done x' => rw [hu] at hthrew; cases hthrew
    | thrown e x' =>
      rw [hu, Outcome.state_thrown] at hiff
      simp only [hu, Outcome.state_thrown, Gateway.GatewayManager.store, hl, set_cut]
      rw [List.append_cancel_left_eq, List.cons.injEq, and_iff_left rfl, hiff]
      refine ⟨?_, ?_⟩
      · intro hsame y j hy
        rw [← (Prod.mk.inj (Option.some.inj hy)).1]
        exact hsame
      · exact fun hall => hall x as.length rfl

/-- **A hub's registry** after a message that is rejected. -/
theorem hub_unchanged_iff (hr : Rejected fmt message) (hub : Hub.HubManager) (protocol : ProtocolType)
    (endpoint : Option IPEndPoint) :
    (hub.listen fmt (.ok (some (.info message))) protocol endpoint).connections = hub.connections ↔
      ∀ r, hub.connections.getConnection message.id = some r → SameSoFar fmt (hub.hubInfo r) message := by
  rw [Hub.HubManager.listen_some, Hub.process_hubMaps]
  simp only [Hub.processInfo]
  cases hget : hub.connections.getConnection message.id with
  | none =>
    obtain ⟨e, he⟩ := ofMessage_error hr
    rw [he]
    simp
  | some r =>
    have hid : (hub.hubInfo r).id = message.id := ConnectionManager.getConnection_id hget
    have hiff := update_state_iff hid hr
    have hthrew := update_threw hid hr
    cases hu : (hub.hubInfo r).update fmt message with
    | done x' => rw [hu] at hthrew; cases hthrew
    | thrown e x' =>
      rw [hu, Outcome.state_thrown] at hiff
      have hstore : (hub.store r x').connections = hub.connections ↔ x' = hub.hubInfo r := by
        refine ⟨?_, ?_⟩
        · intro heq
          have hheap := congrArg (fun s => s.heap r) heq
          rwa [Hub.HubManager.store, ConnectionManager.store_heap_self] at hheap
        · rintro rfl
          simp [Hub.HubManager.store, ConnectionManager.store, Hub.HubManager.hubInfo]
      simp only [hu, Outcome.state_thrown]
      rw [hstore, hiff]
      refine ⟨?_, ?_⟩
      · intro hsame r' hr'
        rw [← Option.some.inj hr']
        exact hsame
      · exact fun hall => hall r rfl

end

/-- **A message that does not parse changes nothing**, of an object, of a gateway that
takes it as a datagram or of a hub, exactly if all it assigns before it throws was there. -/
theorem rejected_iff (fmt : TextFormat) {message : HubInfoMessage} (hr : Rejected fmt message) :
    (∀ h : HubInfo, h.id = message.id → (h.update fmt message).threw = true ∧
      ((h.update fmt message).state = h ↔ SameSoFar fmt h message)) ∧
    (∀ g : Gateway.GatewayManager,
      (Gateway.step fmt g (.udp (.ok (some (.info message))))).connections = g.connections ↔
        ∀ x i, g.getConnection message.id = some (x, i) → SameSoFar fmt x message) ∧
    ∀ (hub : Hub.HubManager) (protocol : ProtocolType) (endpoint : Option IPEndPoint),
      (hub.listen fmt (.ok (some (.info message))) protocol endpoint).connections = hub.connections ↔
        ∀ r, hub.connections.getConnection message.id = some r →
          SameSoFar fmt (hub.hubInfo r) message :=
  ⟨fun _ hid => ⟨update_threw hid hr, update_state_iff hid hr⟩, gateway_unchanged_iff hr,
    hub_unchanged_iff hr⟩

def known : HubInfo where
  id := some "a"
  internalAddresses := [⟨[10, 0, 3, 1], Or.inl rfl⟩]

/-- A message of it with an address that does not parse. -/
def garbled : HubInfoMessage where
  id := some "a"
  connectionType := some "Unknown"
  internalAddresses := some [some "x"]

theorem garbled_rejected : Rejected dottedText garbled := by
  rintro ⟨p, hp⟩
  have ha := hp.internalAddresses
  rw [show (garbled.internalAddresses.getD []).mapM (parseAddress dottedText) = .error .format by
    decide] at ha
  cases ha

/-- A hub of which no address is known loses none. -/
theorem rejected_iff_garbled :
    (({ id := some "a" } : HubInfo).update dottedText garbled).state = { id := some "a" } := by
  refine ((rejected_iff dottedText garbled_rejected).1 _ rfl).2.mpr ⟨rfl, fun type ht => ?_⟩
  refine ⟨Except.ok.inj ht, rfl, fun external he => ?_⟩
  obtain rfl := Except.ok.inj he
  refine ⟨by simp, fun internal hi => ?_⟩
  obtain rfl := Except.ok.inj hi
  exact ⟨by simp, by decide⟩

/-- **The addresses that were known are lost.** -/
theorem addresses_lost :
    ¬ ∀ (fmt : TextFormat) (h : HubInfo) (message : HubInfoMessage), h.id = message.id →
      Rejected fmt message → (h.update fmt message).state = h := by
  intro hall
  have hsame := hall dottedText known garbled rfl garbled_rejected
  exact absurd hsame (by decide)

end Blockcore.Network.Rejections
