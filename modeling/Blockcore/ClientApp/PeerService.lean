import Blockcore.Lib.JsArray
import Blockcore.Lib.Runs

/-!
# The web client's peers

`PeerService` keeps a list of peers and follows the events of its hub: one adds a
peer, one removes it, two replace it.

What the list should be is `reference`.  `faithful_iff` says when it is: `splice` is
called without a count and removes all from the peer on, and the last peer if there
is none to remove.
-/

namespace Blockcore.ClientApp

open Lib

/-- `HubEvent`; its `data` is any. -/
structure HubEvent (Data : Type) where
  eventName : String
  data : Data
  deriving DecidableEq

section

variable {Data Id : Type} [DecidableEq Id] (id : Data → Id)

/-- What the service does with an event; `id` is `data.id`. -/
def eventReceived (peers : JsArray (HubEvent Data)) (message : HubEvent Data) :
    JsArray (HubEvent Data) :=
  if message.eventName = "ConnectionAddedEvent" then peers.push message
  else if message.eventName = "ConnectionRemovedEvent" then
    let indexToRemove := peers.findIndex fun p => id p.data == id message.data
    peers.splice indexToRemove
  else if message.eventName = "ConnectionUpdatedEvent" then
    let indexToUpdate := peers.findIndex fun p => id p.data == id message.data
    peers.assign indexToUpdate message
  else if message.eventName = "ConnectionStartedEvent" then
    let indexToUpdate := peers.findIndex fun p => id p.data == id message.data
    peers.assign indexToUpdate message
  else peers

/-- `PeerService.peers`, after these events. -/
def peers (messages : List (HubEvent Data)) : JsArray (HubEvent Data) :=
  messages.foldl (eventReceived id) .empty

/-- What an event should do: add the peer; remove it, and no other; put the event in its
place. -/
def follow (peers : List (HubEvent Data)) (message : HubEvent Data) : List (HubEvent Data) :=
  if message.eventName = "ConnectionAddedEvent" then peers ++ [message]
  else if message.eventName = "ConnectionRemovedEvent" then
    peers.filter fun p => id p.data ≠ id message.data
  else if message.eventName = "ConnectionUpdatedEvent" ∨ message.eventName = "ConnectionStartedEvent" then
    peers.map fun p => if id p.data = id message.data then message else p
  else peers

def reference (messages : List (HubEvent Data)) : List (HubEvent Data) :=
  messages.foldl (follow id) []

def ids (peers : List (HubEvent Data)) : List Id := peers.map fun p => id p.data

def Fresh (peers : List (HubEvent Data)) (message : HubEvent Data) : Prop :=
  message.eventName = "ConnectionAddedEvent" → id message.data ∉ ids id peers

/-- A peer that is removed is the last one, or there is none. -/
def RemovesLast (peers : List (HubEvent Data)) (message : HubEvent Data) : Prop :=
  message.eventName = "ConnectionRemovedEvent" → ∀ p ∈ peers.getLast?, id p.data = id message.data

instance (peers : List (HubEvent Data)) (message : HubEvent Data) : Decidable (Fresh id peers message) :=
  inferInstanceAs (Decidable (_ → _))

variable {id} {l as bs : List (HubEvent Data)} {a message : HubEvent Data}

theorem cut_at (hl : (ids id l).Nodup) (message : HubEvent Data) :
    (∀ p ∈ l, id p.data ≠ id message.data) ∨
      ∃ as a bs, l = as ++ a :: bs ∧ id a.data = id message.data ∧
        (∀ p ∈ as, id p.data ≠ id message.data) ∧ ∀ p ∈ bs, id p.data ≠ id message.data := by
  by_cases h : ∃ a ∈ l, id a.data = id message.data
  · obtain ⟨a, ha, hid⟩ := h
    obtain ⟨as, bs, rfl⟩ := List.append_of_mem ha
    rw [ids, List.map_append, List.map_cons, List.nodup_append, List.nodup_cons] at hl
    obtain ⟨_, ⟨hbs, _⟩, has⟩ := hl
    refine Or.inr ⟨as, a, bs, rfl, hid, fun p hp heq => ?_, fun p hp heq => ?_⟩
    · exact has _ (List.mem_map_of_mem hp) _ (List.mem_cons_self ..) (heq.trans hid.symm)
    · refine hbs ?_
      rw [hid, ← heq]
      exact List.mem_map_of_mem hp
  · push Not at h
    exact Or.inl h

theorem filter_of_none (h : ∀ p ∈ l, id p.data ≠ id message.data) :
    (l.filter fun p => id p.data ≠ id message.data) = l :=
  List.filter_eq_self.mpr fun p hp => by simpa using h p hp

theorem map_of_none (h : ∀ p ∈ l, id p.data ≠ id message.data) :
    (l.map fun p => if id p.data = id message.data then message else p) = l := by
  conv_rhs => rw [← List.map_id l]
  exact List.map_congr_left fun p hp => if_neg (h p hp)

theorem nodup_follow (hl : (ids id l).Nodup) (hfresh : Fresh id l message) :
    (ids id (follow id l message)).Nodup := by
  rw [follow]
  split
  · next hadded =>
    rw [ids, List.map_append, List.nodup_append]
    refine ⟨hl, List.nodup_singleton _, fun x hx y hy => ?_⟩
    rw [List.map_singleton, List.mem_singleton] at hy
    rintro rfl
    exact hfresh hadded (hy ▸ hx)
  · split
    · exact hl.sublist (List.filter_sublist.map _)
    · split
      · have hmap : ids id (l.map fun p => if id p.data = id message.data then message else p) =
            ids id l := by
          rw [ids, List.map_map]
          refine List.map_congr_left fun p _ => ?_
          rw [Function.comp]
          split
          · next hid => exact hid.symm
          · rfl
        rw [hmap]
        exact hl
      · exact hl

theorem beq_of_none (h : ∀ p ∈ l, id p.data ≠ id message.data) :
    ∀ p ∈ l, (fun p => id p.data == id message.data) p = false :=
  fun p hp => beq_eq_false_iff_ne.mpr (h p hp)

/-- **An event that replaces a peer** does just that. -/
theorem assign_eq_map {xs : JsArray (HubEvent Data)} (hl : (ids id xs.elements).Nodup)
    (message : HubEvent Data) :
    (xs.assign (xs.findIndex fun p => id p.data == id message.data) message).elements =
      xs.elements.map fun p => if id p.data = id message.data then message else p := by
  rcases cut_at hl message with hnone | ⟨as, a, bs, heq, hid, has, hbs⟩
  · rw [JsArray.assign_of_none (beq_of_none hnone), map_of_none hnone]
  · have ha : (fun p => id p.data == id message.data) a = true := beq_iff_eq.mpr hid
    rw [JsArray.assign_of_cut heq ha (beq_of_none has), heq, List.map_append, List.map_cons,
      map_of_none has, map_of_none hbs, if_pos hid]

/-- **An event that removes a peer** does just that if it is the last one, or if there is
no peer at all. -/
theorem splice_eq_filter_iff {xs : JsArray (HubEvent Data)} (hl : (ids id xs.elements).Nodup)
    (message : HubEvent Data) :
    (xs.splice (xs.findIndex fun p => id p.data == id message.data)).elements =
        xs.elements.filter (fun p => id p.data ≠ id message.data) ↔
      ∀ p ∈ xs.elements.getLast?, id p.data = id message.data := by
  rcases cut_at hl message with hnone | ⟨as, a, bs, heq, hid, has, hbs⟩
  · rw [JsArray.splice_of_none (beq_of_none hnone), filter_of_none hnone]
    refine ⟨?_, ?_⟩
    · intro heq p hp
      have hlen := congrArg List.length heq
      have hpos := List.length_pos_of_mem (List.mem_of_getLast? hp)
      rw [List.length_dropLast] at hlen
      omega
    · intro hlast
      cases hp : xs.elements.getLast? with
      | none => rw [List.getLast?_eq_none_iff.mp hp, List.dropLast_nil]
      | some p => exact absurd (hlast p hp) (hnone p (List.mem_of_getLast? hp))
  · have hfilter : xs.elements.filter (fun p => id p.data ≠ id message.data) = as ++ bs := by
      rw [heq, List.filter_append, List.filter_cons, filter_of_none has, filter_of_none hbs,
        if_neg (by simpa using hid)]
    have ha : (fun p => id p.data == id message.data) a = true := beq_iff_eq.mpr hid
    rw [JsArray.splice_of_cut heq ha (beq_of_none has), hfilter, heq]
    cases bs using List.reverseRecOn with
    | nil =>
      refine iff_of_true (List.append_nil as).symm fun p hp => ?_
      rw [List.getLast?_concat] at hp
      rwa [← Option.some.inj hp]
    | append_singleton bs b =>
      refine iff_of_false (fun h => ?_) fun h => ?_
      · have hlen := congrArg List.length h
        simp only [List.length_append, List.length_singleton] at hlen
        omega
      · refine hbs b (by simp) (h b ?_)
        rw [← List.cons_append, ← List.append_assoc, List.getLast?_concat]
        rfl

/-- **One event** is followed exactly if it removes no peer but the last. -/
theorem follows_iff {xs : JsArray (HubEvent Data)} (hl : (ids id xs.elements).Nodup)
    (message : HubEvent Data) :
    (eventReceived id xs message).elements = follow id xs.elements message ↔
      RemovesLast id xs.elements message := by
  rw [eventReceived, follow, RemovesLast]
  by_cases hadded : message.eventName = "ConnectionAddedEvent"
  · simp [hadded, JsArray.push]
  · by_cases hremoved : message.eventName = "ConnectionRemovedEvent"
    · rw [if_neg hadded, if_neg hadded, if_pos hremoved, if_pos hremoved,
        splice_eq_filter_iff hl message]
      exact ⟨fun h _ => h, fun h => h hremoved⟩
    · rw [if_neg hadded, if_neg hadded, if_neg hremoved, if_neg hremoved]
      refine iff_of_true ?_ fun h => absurd h hremoved
      have hassign := assign_eq_map hl message
      by_cases hupdated : message.eventName = "ConnectionUpdatedEvent"
      · rw [if_pos hupdated, if_pos (Or.inl hupdated)]
        exact hassign
      · by_cases hstarted : message.eventName = "ConnectionStartedEvent"
        · rw [if_neg hupdated, if_pos hstarted, if_pos (Or.inr hstarted)]
          exact hassign
        · rw [if_neg hupdated, if_neg hstarted, if_neg (by simp [hupdated, hstarted])]

end

/-- **The list of peers is the fold of the events**, all along, exactly if every peer that
is removed is the last one of the list. -/
theorem faithful_iff {Data Id : Type} [DecidableEq Id] (id : Data → Id)
    {messages : List (HubEvent Data)}
    (hfresh : ∀ done m, done ++ [m] <+: messages → Fresh id (reference id done) m) :
    (∀ done, done <+: messages → (peers id done).elements = reference id done) ↔
      ∀ done m, done ++ [m] <+: messages → RemovesLast id (reference id done) m := by
  refine prefixes_all_iff (I := fun done => (ids id (reference id done)).Nodup)
    (Q := fun done => (peers id done).elements = reference id done) _
    (fun done m hm hl => ?_) (fun done m _ hl heq => ?_) List.nodup_nil rfl hfresh
  · rw [reference, List.foldl_concat]
    exact nodup_follow hl hm
  · rw [peers, reference, List.foldl_concat, List.foldl_concat]
    change _ = follow id (reference id done) m ↔ _
    rw [← heq] at hl ⊢
    exact follows_iff hl m

/-- Hubs that come and go, of which only the id is told. -/
def hubAdded (id : String) : HubEvent String := ⟨"ConnectionAddedEvent", id⟩

def hubRemoved (id : String) : HubEvent String := ⟨"ConnectionRemovedEvent", id⟩

theorem faithful_iff_last :
    (∀ done, done <+: [hubAdded "a", hubAdded "b", hubRemoved "b"] →
      (peers (fun id => id) done).elements = reference (fun id => id) done) ↔
      ∀ done m, done ++ [m] <+: [hubAdded "a", hubAdded "b", hubRemoved "b"] →
        RemovesLast (fun id => id) (reference (fun id => id) done) m :=
  faithful_iff (fun id => id) (concat_prefix_iff.mpr (by decide))

/-- **Removing the first of two peers** removes both. -/
theorem first_removed :
    ¬ ∀ messages : List (HubEvent String),
      (∀ done m, done ++ [m] <+: messages → Fresh (fun id => id) (reference (fun id => id) done) m) →
        (peers (fun id => id) messages).elements = reference (fun id => id) messages := by
  intro h
  have heq := h [hubAdded "a", hubAdded "b", hubRemoved "a"] (concat_prefix_iff.mpr (by decide))
  exact absurd heq (by decide)

end Blockcore.ClientApp
