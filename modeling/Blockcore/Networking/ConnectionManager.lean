import Blockcore.Lib.Registry
import Blockcore.Networking.Entities

/-!
# The list of hubs, shared

`ConnectionManager` is the list of `HubInfo` objects that a gateway's or a hub's
threads share.  A thread keeps a reference to an object while others change it or
take it off the list, so the objects are in a heap here and the list holds
references.

The `Id` of an object never changes; so what the list's ids are only an
`AddConnection`, a `RemoveConnection` or a `ClearConnections` can change.
-/

namespace Blockcore.Networking

open Lib

/-- A reference to a `HubInfo`. -/
abbrev Ref := Nat

/-- `ConnectionManager`, with the objects; those from `next` on are not made. -/
structure ConnectionManager where
  heap : Ref → HubInfo
  next : Ref
  connections : List Ref

namespace ConnectionManager

def empty : ConnectionManager where
  heap _ := {}
  next := 0
  connections := []

def entries (s : ConnectionManager) : List HubInfo := s.connections.map s.heap

def ids (s : ConnectionManager) : List (Option String) := s.entries.map HubInfo.id

def store (s : ConnectionManager) (r : Ref) (hubInfo : HubInfo) : ConnectionManager :=
  { s with heap := Function.update s.heap r hubInfo }

/-- `GetConnection(string)`. -/
def getConnection (s : ConnectionManager) (id : Option String) : Option Ref :=
  s.connections.find? (fun r => (s.heap r).id == id)

/-- `GetConnection(TcpClient)`. -/
def getConnectionOf (s : ConnectionManager) (client : TcpClient) : Option Ref :=
  s.connections.find? (fun r => (s.heap r).client == some client)

/-- `AddConnection`, of a new object. -/
def addConnection (s : ConnectionManager) (hubInfo : HubInfo) : ConnectionManager :=
  { heap := Function.update s.heap s.next hubInfo, next := s.next + 1,
    connections := s.connections ++ [s.next] }

/-- `RemoveConnection`. -/
def removeConnection (s : ConnectionManager) (r : Ref) : ConnectionManager :=
  { s with connections := s.connections.erase r }

/-- `ClearConnections`. -/
def clearConnections (s : ConnectionManager) : ConnectionManager := { s with connections := [] }

/-- The references of the list are of objects that were made, each its own. -/
structure Made (s : ConnectionManager) : Prop where
  lt : ∀ r ∈ s.connections, r < s.next
  nodup : s.connections.Nodup

variable {s : ConnectionManager}

theorem ids_eq (s : ConnectionManager) : s.ids = s.connections.map (fun r => (s.heap r).id) := by
  rw [ids, entries, List.map_map]
  rfl

@[simp] theorem store_connections (s : ConnectionManager) (r : Ref) (h : HubInfo) :
    (s.store r h).connections = s.connections := rfl
@[simp] theorem store_heap_self (s : ConnectionManager) (r : Ref) (h : HubInfo) :
    (s.store r h).heap r = h := Function.update_self ..
@[simp] theorem addConnection_heap_next (s : ConnectionManager) (h : HubInfo) :
    (s.addConnection h).heap s.next = h := Function.update_self ..

theorem store_heap_field {β : Type} (f : HubInfo → β) {r : Ref} {h : HubInfo}
    (hf : f h = f (s.heap r)) (r' : Ref) : f ((s.store r h).heap r') = f (s.heap r') := by
  by_cases hr : r' = r
  · subst hr
    rw [store_heap_self, hf]
  · simp [store, hr]

theorem store_ids {r : Ref} {h : HubInfo} (hid : h.id = (s.heap r).id) :
    (s.store r h).ids = s.ids := by
  rw [ids_eq, ids_eq]
  exact congrArg (List.map · s.connections) (funext (store_heap_field HubInfo.id hid))

theorem removeConnection_ids (s : ConnectionManager) (r : Ref) :
    (s.removeConnection r).ids.Sublist s.ids := by
  rw [ids_eq, ids_eq]
  exact List.Sublist.map _ List.erase_sublist

theorem map_addConnection (hs : Made s) (hubInfo : HubInfo) :
    s.connections.map (s.addConnection hubInfo).heap = s.entries := by
  refine List.map_congr_left fun r hr => ?_
  exact Function.update_of_ne (Nat.ne_of_lt (hs.lt r hr)) ..

theorem addConnection_entries (hs : Made s) (h : HubInfo) :
    (s.addConnection h).entries = s.entries ++ [h] := by
  rw [entries, addConnection, List.map_append, List.map_singleton]
  exact congrArg₂ _ (map_addConnection hs h) (congrArg (fun x => [x]) (Function.update_self ..))

theorem addConnection_ids (hs : Made s) (h : HubInfo) :
    (s.addConnection h).ids = s.ids ++ [h.id] := by
  rw [ids, addConnection_entries hs, List.map_append]
  rfl

theorem getConnection_eq_none {id : Option String} : s.getConnection id = none ↔ id ∉ s.ids := by
  rw [getConnection, List.find?_eq_none, ids_eq]
  simp

theorem getConnection_id {id : Option String} {r : Ref} (h : s.getConnection id = some r) :
    (s.heap r).id = id := by
  have := List.find?_some h
  simpa using this

theorem firstMatch_of_getConnection {id : Option String} {r : Ref}
    (h : s.getConnection id = some r) : ∃ as bs, s.connections = as ++ r :: bs ∧
      firstMatch (fun x => x.id == id) s.entries = some (s.heap r, as.length) := by
  rw [getConnection, List.find?_eq_some_iff_append] at h
  obtain ⟨hr, as, bs, hl, has⟩ := h
  refine ⟨as, bs, hl, firstMatch_eq_some_iff.mpr ⟨as.map s.heap, bs.map s.heap, ?_, ?_, hr, ?_⟩⟩
  · rw [entries, hl, List.map_append, List.map_cons]
  · rw [List.length_map]
  · intro x hx
    obtain ⟨r', hr', rfl⟩ := List.mem_map.mp hx
    simpa using has r' hr'

theorem firstMatch_of_getConnection_none {id : Option String} (h : s.getConnection id = none) :
    firstMatch (fun x => x.id == id) s.entries = none := by
  refine firstMatch_eq_none_iff.mpr fun x hx => ?_
  rw [getConnection_eq_none, ids, List.mem_map] at h
  push Not at h
  simpa using h x hx

/-! ### The references stay apart -/

theorem made_empty : Made empty := ⟨(fun r hr => by cases hr), List.nodup_nil⟩

theorem Made.store (hs : Made s) (r : Ref) (h : HubInfo) : Made (s.store r h) := ⟨hs.lt, hs.nodup⟩

theorem Made.addConnection (hs : Made s) (h : HubInfo) : Made (s.addConnection h) := by
  refine ⟨?_, ?_⟩
  · intro r hr
    rcases List.mem_append.mp hr with hr | hr
    · exact Nat.lt_succ_of_lt (hs.lt r hr)
    · rw [List.mem_singleton.mp hr]
      exact Nat.lt_succ_self s.next
  · refine List.nodup_append.mpr ⟨hs.nodup, by simp, fun r hr r' hr' => ?_⟩
    rw [List.mem_singleton.mp hr']
    exact Nat.ne_of_lt (hs.lt r hr)

theorem Made.removeConnection (hs : Made s) (r : Ref) : Made (s.removeConnection r) :=
  ⟨fun r' hr => hs.lt r' (List.mem_of_mem_erase hr), hs.nodup.erase r⟩

theorem Made.cut (hs : Made s) {as bs : List Ref} {r : Ref} (hl : s.connections = as ++ r :: bs) :
    r ∉ as ∧ r ∉ bs := by
  have hnd := hs.nodup
  rw [hl, List.nodup_append, List.nodup_cons] at hnd
  obtain ⟨_, ⟨hbs, _⟩, has⟩ := hnd
  exact ⟨fun h => has r h r (List.mem_cons_self ..) rfl, hbs⟩

theorem map_store {rs : List Ref} {r : Ref} (h : r ∉ rs) (hubInfo : HubInfo) :
    rs.map (s.store r hubInfo).heap = rs.map s.heap := by
  refine List.map_congr_left fun x hx => Function.update_of_ne ?_ _ _
  rintro rfl
  exact h hx

/-- **An assignment to an entry** changes it where it stands. -/
theorem store_entries (hs : Made s) {rs rs' : List Ref} {r : Ref}
    (hl : s.connections = rs ++ r :: rs') (h : HubInfo) :
    (s.store r h).entries = rs.map s.heap ++ h :: rs'.map s.heap := by
  obtain ⟨hrs, hrs'⟩ := hs.cut hl
  rw [entries, store_connections, hl, List.map_append, List.map_cons, map_store hrs,
    map_store hrs', store_heap_self]

end ConnectionManager

end Blockcore.Networking
