import Blockcore.Lib.Runs
import Blockcore.Gateway.Handlers
import Blockcore.Networking.ConnectionManager
import Blockcore.Networking.DottedText

/-!
# Handlers that run at the same time

The UDP worker and the threads of the clients share one list of objects.  Each
`GetConnection`, `AddConnection` and `RemoveConnection` is a step of its own here,
and the steps of the threads come in any order.

`InfoMessageGatewayHandler` looks an id up and adds an object for it in two steps.
`registry_distinct` says when no id gets two entries: as long as a handler that
calls `AddConnection` is the only one between the look-up that found nothing for
its id and the `AddConnection` for it.  A step at which it is not leaves the other
one a step away from the second entry.

`enter_uninterrupted` ties these steps to the gateway that takes its events one by
one: a thread that nothing comes between enters a message as `enter` does.
-/

namespace Blockcore.Gateway.Concurrency

open Lib Networking ConnectionManager

/-- The UDP worker, or the thread of a client. -/
inductive Thread where
  | udp
  | tcp (client : TcpClient)
  deriving DecidableEq

/-- One call of `InfoMessageGatewayHandler.Process`. -/
structure Call where
  message : HubInfoMessage
  endpoint : Option IPEndPoint
  client : Option TcpClient

/-- The call a thread makes; `source` is where a datagram came from. -/
def Thread.call (t : Thread) (message : HubInfoMessage) (source : IPEndPoint) : Call :=
  match t with
  | .udp => ⟨message, some source, none⟩
  | .tcp client => ⟨message, none, some client⟩

inductive Pc where
  /-- Between messages. -/
  | idle
  /-- Before `GetConnection(message.Id)`. -/
  | lookup (call : Call)
  /-- It found nothing and made an object; before `AddConnection(hubInfo)`. -/
  | add (call : Call) (hubInfo : HubInfo)
  /-- It found an object; before `hubInfo.Update(message)`. -/
  | update (call : Call) (hubInfo : Ref)
  /-- Before the log line and the assignments to the object. -/
  | assign (call : Call) (hubInfo : Ref)
  /-- Before `BroadcastTCP(hubInfo)` and what follows. -/
  | announce (call : Call) (hubInfo : Ref)
  /-- In `Disconnect`, before `GetConnection(client)`. -/
  | find (client : TcpClient)
  /-- In `Disconnect`, before `RemoveConnection(hubInfo)`. -/
  | remove (client : TcpClient) (hubInfo : Ref)

structure State where
  registry : ConnectionManager
  pc : Thread → Pc

/-- A step of a thread that leaves the list so. -/
def State.change (s : State) (registry : ConnectionManager) (t : Thread) (pc : Pc) : State :=
  { registry := registry, pc := Function.update s.pc t pc }

/-- A step of a thread that leaves the list alone. -/
def State.goto (s : State) (t : Thread) (pc : Pc) : State := s.change s.registry t pc

/-- What a thread does next: take a message to its handler; leave the loop of a
client; go on; or throw in the log line or a send. -/
inductive Action where
  | start (message : HubInfoMessage) (source : IPEndPoint)
  | leave
  | go
  | throws

/-- Where an exception takes the thread: the UDP worker logs it, the thread of a
client disconnects it. -/
def caught : Thread → Pc
  | .udp => .idle
  | .tcp client => .find client

def step (fmt : TextFormat) (s : State) (a : Thread × Action) : Option State :=
  let t := a.1
  match s.pc t, a.2 with
  | .idle, .start message source => some (s.goto t (.lookup (t.call message source)))
  | .idle, .leave =>
    match t with
    | .udp => none
    | .tcp client => some (s.goto t (.find client))
  | .lookup call, .go =>
    match s.registry.getConnection call.message.id with
    | some r => some (s.goto t (.update call r))
    | none =>
      match HubInfo.ofMessage fmt call.message with
      | .error _ => some (s.goto t (caught t))
      | .ok hubInfo => some (s.goto t (.add call hubInfo))
  | .add call hubInfo, .go =>
    some (s.change (s.registry.addConnection hubInfo) t
      (.assign call s.registry.next))
  | .update call r, .go =>
    match (s.registry.heap r).update fmt call.message with
    | .thrown _ hubInfo => some (s.change (s.registry.store r hubInfo) t (caught t))
    | .done hubInfo => some (s.change (s.registry.store r hubInfo) t (.assign call r))
  | .assign call r, .go =>
    let hubInfo := heardFrom call.endpoint call.client (s.registry.heap r)
    some (s.change (s.registry.store r hubInfo) t (.announce call r))
  | .assign _ _, .throws => some (s.goto t (caught t))
  | .announce _ r, .go =>
    let hubInfo := introduced (s.registry.heap r)
    some (s.change (s.registry.store r hubInfo) t .idle)
  | .announce _ _, .throws => some (s.goto t (caught t))
  | .find client, .go =>
    match s.registry.getConnectionOf client with
    | none => some (s.goto t .idle)
    | some r => some (s.goto t (.remove client r))
  | .remove _ r, .go => some (s.change (s.registry.removeConnection r) t .idle)
  | _, _ => none

def start : State where
  registry := .empty
  pc _ := .idle

def Distinct (s : State) : Prop := s.registry.ids.Nodup

/-- The thread is to add an entry of this id: its look-up found nothing, and its
`AddConnection` has not happened. -/
def Adding (s : State) (t : Thread) (id : Option String) : Prop :=
  ∃ call hubInfo, s.pc t = .add call hubInfo ∧ hubInfo.id = id

/-- A thread that calls `AddConnection` is the only one that is to add this id. -/
def Alone (s : State) (a : Thread × Action) : Prop :=
  ∀ id, Adding s a.1 id → ∀ t, t ≠ a.1 → ¬ Adding s t id

/-! ### What a step can do -/

section

variable {fmt : TextFormat} {s s' : State} {t : Thread}

def Pc.NotAdd (pc : Pc) : Prop := ∀ call hubInfo, pc ≠ .add call hubInfo

theorem caught_notAdd (t : Thread) : (caught t).NotAdd := by
  intro call hubInfo
  cases t <;> simp [caught]

/-- **What a step can do**: move a thread; let it find nothing and make an object;
write to an object, not to its id; add; or remove. -/
theorem step_cases {act : Action} (h : step fmt s (t, act) = some s') :
    (∃ pc, pc.NotAdd ∧ s' = s.goto t pc) ∨
    (∃ call hubInfo, s.registry.getConnection call.message.id = none ∧
      hubInfo.id = call.message.id ∧ s' = s.goto t (.add call hubInfo)) ∨
    (∃ r hubInfo pc, pc.NotAdd ∧ hubInfo.id = (s.registry.heap r).id ∧
      s' = s.change (s.registry.store r hubInfo) t pc) ∨
    (∃ call hubInfo, s.pc t = .add call hubInfo ∧
      s' = s.change (s.registry.addConnection hubInfo) t (.assign call s.registry.next)) ∨
    (∃ r, s' = s.change (s.registry.removeConnection r) t .idle) := by
  cases hpc : s.pc t with
  | idle =>
    cases act with
    | start message source =>
      simp only [step, hpc, Option.some.injEq] at h
      exact Or.inl ⟨_, by simp [Pc.NotAdd], h.symm⟩
    | leave =>
      cases t with
      | udp => simp [step, hpc] at h
      | tcp client =>
        simp only [step, hpc, Option.some.injEq] at h
        exact Or.inl ⟨_, by simp [Pc.NotAdd], h.symm⟩
    | go => simp [step, hpc] at h
    | throws => simp [step, hpc] at h
  | lookup call =>
    cases act with
    | go =>
      simp only [step, hpc] at h
      cases hg : s.registry.getConnection call.message.id with
      | some r =>
        simp only [hg, Option.some.injEq] at h
        exact Or.inl ⟨_, by simp [Pc.NotAdd], h.symm⟩
      | none =>
        cases hm : HubInfo.ofMessage fmt call.message with
        | error e =>
          simp only [hg, hm, Option.some.injEq] at h
          exact Or.inl ⟨_, caught_notAdd t, h.symm⟩
        | ok hubInfo =>
          simp only [hg, hm, Option.some.injEq] at h
          exact Or.inr (Or.inl ⟨call, hubInfo, hg, ofMessage_id hm, h.symm⟩)
    | _ => simp [step, hpc] at h
  | add call hubInfo =>
    cases act with
    | go =>
      simp only [step, hpc, Option.some.injEq] at h
      exact Or.inr (Or.inr (Or.inr (Or.inl ⟨call, hubInfo, rfl, h.symm⟩)))
    | _ => simp [step, hpc] at h
  | update call r =>
    cases act with
    | go =>
      simp only [step, hpc] at h
      have hid := update_state_id fmt (s.registry.heap r) call.message
      cases hu : (s.registry.heap r).update fmt call.message with
      | thrown e hubInfo =>
        rw [hu] at hid
        simp only [hu, Option.some.injEq] at h
        exact Or.inr (Or.inr (Or.inl ⟨r, hubInfo, _, caught_notAdd t, hid, h.symm⟩))
      | done hubInfo =>
        rw [hu] at hid
        simp only [hu, Option.some.injEq] at h
        exact Or.inr (Or.inr (Or.inl ⟨r, hubInfo, _, by simp [Pc.NotAdd], hid, h.symm⟩))
    | _ => simp [step, hpc] at h
  | assign call r =>
    cases act with
    | go =>
      simp only [step, hpc, Option.some.injEq] at h
      exact Or.inr (Or.inr (Or.inl ⟨r, heardFrom call.endpoint call.client (s.registry.heap r), _,
        by simp [Pc.NotAdd], rfl, h.symm⟩))
    | throws =>
      simp only [step, hpc, Option.some.injEq] at h
      exact Or.inl ⟨_, caught_notAdd t, h.symm⟩
    | start message source => simp [step, hpc] at h
    | leave => simp [step, hpc] at h
  | announce call r =>
    cases act with
    | go =>
      simp only [step, hpc, Option.some.injEq] at h
      refine Or.inr (Or.inr (Or.inl ⟨r, introduced (s.registry.heap r), _, by simp [Pc.NotAdd], ?_,
        h.symm⟩))
      rw [introduced]
      split <;> rfl
    | throws =>
      simp only [step, hpc, Option.some.injEq] at h
      exact Or.inl ⟨_, caught_notAdd t, h.symm⟩
    | start message source => simp [step, hpc] at h
    | leave => simp [step, hpc] at h
  | find client =>
    cases act with
    | go =>
      simp only [step, hpc] at h
      cases hg : s.registry.getConnectionOf client with
      | none =>
        simp only [hg, Option.some.injEq] at h
        exact Or.inl ⟨_, by simp [Pc.NotAdd], h.symm⟩
      | some r =>
        simp only [hg, Option.some.injEq] at h
        exact Or.inl ⟨_, by simp [Pc.NotAdd], h.symm⟩
    | _ => simp [step, hpc] at h
  | remove client r =>
    cases act with
    | go =>
      simp only [step, hpc, Option.some.injEq] at h
      exact Or.inr (Or.inr (Or.inr (Or.inr ⟨r, h.symm⟩)))
    | _ => simp [step, hpc] at h

@[simp] theorem change_registry (s : State) (registry : ConnectionManager) (t : Thread) (pc : Pc) :
    (s.change registry t pc).registry = registry := rfl
@[simp] theorem change_pc_self (s : State) (registry : ConnectionManager) (t : Thread) (pc : Pc) :
    (s.change registry t pc).pc t = pc := by
  simp [State.change]
theorem goto_pc_self (s : State) (t : Thread) (pc : Pc) : (s.goto t pc).pc t = pc :=
  change_pc_self ..
theorem goto_change (s : State) (t : Thread) (pc : Pc) (registry : ConnectionManager) (pc' : Pc) :
    (s.goto t pc).change registry t pc' = s.change registry t pc' := by
  rw [State.goto, State.change, State.change, State.change, Function.update_idem]
theorem change_pc_of_ne {t' : Thread} (h : t' ≠ t) (s : State) (registry : ConnectionManager)
    (pc : Pc) : (s.change registry t pc).pc t' = s.pc t' := by
  simp [State.change, h]

/-! ### The invariant -/

/-- The ids are distinct, and no thread is to add one that is there. -/
structure Good (s : State) : Prop where
  distinct : Distinct s
  made : s.registry.Made
  absent : ∀ t id, Adding s t id → id ∉ s.registry.ids

theorem adding_change {registry : ConnectionManager} {pc : Pc} (hpc : pc.NotAdd) {t' : Thread}
    {id : Option String} (h : Adding (s.change registry t pc) t' id) : Adding s t' id ∧ t' ≠ t := by
  obtain ⟨call, hubInfo, hp, hid⟩ := h
  by_cases ht : t' = t
  · subst ht
    rw [change_pc_self] at hp
    exact absurd hp (hpc call hubInfo)
  · rw [change_pc_of_ne ht] at hp
    exact ⟨⟨call, hubInfo, hp, hid⟩, ht⟩

theorem made_step (hs : s.registry.Made) {act : Action} (h : step fmt s (t, act) = some s') :
    s'.registry.Made := by
  rcases step_cases h with ⟨pc, _, rfl⟩ | ⟨call, hubInfo, _, _, rfl⟩ |
    ⟨r, hubInfo, pc, _, _, rfl⟩ | ⟨call, hubInfo, _, rfl⟩ | ⟨r, rfl⟩
  · exact hs
  · exact hs
  · exact hs.store r hubInfo
  · exact hs.addConnection hubInfo
  · exact hs.removeConnection r

/-- **One step keeps the invariant**, if a thread that adds is the only one. -/
theorem Good.step (hs : Good s) {act : Action} (ha : Alone s (t, act))
    (h : step fmt s (t, act) = some s') : Good s' := by
  have hmade := made_step hs.made h
  rcases step_cases h with ⟨pc, hpc, rfl⟩ | ⟨call, hubInfo, hg, hid, rfl⟩ |
    ⟨r, hubInfo, pc, hpc, hid, rfl⟩ | ⟨call, hubInfo, hp, rfl⟩ | ⟨r, rfl⟩
  · exact ⟨hs.distinct, hmade, fun t' id hadd => hs.absent t' id (adding_change hpc hadd).1⟩
  · -- the look-up found nothing, so the id is not there
    refine ⟨hs.distinct, hmade, ?_⟩
    rintro t' id ⟨call', hubInfo', hp', hid'⟩
    by_cases ht : t' = t
    · subst ht
      rw [State.goto, change_pc_self] at hp'
      obtain ⟨_, rfl⟩ := Pc.add.inj hp'
      rw [← hid', hid]
      exact getConnection_eq_none.mp hg
    · rw [State.goto, change_pc_of_ne ht] at hp'
      exact hs.absent t' id ⟨call', hubInfo', hp', hid'⟩
  · have hids : (s.registry.store r hubInfo).ids = s.registry.ids := store_ids hid
    refine ⟨?_, hmade, fun t' id hadd => ?_⟩
    · rw [Distinct, change_registry, hids]
      exact hs.distinct
    · rw [change_registry, hids]
      exact hs.absent t' id (adding_change hpc hadd).1
  · have hnew : hubInfo.id ∉ s.registry.ids := hs.absent t _ ⟨call, hubInfo, hp, rfl⟩
    have hids := addConnection_ids hs.made hubInfo
    refine ⟨?_, hmade, fun t' id hadd => ?_⟩
    · rw [Distinct, change_registry, hids, List.nodup_append]
      refine ⟨hs.distinct, by simp, fun a ha b hb => ?_⟩
      rw [List.mem_singleton.mp hb]
      rintro rfl
      exact hnew ha
    · -- any other thread that is to add is to add another id
      obtain ⟨hadd, ht⟩ := adding_change (by simp [Pc.NotAdd]) hadd
      rw [change_registry, hids, List.mem_append, List.mem_singleton]
      rintro (hmem | rfl)
      · exact hs.absent t' id hadd hmem
      · exact ha _ ⟨call, hubInfo, hp, rfl⟩ t' ht hadd
  · have hids := removeConnection_ids s.registry r
    refine ⟨hids.nodup hs.distinct, hmade, fun t' id hadd hmem => ?_⟩
    obtain ⟨hadd, _⟩ := adding_change (by simp [Pc.NotAdd]) hadd
    exact hs.absent t' id hadd (hids.subset hmem)

theorem good_start : Good start :=
  ⟨List.nodup_nil, made_empty, by rintro t id ⟨call, hubInfo, h, _⟩; cases h⟩

theorem made_of_run {ls : List (Thread × Action)} (h : Run (step fmt) start ls s) :
    s.registry.Made := by
  refine Reaches.inv (P := fun _ s => s.registry.Made) made_empty ?_ h
  rintro _ s ⟨t, act⟩ s' hs _ hstep
  exact made_step hs hstep

/-! ### A thread that is not interrupted -/

theorem step_start (h : s.pc t = .idle) (message : HubInfoMessage) (source : IPEndPoint) :
    step fmt s (t, .start message source) = some (s.goto t (.lookup (t.call message source))) := by
  simp only [step, h]

theorem step_create {call : Call} {hubInfo : HubInfo} (h : s.pc t = .lookup call)
    (hg : s.registry.getConnection call.message.id = none)
    (hm : HubInfo.ofMessage fmt call.message = .ok hubInfo) :
    step fmt s (t, .go) = some (s.goto t (.add call hubInfo)) := by
  simp only [step, h, hg, hm]

theorem step_found {call : Call} {r : Ref} (h : s.pc t = .lookup call)
    (hg : s.registry.getConnection call.message.id = some r) :
    step fmt s (t, .go) = some (s.goto t (.update call r)) := by
  simp only [step, h, hg]

theorem step_add {call : Call} {hubInfo : HubInfo} (h : s.pc t = .add call hubInfo) :
    step fmt s (t, .go) =
      some (s.change (s.registry.addConnection hubInfo) t (.assign call s.registry.next)) := by
  simp only [step, h]

theorem step_update {call : Call} {r : Ref} {hubInfo : HubInfo} (h : s.pc t = .update call r)
    (hu : (s.registry.heap r).update fmt call.message = .done hubInfo) :
    step fmt s (t, .go) =
      some (s.change (s.registry.store r hubInfo) t (.assign call r)) := by
  simp only [step, h, hu]

theorem exec_assign (hs : s.registry.Made) {call : Call} {r : Ref} (h : s.pc t = .assign call r)
    {rs rs' : List Ref} (hl : s.registry.connections = rs ++ r :: rs') :
    ∃ s', exec (step fmt) s [(t, .go)] = some s' ∧ s'.pc t = .announce call r ∧
      s'.registry.entries = rs.map s.registry.heap ++
        heardFrom call.endpoint call.client (s.registry.heap r) :: rs'.map s.registry.heap ∧
      s'.registry.heap r = heardFrom call.endpoint call.client (s.registry.heap r) := by
  have hstep : step fmt s (t, .go) =
      some (s.change (s.registry.store r (heardFrom call.endpoint call.client (s.registry.heap r)))
        t (.announce call r)) := by
    simp only [step, h]
  refine ⟨_, by rw [exec_cons hstep]; rfl, change_pc_self .., ?_, ?_⟩
  · rw [change_registry, store_entries hs hl]
  · rw [change_registry, store_heap_self]

theorem enter_of_lookup (hs : s.registry.Made) {call : Call} (ht : s.pc t = .lookup call)
    {p : Parsed} (hp : Parses fmt call.message p) {g : GatewayManager}
    (hg : g.connections = s.registry.entries) :
    ∃ s' r, exec (step fmt) s [(t, .go), (t, .go), (t, .go)] = some s' ∧
      s'.pc t = .announce call r ∧
      enter p call.message call.endpoint call.client g =
        ({ g with connections := s'.registry.entries }, s'.registry.heap r) := by
  rw [enter, GatewayManager.getConnection, hg]
  cases hr : s.registry.getConnection call.message.id with
  | none =>
    have hmap := map_addConnection hs (p.create call.message)
    have hnew := addConnection_heap_next s.registry (p.create call.message)
    obtain ⟨s', hexec, hpc, hentries, hheap⟩ :=
      exec_assign (s := s.change (s.registry.addConnection (p.create call.message)) t
        (.assign call s.registry.next)) (hs.addConnection _) (change_pc_self ..) rfl
    refine ⟨s', s.registry.next, ?_, hpc, ?_⟩
    · rw [exec_cons (step_create ht hr (ofMessage_of_parses hp)),
        exec_cons (step_add (goto_pc_self ..)), goto_change]
      exact hexec
    · rw [firstMatch_of_getConnection_none hr, hentries, hheap]
      simp only [change_registry, hmap, hnew]
      simp [GatewayManager.addConnection, entry, hg]
  | some r =>
    obtain ⟨rs, rs', hl, hfirst⟩ := firstMatch_of_getConnection hr
    have hid := getConnection_id hr
    obtain ⟨hrs, hrs'⟩ := hs.cut hl
    obtain ⟨s', hexec, hpc, hentries, hheap⟩ :=
      exec_assign (s := s.change (s.registry.store r (p.apply call.message (s.registry.heap r))) t
        (.assign call r)) (hs.store r _) (change_pc_self ..) hl
    refine ⟨s', r, ?_, hpc, ?_⟩
    · rw [exec_cons (step_found ht hr),
        exec_cons (step_update (goto_pc_self ..) (update_of_parses hp hid)), goto_change]
      exact hexec
    · rw [hfirst, hentries, hheap]
      simp only [change_registry, map_store hrs, map_store hrs', store_heap_self]
      simp [GatewayManager.store, entry, hg, ConnectionManager.entries, hl]

/-- **A message handled without interruption** is entered as the gateway that
takes its events one by one enters it. -/
theorem enter_uninterrupted (hs : s.registry.Made) (ht : s.pc t = .idle) {message : HubInfoMessage}
    {p : Parsed} (hp : Parses fmt message p) (source : IPEndPoint) {g : GatewayManager}
    (hg : g.connections = s.registry.entries) :
    ∃ s' r, exec (step fmt) s [(t, .start message source), (t, .go), (t, .go), (t, .go)] = some s' ∧
      s'.pc t = .announce (t.call message source) r ∧
      enter p message (t.call message source).endpoint (t.call message source).client g =
        ({ g with connections := s'.registry.entries }, s'.registry.heap r) := by
  have hmessage : (t.call message source).message = message := by cases t <;> rfl
  rw [exec_cons (step_start ht message source)]
  have := enter_of_lookup (s := s.goto t (.lookup (t.call message source))) (p := p) hs
    (change_pc_self ..) (by rwa [hmessage]) hg
  rwa [hmessage] at this

end

/-! ### The law -/

/-- A step at which the adding thread is not alone leaves the other one a step away
from a second entry. -/
theorem not_distinct_of_not_alone {fmt : TextFormat} {s s' : State} {a : Thread × Action}
    (h : step fmt s a = some s') (ha : ¬ Alone s a) :
    ∃ a' s'', step fmt s' a' = some s'' ∧ ¬ Distinct s'' := by
  obtain ⟨t, act⟩ := a
  unfold Alone at ha
  push Not at ha
  obtain ⟨id, ⟨call, hubInfo, hp, hid⟩, t', ht, call', hubInfo', hp', hid'⟩ := ha
  have hs' : s' = s.change (s.registry.addConnection hubInfo) t (.assign call s.registry.next) := by
    cases act with
    | go =>
      simp only [step, hp, Option.some.injEq] at h
      exact h.symm
    | _ => simp [step, hp] at h
  subst hs'
  have hp'' : (s.change (s.registry.addConnection hubInfo) t (.assign call s.registry.next)).pc t' =
      .add call' hubInfo' := by
    rw [change_pc_of_ne ht]
    exact hp'
  refine ⟨(t', .go), _, by simp only [step, hp'']; rfl, ?_⟩
  -- the last two references are new, so they are not overwritten
  rw [Distinct, change_registry, change_registry, ids_eq]
  simp [ConnectionManager.addConnection, hid, hid', List.nodup_append]

/-- **No id gets two entries** in a run in which a thread that calls
`AddConnection` is always the only one that is to add this id.  A step at which it
is not leaves the other one a step away from the second entry. -/
theorem registry_distinct (fmt : TextFormat) :
    (∀ ls s, Reaches (step fmt) Alone start ls s → Distinct s) ∧
    (∀ s a s', step fmt s a = some s' → ¬ Alone s a →
      ∃ a' s'', step fmt s' a' = some s'' ∧ ¬ Distinct s'') := by
  refine ⟨?_, ?_⟩
  · intro ls s h
    have hgood : Good s := by
      refine Reaches.inv (P := fun _ s => Good s) good_start ?_ h
      rintro _ s ⟨t, act⟩ s' hs ha hstep
      exact hs.step ha hstep
    exact hgood.distinct
  · intro s a s' h ha
    exact not_distinct_of_not_alone h ha

/-! ### Two runs -/

def Pc.adds : Pc → Option (Option String)
  | .add _ hubInfo => some hubInfo.id
  | _ => none

theorem adding_iff {s : State} {t : Thread} {id : Option String} :
    Adding s t id ↔ (s.pc t).adds = some id := by
  refine ⟨?_, ?_⟩
  · rintro ⟨call, hubInfo, hp, rfl⟩
    rw [hp]
    rfl
  · intro h
    cases hp : s.pc t with
    | add call hubInfo =>
      rw [hp] at h
      exact ⟨call, hubInfo, hp, Option.some.inj h⟩
    | _ =>
      rw [hp] at h
      cases h

/-- The step is of one of these threads, and as far as they go it is alone. -/
def AloneAmong (ts : List Thread) (s : State) (a : Thread × Action) : Prop :=
  a.1 ∈ ts ∧ ∀ t ∈ ts, t ≠ a.1 → (s.pc t).adds = none ∨ (s.pc t).adds ≠ (s.pc a.1).adds

instance (ts : List Thread) (s : State) (a : Thread × Action) : Decidable (AloneAmong ts s a) :=
  inferInstanceAs (Decidable (_ ∧ _))

theorem reaches_alone {fmt : TextFormat} {ts : List Thread} {ls : List (Thread × Action)} {s : State}
    (h : Reaches (step fmt) (AloneAmong ts) start ls s) : Reaches (step fmt) Alone start ls s := by
  suffices key : Reaches (step fmt) Alone start ls s ∧ ∀ t ∉ ts, s.pc t = .idle from key.1
  refine Reaches.inv (P := fun ls s => Reaches (step fmt) Alone start ls s ∧ ∀ t ∉ ts, s.pc t = .idle)
    ⟨.start, fun _ _ => rfl⟩ ?_ h
  rintro ls s ⟨t, act⟩ s' ⟨hrun, hidle⟩ ⟨hmem, halone⟩ hs
  refine ⟨hrun.step (fun id hadd t' ht hadd' => ?_) hs, fun t' ht' => ?_⟩
  · rw [adding_iff] at hadd hadd'
    by_cases hmem' : t' ∈ ts
    · rcases halone t' hmem' ht with h | h
      · rw [h] at hadd'
        cases hadd'
      · exact h (hadd'.trans hadd.symm)
    · rw [hidle t' hmem'] at hadd'
      cases hadd'
  · have hne : t' ≠ t := fun heq => ht' (heq ▸ hmem)
    rw [← hidle t' ht']
    rcases step_cases hs with ⟨pc, _, rfl⟩ | ⟨call, hubInfo, _, _, rfl⟩ |
      ⟨r, hubInfo, pc, _, _, rfl⟩ | ⟨call, hubInfo, _, rfl⟩ | ⟨r, rfl⟩
    all_goals exact change_pc_of_ne hne ..

def hello (id : String) : HubInfoMessage := { id := some id, connectionType := some "Unknown" }

def source : IPEndPoint := ⟨⟨[10, 0, 4, 1], by decide⟩, 6000⟩

/-- A datagram of the hub `a` and a TCP message of the hub `b` are taken at the same time, and
both are added.  Then the hub `a` comes over TCP while the client of `b` is disconnected. -/
def overlapping : List (Thread × Action) :=
  [(.udp, .start (hello "a") source), (.tcp 2, .start (hello "b") source), (.udp, .go), (.tcp 2, .go),
    (.udp, .go), (.tcp 2, .go), (.tcp 1, .start (hello "a") source), (.tcp 2, .go), (.tcp 2, .throws),
    (.tcp 1, .go), (.udp, .go), (.tcp 2, .go), (.tcp 1, .go), (.tcp 2, .go), (.tcp 1, .go), (.udp, .go)]

/-- A datagram and a TCP message of one hub are taken at the same time: both
threads look it up, and are to add it. -/
def meeting : List (Thread × Action) :=
  [(.udp, .start (hello "a") source), (.tcp 1, .start (hello "a") source), (.udp, .go), (.tcp 1, .go)]

theorem registry_distinct_overlapping :
    (∃ s, Run (step dottedText) start overlapping s ∧ s.registry.ids = [some "a"] ∧ Distinct s) ∧
    ∃ s' a' s'', exec (step dottedText) start (meeting ++ [(.udp, .go)]) = some s' ∧
      step dottedText s' a' = some s'' ∧ ¬ Distinct s'' := by
  refine ⟨?_, ?_⟩
  · have hids : (exec (fun s a => if AloneAmong [.udp, .tcp 1, .tcp 2] s a then step dottedText s a
        else none) start overlapping).map (·.registry.ids) = some [some "a"] := by
      decide +kernel
    obtain ⟨s, hexec, hs⟩ := Option.map_eq_some_iff.mp hids
    have hrun := reaches_of_exec hexec
    have hdistinct := (registry_distinct dottedText).1 overlapping s (reaches_alone hrun)
    exact ⟨s, hrun.mono fun _ _ _ => trivial, hs, hdistinct⟩
  · have hadds : (exec (step dottedText) start meeting).map
        (fun s => ((s.pc .udp).adds, (s.pc (.tcp 1)).adds)) = some (some (some "a"), some (some "a")) := by
      decide +kernel
    obtain ⟨s, hexec, hs⟩ := Option.map_eq_some_iff.mp hadds
    obtain ⟨hudp, htcp⟩ := Prod.mk.inj hs
    obtain ⟨call, hubInfo, hp, _⟩ := adding_iff.mpr hudp
    have hstep : step dottedText s (.udp, .go) =
        some (s.change (s.registry.addConnection hubInfo) .udp (.assign call s.registry.next)) := by
      simp only [step, hp]
    have hnot : ¬ Alone s (.udp, .go) := by
      intro halone
      exact halone _ (adding_iff.mpr hudp) (.tcp 1) (by simp) (adding_iff.mpr htcp)
    obtain ⟨a', s'', hs'', hdistinct⟩ := (registry_distinct dottedText).2 s (.udp, .go) _ hstep hnot
    refine ⟨_, a', s'', ?_, hs'', hdistinct⟩
    rw [exec_append, hexec, Option.bind_some, exec_cons hstep]
    rfl

/-- **Both add it.** -/
theorem two_entries : ¬ ∀ fmt ls s, Run (step fmt) start ls s → Distinct s := by
  intro h
  have hrun : (exec (step dottedText) start (meeting ++ [(.udp, .go), (.tcp 1, .go)])).map
      (·.registry.ids) = some [some "a", some "a"] := by
    decide
  obtain ⟨s, hs, hids⟩ := Option.map_eq_some_iff.mp hrun
  have := h dottedText _ s (run_of_exec hs)
  rw [Distinct, hids] at this
  exact absurd this (by decide)

end Blockcore.Gateway.Concurrency
