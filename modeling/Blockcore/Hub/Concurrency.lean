import Blockcore.Lib.Runs
import Blockcore.Hub.Handlers
import Blockcore.Networking.DottedText

/-!
# Handlers of a hub that run at the same time

The listeners of a hub, and whoever else calls it, share one list of objects.  Each
`GetConnection`, `AddConnection`, `RemoveConnection` and `ClearConnections` is a step of
its own here, and each event published; the steps of the threads come in any order.

`InfoMessageHandler` looks an id up and adds an object for it inside of a lock.  Nobody else
adds, so what it did not find stays away until it has added it (`Good`): no id gets two
entries, and whoever adds one is the one to publish it (`registry_announced`).  The lock is
not held by those that remove, and need not be.

`info_uninterrupted` and `disconnected_uninterrupted` tie these steps to the handlers of
`Hub.Handlers`.
-/

namespace Blockcore.Hub.Concurrency

open Lib Networking ConnectionManager

inductive Pc where
  /-- Between messages. -/
  | idle
  /-- Before `lock (connections)`. -/
  | lock (msg : HubInfoMessage)
  /-- Before `GetConnection(msg.Id)`. -/
  | lookup (msg : HubInfoMessage)
  /-- It found nothing; before `new HubInfo(msg)`. -/
  | create (msg : HubInfoMessage)
  /-- Before `AddConnection(hubInfo)`. -/
  | add (hubInfo : HubInfo)
  /-- Before the `ConnectionAddedEvent`. -/
  | added (hubInfo : Ref)
  /-- It found an object; before `hubInfo.Update(msg)`. -/
  | update (msg : HubInfoMessage) (hubInfo : Ref)
  /-- Before the `ConnectionUpdatedEvent`. -/
  | updated (hubInfo : Ref)
  /-- At the end of the lock. -/
  | unlock
  /-- Before `GetConnection(item.Tag.ToString())`. -/
  | find (tag : String)
  /-- Before `RemoveConnection(hubInfo)`. -/
  | remove (hubInfo : Ref)
  /-- Before the `ConnectionRemovedEvent`. -/
  | removed (hubInfo : Ref)

def Pc.holds : Pc → Bool
  | .lookup _ => true
  | .create _ => true
  | .add _ => true
  | .added _ => true
  | .update _ _ => true
  | .updated _ => true
  | .unlock => true
  | _ => false

/-- The id that the thread is to add: its look-up found nothing, and its `AddConnection`
has not happened. -/
def Pc.adding : Pc → Option (Option String)
  | .create msg => some msg.id
  | .add hubInfo => some hubInfo.id
  | _ => none

/-- The object it has added and is to announce. -/
def Pc.due : Pc → Option Ref
  | .added r => some r
  | _ => none

inductive Event where
  | added (hubInfo : Ref)
  | updated (hubInfo : Ref)
  | removed (hubInfo : Ref)
  deriving DecidableEq

/-- The list, who holds the lock, what was published, and the threads. -/
structure State (τ : Type) where
  registry : ConnectionManager
  owner : Option τ
  events : List Event
  pc : τ → Pc

/-- What a thread does next: take a `HubInfoMessage`, or a `Disconnected` notification;
clear the list; go on; or throw in a look-up that another thread disturbs. -/
inductive Action where
  | info (msg : HubInfoMessage)
  | disconnected (tag : String)
  | clear
  | go
  | throws

section

variable {τ : Type} [DecidableEq τ]

namespace State

def goto (s : State τ) (t : τ) (pc : Pc) : State τ := { s with pc := Function.update s.pc t pc }

def publish (s : State τ) (event : Event) : State τ := { s with events := s.events ++ [event] }

@[simp] theorem goto_registry (s : State τ) (t : τ) (pc : Pc) : (s.goto t pc).registry = s.registry := rfl
@[simp] theorem goto_owner (s : State τ) (t : τ) (pc : Pc) : (s.goto t pc).owner = s.owner := rfl
@[simp] theorem goto_events (s : State τ) (t : τ) (pc : Pc) : (s.goto t pc).events = s.events := rfl
@[simp] theorem goto_pc_self (s : State τ) (t : τ) (pc : Pc) : (s.goto t pc).pc t = pc :=
  Function.update_self ..
theorem goto_pc_of_ne {t t' : τ} (h : t' ≠ t) (s : State τ) (pc : Pc) : (s.goto t pc).pc t' = s.pc t' :=
  Function.update_of_ne h ..

end State

/-- One step of one thread. What is thrown leaves the lock. -/
def step (fmt : TextFormat) (s : State τ) (a : τ × Action) : Option (State τ) :=
  let t := a.1
  match s.pc t, a.2 with
  | .idle, .info msg => some (s.goto t (.lock msg))
  | .idle, .disconnected tag => some (s.goto t (.find tag))
  | .idle, .clear => some ({ s with registry := s.registry.clearConnections }.goto t .idle)
  | .lock msg, .go =>
    if s.owner.isNone then some ({ s with owner := some t }.goto t (.lookup msg)) else none
  | .lookup msg, .go =>
    match s.registry.getConnection msg.id with
    | none => some (s.goto t (.create msg))
    | some r => some (s.goto t (.update msg r))
  | .lookup _, .throws => some (s.goto t .unlock)
  | .create msg, .go =>
    match HubInfo.ofMessage fmt msg with
    | .error _ => some (s.goto t .unlock)
    | .ok hubInfo => some (s.goto t (.add hubInfo))
  | .add hubInfo, .go =>
    some ({ s with registry := s.registry.addConnection hubInfo }.goto t (.added s.registry.next))
  | .added r, .go => some ((s.publish (.added r)).goto t .unlock)
  | .update msg r, .go =>
    match (s.registry.heap r).update fmt msg with
    | .thrown _ hubInfo => some ({ s with registry := s.registry.store r hubInfo }.goto t .unlock)
    | .done hubInfo => some ({ s with registry := s.registry.store r hubInfo }.goto t (.updated r))
  | .updated r, .go => some ((s.publish (.updated r)).goto t .unlock)
  | .unlock, .go => some ({ s with owner := none }.goto t .idle)
  | .find tag, .go =>
    match s.registry.getConnection (some tag) with
    | none => some (s.goto t .idle)
    | some r => some (s.goto t (.remove r))
  | .find _, .throws => some (s.goto t .idle)
  | .remove r, .go => some ({ s with registry := s.registry.removeConnection r }.goto t (.removed r))
  | .removed r, .go => some ((s.publish (.removed r)).goto t .idle)
  | _, _ => none

def start : State τ where
  registry := .empty
  owner := none
  events := []
  pc _ := .idle

/-! ### What a step can do -/

/-- A thread that neither enters nor leaves the lock, is to add no other id, and has
nothing to announce. -/
def Kept (pc pc' : Pc) : Prop :=
  pc'.holds = pc.holds ∧ (pc'.adding = none ∨ pc'.adding = pc.adding) ∧ pc.due = none ∧ pc'.due = none

/-- A step of such a thread, which adds nothing. -/
structure Minor (s s' : State τ) (t : τ) (pc : Pc) : Prop where
  moved : s'.pc = Function.update s.pc t pc
  kept : Kept (s.pc t) pc
  owner : s'.owner = s.owner
  next : s'.registry.next = s.registry.next
  made : s.registry.Made → s'.registry.Made
  ids : s'.registry.ids.Sublist s.registry.ids
  events : ∀ r, s'.events.count (.added r) = s.events.count (.added r)

/-- **What a step can do.** -/
inductive StepCase (s : State τ) (t : τ) : State τ → Prop where
  | minor {s' : State τ} {pc : Pc} (h : Minor s s' t pc) : StepCase s t s'
  | enter {msg : HubInfoMessage} (hpc : s.pc t = .lock msg) (hfree : s.owner = none) :
    StepCase s t ({ s with owner := some t }.goto t (.lookup msg))
  | leave (hpc : s.pc t = .unlock) : StepCase s t ({ s with owner := none }.goto t .idle)
  | miss {msg : HubInfoMessage} (hpc : s.pc t = .lookup msg)
    (hget : s.registry.getConnection msg.id = none) : StepCase s t (s.goto t (.create msg))
  | add {hubInfo : HubInfo} (hpc : s.pc t = .add hubInfo) :
    StepCase s t ({ s with registry := s.registry.addConnection hubInfo }.goto t (.added s.registry.next))
  | announce {r : Ref} (hpc : s.pc t = .added r) : StepCase s t ((s.publish (.added r)).goto t .unlock)

variable {fmt : TextFormat} {s s' : State τ} {t : τ}

theorem minor_goto {pc pc' : Pc} (hpc : s.pc t = pc) (hkept : Kept pc pc') : Minor s (s.goto t pc') t pc' :=
  ⟨rfl, hpc ▸ hkept, rfl, rfl, id, List.Sublist.refl _, fun _ => rfl⟩

theorem Minor.registry {pc : Pc} {registry : ConnectionManager} (h : Minor s s' t pc)
    (hnext : registry.next = s'.registry.next) (hmade : s'.registry.Made → registry.Made)
    (hids : registry.ids.Sublist s'.registry.ids) : Minor s { s' with registry := registry } t pc :=
  ⟨h.moved, h.kept, h.owner, hnext.trans h.next, fun hm => hmade (h.made hm), hids.trans h.ids, h.events⟩

theorem Minor.publish {pc : Pc} (h : Minor s s' t pc) (event : Event) (he : ∀ r, event ≠ .added r) :
    Minor s (s'.publish event) t pc := by
  refine ⟨h.moved, h.kept, h.owner, h.next, h.made, h.ids, fun r => ?_⟩
  rw [State.publish, List.count_append, List.count_singleton, h.events r]
  simp [he r]

theorem Minor.store {pc : Pc} {r : Ref} {hubInfo : HubInfo} (h : Minor s s' t pc)
    (hid : hubInfo.id = (s'.registry.heap r).id) :
    Minor s { s' with registry := s'.registry.store r hubInfo } t pc :=
  h.registry rfl (fun hm => hm.store r hubInfo) (by rw [store_ids hid])

theorem step_cases {act : Action} (h : step fmt s (t, act) = some s') : StepCase s t s' := by
  have hgoto : ∀ {pc pc'}, s.pc t = pc → Kept pc pc' → StepCase s t (s.goto t pc') :=
    fun hpc hkept => .minor (minor_goto hpc hkept)
  cases hpc : s.pc t with
  | idle =>
    cases act with
    | info msg =>
      simp only [step, hpc, Option.some.injEq] at h
      rw [← h]
      exact hgoto hpc ⟨rfl, Or.inl rfl, rfl, rfl⟩
    | disconnected tag =>
      simp only [step, hpc, Option.some.injEq] at h
      rw [← h]
      exact hgoto hpc ⟨rfl, Or.inl rfl, rfl, rfl⟩
    | clear =>
      simp only [step, hpc, Option.some.injEq] at h
      rw [← h]
      have hmove : Minor s (s.goto t .idle) t .idle := minor_goto hpc ⟨rfl, Or.inl rfl, rfl, rfl⟩
      exact .minor (hmove.registry rfl (fun _ => ⟨(fun r hr => by cases hr), List.nodup_nil⟩)
        (List.nil_sublist _))
    | go => simp [step, hpc] at h
    | throws => simp [step, hpc] at h
  | lock msg =>
    cases act with
    | go =>
      simp only [step, hpc] at h
      split at h
      · next hfree =>
        rw [← Option.some.inj h]
        exact .enter hpc (Option.isNone_iff_eq_none.mp hfree)
      · cases h
    | _ => simp [step, hpc] at h
  | lookup msg =>
    cases act with
    | go =>
      simp only [step, hpc] at h
      cases hget : s.registry.getConnection msg.id with
      | none =>
        simp only [hget, Option.some.injEq] at h
        rw [← h]
        exact .miss hpc hget
      | some r =>
        simp only [hget, Option.some.injEq] at h
        rw [← h]
        exact hgoto hpc ⟨rfl, Or.inl rfl, rfl, rfl⟩
    | throws =>
      simp only [step, hpc, Option.some.injEq] at h
      rw [← h]
      exact hgoto hpc ⟨rfl, Or.inl rfl, rfl, rfl⟩
    | info msg => simp [step, hpc] at h
    | disconnected tag => simp [step, hpc] at h
    | clear => simp [step, hpc] at h
  | create msg =>
    cases act with
    | go =>
      simp only [step, hpc] at h
      cases hm : HubInfo.ofMessage fmt msg with
      | error e =>
        simp only [hm, Option.some.injEq] at h
        rw [← h]
        exact hgoto hpc ⟨rfl, Or.inl rfl, rfl, rfl⟩
      | ok hubInfo =>
        simp only [hm, Option.some.injEq] at h
        rw [← h]
        exact hgoto hpc ⟨rfl, Or.inr (congrArg some (ofMessage_id hm)), rfl, rfl⟩
    | _ => simp [step, hpc] at h
  | add hubInfo =>
    cases act with
    | go =>
      simp only [step, hpc, Option.some.injEq] at h
      rw [← h]
      exact .add hpc
    | _ => simp [step, hpc] at h
  | added r =>
    cases act with
    | go =>
      simp only [step, hpc, Option.some.injEq] at h
      rw [← h]
      exact .announce hpc
    | _ => simp [step, hpc] at h
  | update msg r =>
    cases act with
    | go =>
      simp only [step, hpc] at h
      have hid := update_state_id fmt (s.registry.heap r) msg
      cases hu : (s.registry.heap r).update fmt msg with
      | thrown e hubInfo =>
        rw [hu] at hid
        simp only [hu, Option.some.injEq] at h
        rw [← h]
        have hmove : Minor s (s.goto t .unlock) t .unlock := minor_goto hpc ⟨rfl, Or.inl rfl, rfl, rfl⟩
        exact .minor (hmove.store hid)
      | done hubInfo =>
        rw [hu] at hid
        simp only [hu, Option.some.injEq] at h
        rw [← h]
        have hmove : Minor s (s.goto t (.updated r)) t (.updated r) :=
          minor_goto hpc ⟨rfl, Or.inl rfl, rfl, rfl⟩
        exact .minor (hmove.store hid)
    | _ => simp [step, hpc] at h
  | updated r =>
    cases act with
    | go =>
      simp only [step, hpc, Option.some.injEq] at h
      rw [← h]
      have hmove : Minor s (s.goto t .unlock) t .unlock := minor_goto hpc ⟨rfl, Or.inl rfl, rfl, rfl⟩
      exact .minor (hmove.publish (.updated r) (by simp))
    | _ => simp [step, hpc] at h
  | unlock =>
    cases act with
    | go =>
      simp only [step, hpc, Option.some.injEq] at h
      rw [← h]
      exact .leave hpc
    | _ => simp [step, hpc] at h
  | find tag =>
    cases act with
    | go =>
      simp only [step, hpc] at h
      cases hget : s.registry.getConnection (some tag) with
      | none =>
        simp only [hget, Option.some.injEq] at h
        rw [← h]
        exact hgoto hpc ⟨rfl, Or.inl rfl, rfl, rfl⟩
      | some r =>
        simp only [hget, Option.some.injEq] at h
        rw [← h]
        exact hgoto hpc ⟨rfl, Or.inl rfl, rfl, rfl⟩
    | throws =>
      simp only [step, hpc, Option.some.injEq] at h
      rw [← h]
      exact hgoto hpc ⟨rfl, Or.inl rfl, rfl, rfl⟩
    | info msg => simp [step, hpc] at h
    | disconnected tag => simp [step, hpc] at h
    | clear => simp [step, hpc] at h
  | remove r =>
    cases act with
    | go =>
      simp only [step, hpc, Option.some.injEq] at h
      rw [← h]
      have hmove : Minor s (s.goto t (.removed r)) t (.removed r) :=
        minor_goto hpc ⟨rfl, Or.inl rfl, rfl, rfl⟩
      exact .minor (hmove.registry rfl (fun hm => hm.removeConnection r) (removeConnection_ids ..))
    | _ => simp [step, hpc] at h
  | removed r =>
    cases act with
    | go =>
      simp only [step, hpc, Option.some.injEq] at h
      rw [← h]
      have hmove : Minor s (s.goto t .idle) t .idle := minor_goto hpc ⟨rfl, Or.inl rfl, rfl, rfl⟩
      exact .minor (hmove.publish (.removed r) (by simp))
    | _ => simp [step, hpc] at h

/-! ### The invariant -/

/-- The ids are distinct, the lock is held by whoever is inside of it, nobody is to add an
id that is there, and every object added has been announced once or is to be. -/
structure Good (s : State τ) : Prop where
  distinct : s.registry.ids.Nodup
  made : s.registry.Made
  lock : ∀ t, (s.pc t).holds = true ↔ s.owner = some t
  absent : ∀ t id, (s.pc t).adding = some id → id ∉ s.registry.ids
  due : ∀ t r, (s.pc t).due = some r → r < s.registry.next ∧ s.events.count (.added r) = 0
  told : ∀ r < s.registry.next, s.events.count (.added r) = 1 ∨ ∃ t, (s.pc t).due = some r
  untold : ∀ r, s.registry.next ≤ r → s.events.count (.added r) = 0

theorem holds_of_adding {pc : Pc} {id : Option String} (h : pc.adding = some id) : pc.holds = true := by
  cases pc <;> first | rfl | cases h

theorem holds_of_due {pc : Pc} {r : Ref} (h : pc.due = some r) : pc.holds = true := by
  cases pc <;> first | rfl | cases h

theorem eq_added_of_due {pc : Pc} {r : Ref} (h : pc.due = some r) : pc = .added r := by
  cases pc <;> first | exact congrArg Pc.added (Option.some.inj h) | cases h

omit [DecidableEq τ] in
theorem Good.alone (hs : Good s) {t t' : τ} (h : (s.pc t).holds = true) (h' : (s.pc t').holds = true) :
    t' = t := by
  rw [hs.lock] at h h'
  exact Option.some.inj (h'.symm.trans h)

theorem Good.lock_of_holds (hs : Good s) {pc : Pc} (hholds : pc.holds = (s.pc t).holds) (t' : τ) :
    (Function.update s.pc t pc t').holds = true ↔ s.owner = some t' := by
  rw [← hs.lock t']
  by_cases ht : t' = t
  · rw [ht, Function.update_self, hholds]
  · rw [Function.update_of_ne ht]

theorem of_update {β : Type} {f : Pc → Option β} {pc : Pc} {b : β} (hf : f pc = none ∨ f pc = f (s.pc t))
    {t' : τ} (h : f (Function.update s.pc t pc t') = some b) : f (s.pc t') = some b := by
  by_cases ht : t' = t
  · rw [ht, Function.update_self] at h
    rcases hf with hf | hf
    · rw [hf] at h
      cases h
    · rw [ht, ← hf, h]
  · rwa [Function.update_of_ne ht] at h

theorem due_update {pc : Pc} {r : Ref} (hpc : (s.pc t).due = none) (h : ∃ t, (s.pc t).due = some r) :
    ∃ t', (Function.update s.pc t pc t').due = some r := by
  obtain ⟨t', hdue⟩ := h
  have ht : t' ≠ t := by
    rintro rfl
    rw [hpc] at hdue
    cases hdue
  exact ⟨t', by rwa [Function.update_of_ne ht]⟩

theorem Good.minor (hs : Good s) {pc : Pc} (h : Minor s s' t pc) : Good s' := by
  obtain ⟨hholds, hadding, hbefore, hafter⟩ := h.kept
  refine ⟨h.ids.nodup hs.distinct, h.made hs.made, fun t' => ?_, fun t' id hadd => ?_,
    fun t' r hdue => ?_, fun r hr => ?_, fun r hr => ?_⟩
  · rw [h.moved, h.owner]
    exact hs.lock_of_holds hholds t'
  · rw [h.moved] at hadd
    exact fun hmem => hs.absent t' id (of_update hadding hadd) (h.ids.subset hmem)
  · rw [h.moved] at hdue
    rw [h.next, h.events]
    exact hs.due t' r (of_update (Or.inl hafter) hdue)
  · rw [h.next] at hr
    rw [h.events]
    exact (hs.told r hr).imp_right fun hdue => h.moved ▸ due_update hbefore hdue
  · rw [h.next] at hr
    rw [h.events]
    exact hs.untold r hr

theorem Good.enter (hs : Good s) {msg : HubInfoMessage} (hpc : s.pc t = .lock msg)
    (hfree : s.owner = none) : Good ({ s with owner := some t }.goto t (.lookup msg)) where
  distinct := hs.distinct
  made := hs.made
  lock t' := by
    show (Function.update s.pc t (.lookup msg) t').holds = true ↔ some t = some t'
    by_cases ht : t' = t
    · rw [ht, Function.update_self]
      exact iff_of_true rfl rfl
    · rw [Function.update_of_ne ht, hs.lock, hfree]
      exact iff_of_false (by simp) fun heq => ht (Option.some.inj heq).symm
  absent t' id hadd := hs.absent t' id (of_update (Or.inl rfl) hadd)
  due t' r hdue := hs.due t' r (of_update (Or.inl rfl) hdue)
  told r hr := (hs.told r hr).imp_right (due_update (congrArg Pc.due hpc))
  untold := hs.untold

theorem Good.leave (hs : Good s) (hpc : s.pc t = .unlock) : Good ({ s with owner := none }.goto t .idle) where
  distinct := hs.distinct
  made := hs.made
  lock t' := by
    show (Function.update s.pc t .idle t').holds = true ↔ none = some t'
    have hholds : (s.pc t).holds = true := congrArg Pc.holds hpc
    refine iff_of_false (fun h => ?_) (by simp)
    by_cases ht : t' = t
    · rw [ht, Function.update_self] at h
      cases h
    · rw [Function.update_of_ne ht] at h
      exact ht (hs.alone hholds h)
  absent t' id hadd := hs.absent t' id (of_update (Or.inl rfl) hadd)
  due t' r hdue := hs.due t' r (of_update (Or.inl rfl) hdue)
  told r hr := (hs.told r hr).imp_right (due_update (congrArg Pc.due hpc))
  untold := hs.untold

theorem Good.miss (hs : Good s) {msg : HubInfoMessage} (hpc : s.pc t = .lookup msg)
    (hget : s.registry.getConnection msg.id = none) : Good (s.goto t (.create msg)) where
  distinct := hs.distinct
  made := hs.made
  lock := hs.lock_of_holds (by rw [hpc]; rfl)
  absent t' id hadd := by
    by_cases ht : t' = t
    · rw [ht, State.goto_pc_self] at hadd
      rw [← Option.some.inj hadd]
      exact getConnection_eq_none.mp hget
    · rw [State.goto_pc_of_ne ht] at hadd
      exact hs.absent t' id hadd
  due t' r hdue := hs.due t' r (of_update (Or.inl rfl) hdue)
  told r hr := (hs.told r hr).imp_right (due_update (congrArg Pc.due hpc))
  untold := hs.untold

/-- **Nobody else is inside of the lock**, so nobody else is to add anything. -/
theorem Good.add (hs : Good s) {hubInfo : HubInfo} (hpc : s.pc t = .add hubInfo) :
    Good ({ s with registry := s.registry.addConnection hubInfo }.goto t (.added s.registry.next)) := by
  have hholds : (s.pc t).holds = true := congrArg Pc.holds hpc
  have hnew : hubInfo.id ∉ s.registry.ids := hs.absent t _ (congrArg Pc.adding hpc)
  have hother : ∀ t', (s.pc t').holds = true → t' ≠ t → False := fun t' h ht => ht (hs.alone hholds h)
  refine ⟨?_, hs.made.addConnection hubInfo, hs.lock_of_holds (by rw [hpc]; rfl), fun t' id hadd => ?_,
    fun t' r hdue => ?_, fun r hr => ?_, fun r hr => hs.untold r (Nat.le_of_succ_le hr)⟩
  · rw [State.goto_registry, addConnection_ids hs.made, List.nodup_append]
    refine ⟨hs.distinct, List.nodup_singleton _, fun a ha b hb => ?_⟩
    rw [List.mem_singleton.mp hb]
    rintro rfl
    exact hnew ha
  · by_cases ht : t' = t
    · rw [ht, State.goto_pc_self] at hadd
      cases hadd
    · rw [State.goto_pc_of_ne ht] at hadd
      exact (hother t' (holds_of_adding hadd) ht).elim
  · by_cases ht : t' = t
    · rw [ht, State.goto_pc_self] at hdue
      rw [← Option.some.inj hdue]
      exact ⟨Nat.lt_succ_self _, hs.untold _ (Nat.le_refl _)⟩
    · rw [State.goto_pc_of_ne ht] at hdue
      exact (hother t' (holds_of_due hdue) ht).elim
  · rcases Nat.lt_succ_iff_lt_or_eq.mp hr with hr | rfl
    · exact (hs.told r hr).imp_right (due_update (congrArg Pc.due hpc))
    · exact Or.inr ⟨t, congrArg Pc.due (State.goto_pc_self ..)⟩

/-- **Who is inside of the lock is the one to announce.** -/
theorem Good.announce (hs : Good s) {r : Ref} (hpc : s.pc t = .added r) :
    Good ((s.publish (.added r)).goto t .unlock) := by
  have hholds : (s.pc t).holds = true := congrArg Pc.holds hpc
  obtain ⟨hlt, hcount⟩ := hs.due t r (congrArg Pc.due hpc)
  have hsame : ∀ r', r' ≠ r → (s.events ++ [Event.added r]).count (.added r') = s.events.count (.added r') := by
    intro r' hne
    rw [List.count_append, List.count_singleton]
    simp [Ne.symm hne]
  refine ⟨hs.distinct, hs.made, hs.lock_of_holds (by rw [hpc]; rfl), fun t' id hadd => ?_,
    fun t' r' hdue => ?_, fun r' hr' => ?_, fun r' hr' => ?_⟩
  · exact hs.absent t' id (of_update (s := s) (Or.inl rfl) hadd)
  · by_cases ht : t' = t
    · rw [ht, State.goto_pc_self] at hdue
      cases hdue
    · rw [State.goto_pc_of_ne ht] at hdue
      exact (ht (hs.alone hholds (holds_of_due hdue))).elim
  · by_cases hr : r' = r
    · left
      show (s.events ++ [Event.added r]).count (.added r') = 1
      rw [hr, List.count_append, hcount, List.count_singleton_self]
    · show (s.events ++ [Event.added r]).count (.added r') = 1 ∨ _
      rw [hsame r' hr]
      refine (hs.told r' hr').imp_right ?_
      rintro ⟨t', hdue⟩
      have ht := hs.alone hholds (holds_of_due hdue)
      rw [ht, hpc] at hdue
      exact absurd (Option.some.inj hdue).symm hr
  · show (s.events ++ [Event.added r]).count (.added r') = 0
    rw [hsame r' (Nat.ne_of_gt (Nat.lt_of_lt_of_le hlt hr'))]
    exact hs.untold r' hr'

theorem Good.step (hs : Good s) {act : Action} (h : step fmt s (t, act) = some s') : Good s' := by
  cases step_cases h with
  | minor hminor => exact hs.minor hminor
  | enter hpc hfree => exact hs.enter hpc hfree
  | leave hpc => exact hs.leave hpc
  | miss hpc hget => exact hs.miss hpc hget
  | add hpc => exact hs.add hpc
  | announce hpc => exact hs.announce hpc

omit [DecidableEq τ] in
theorem good_start : Good (start : State τ) where
  distinct := List.nodup_nil
  made := made_empty
  lock t := iff_of_false (by simp [start, Pc.holds]) (by simp [start])
  absent t id h := by cases h
  due t r h := by cases h
  told r hr := absurd hr (Nat.not_lt_zero r)
  untold r _ := rfl

theorem good_of_run {ls : List (τ × Action)} (h : Run (step fmt) start ls s) : Good s := by
  refine Reaches.inv (P := fun _ s => Good s) good_start ?_ h
  rintro _ s ⟨t, act⟩ s' hs _ hstep
  exact hs.step hstep

/-- **A hub holds one entry per id, and announces each once**, after any steps of any threads.
No two entries have the same id.  Every object ever added has been announced once, or else
it has not been, and one thread is right before it, which nothing stops. -/
theorem registry_announced (fmt : TextFormat) {ls : List (τ × Action)}
    (h : Run (step fmt) (start : State τ) ls s) : s.registry.ids.Nodup ∧
    ∀ r < s.registry.next,
      (s.events.count (.added r) = 1 ∧ ∀ t, s.pc t ≠ .added r) ∨
      (s.events.count (.added r) = 0 ∧ ∃ t, s.pc t = .added r ∧ (∀ t', s.pc t' = .added r → t' = t) ∧
        ∃ s', step fmt s (t, .go) = some s' ∧ s'.events = s.events ++ [.added r]) := by
  have hs := good_of_run h
  refine ⟨hs.distinct, fun r hr => ?_⟩
  by_cases hdue : ∃ t, s.pc t = .added r
  · obtain ⟨t, hpc⟩ := hdue
    have hholds : ∀ t', s.pc t' = .added r → (s.pc t').holds = true := fun t' hpc => congrArg Pc.holds hpc
    refine Or.inr ⟨(hs.due t r (congrArg Pc.due hpc)).2, t, hpc, fun t' hpc' => ?_, ?_⟩
    · exact hs.alone (hholds t hpc) (hholds t' hpc')
    · exact ⟨_, by simp only [Concurrency.step, hpc]; rfl, rfl⟩
  · have hnot : ∀ t, s.pc t ≠ .added r := fun t hpc => hdue ⟨t, hpc⟩
    refine Or.inl ⟨(hs.told r hr).resolve_right ?_, hnot⟩
    exact fun ⟨t, hpc⟩ => hnot t (eq_added_of_due hpc)

/-- A message of the hub `a`. -/
def hello : HubInfoMessage := { id := some "a", connectionType := some "Unknown" }

/-- Both listeners take it; one has added it, and the other waits for the lock. -/
def bothHear : List (Bool × Action) :=
  [(false, .info hello), (true, .info hello), (false, .go), (false, .go), (false, .go), (false, .go)]

theorem registry_announced_bothHear : ∃ s, Run (step dottedText) start bothHear s ∧
    s.registry.next = 1 ∧ s.registry.ids.Nodup ∧
    ∃ s', step dottedText s (false, .go) = some s' ∧ s'.events = s.events ++ [.added 0] := by
  have hexec : (exec (step dottedText) start bothHear).any (fun s =>
      s.registry.next == 1 && (s.pc false).due == some 0) = true := by
    decide
  obtain ⟨s, hs, hcheck⟩ := (Option.any_eq_true _ _).mp hexec
  rw [Bool.and_eq_true, beq_iff_eq, beq_iff_eq] at hcheck
  obtain ⟨hnext, hdue⟩ := hcheck
  have hpc : s.pc false = .added 0 := eq_added_of_due hdue
  obtain ⟨hdistinct, hall⟩ := registry_announced dottedText (run_of_exec hs)
  refine ⟨s, run_of_exec hs, hnext, hdistinct, ?_⟩
  rcases hall 0 (by rw [hnext]; exact Nat.zero_lt_one) with ⟨_, hnot⟩ | ⟨_, t, _, halone, hstep⟩
  · exact absurd hpc (hnot false)
  · rw [← halone false hpc] at hstep
    exact hstep

/-! ### A thread that is not interrupted -/

theorem exec_go (hstep : step fmt s (t, .go) = some s') (n : Nat) :
    exec (step fmt) s (List.replicate (n + 1) (t, .go)) = exec (step fmt) s' (List.replicate n (t, .go)) :=
  exec_cons hstep (List.replicate n (t, .go))

theorem exec_enter (fmt : TextFormat) (hpc : s.pc t = .idle) (hfree : s.owner = none) (msg : HubInfoMessage) :
    ∃ s', (∀ n, exec (step fmt) s ((t, .info msg) :: List.replicate (n + 1) (t, .go)) =
        exec (step fmt) s' (List.replicate n (t, .go))) ∧
      s'.pc t = .lookup msg ∧ s'.registry = s.registry := by
  have hinfo : step fmt s (t, .info msg) = some (s.goto t (.lock msg)) := by
    simp only [step, hpc]
  have hlock : step fmt (s.goto t (.lock msg)) (t, .go) =
      some ({ s.goto t (.lock msg) with owner := some t }.goto t (.lookup msg)) := by
    simp only [step, State.goto_pc_self, State.goto_owner, hfree, Option.isNone_none, if_true]
  refine ⟨{ s.goto t (.lock msg) with owner := some t }.goto t (.lookup msg), fun n => ?_,
    State.goto_pc_self .., rfl⟩
  rw [exec_cons hinfo, exec_go hlock]

theorem exec_leave (hpc : s.pc t = .unlock) :
    exec (step fmt) s (List.replicate 1 (t, .go)) = some ({ s with owner := none }.goto t .idle) := by
  have hunlock : step fmt s (t, .go) = some ({ s with owner := none }.goto t .idle) := by
    simp only [step, hpc]
  rw [exec_go hunlock]
  rfl

/-- **A `HubInfoMessage` handled without interruption** leaves the list as the handler of
`Hub.Handlers` does. -/
theorem info_uninterrupted (hpc : s.pc t = .idle) (hfree : s.owner = none) (msg : HubInfoMessage)
    {h : HubManager} (hc : h.connections = s.registry) :
    ∃ n s', exec (step fmt) s ((t, .info msg) :: List.replicate n (t, .go)) = some s' ∧
      s'.pc t = .idle ∧ s'.owner = none ∧
      s'.registry = (processInfo fmt msg h).state.connections := by
  obtain ⟨s₁, henter, hpc₁, hreg₁⟩ := exec_enter fmt hpc hfree msg
  rw [← hreg₁] at hc
  rw [processInfo, hc]
  cases hget : s₁.registry.getConnection msg.id with
  | none =>
    have hlookup : step fmt s₁ (t, .go) = some (s₁.goto t (.create msg)) := by
      simp only [step, hpc₁, hget]
    cases hm : HubInfo.ofMessage fmt msg with
    | error e =>
      have hcreate : step fmt (s₁.goto t (.create msg)) (t, .go) =
          some ((s₁.goto t (.create msg)).goto t .unlock) := by
        simp only [step, State.goto_pc_self, hm]
      refine ⟨4, { (s₁.goto t (.create msg)).goto t .unlock with owner := none }.goto t .idle, ?_,
        State.goto_pc_self .., rfl, hc.symm⟩
      rw [henter, exec_go hlookup, exec_go hcreate, exec_leave (State.goto_pc_self ..)]
    | ok hubInfo =>
      -- it adds the object, and announces it
      let s₂ := (s₁.goto t (.create msg)).goto t (.add hubInfo)
      let s₃ := { s₂ with registry := s₂.registry.addConnection hubInfo }.goto t (.added s₂.registry.next)
      let s₄ := (s₃.publish (.added s₂.registry.next)).goto t .unlock
      have hcreate : step fmt (s₁.goto t (.create msg)) (t, .go) = some s₂ := by
        simp only [step, State.goto_pc_self, hm, s₂]
      have hadd : step fmt s₂ (t, .go) = some s₃ := by
        simp only [step, s₂, State.goto_pc_self, s₃]
      have hadded : step fmt s₃ (t, .go) = some s₄ := by
        simp only [step, s₃, State.goto_pc_self, s₄]
      refine ⟨6, { s₄ with owner := none }.goto t .idle, ?_, State.goto_pc_self .., rfl, rfl⟩
      rw [henter, exec_go hlookup, exec_go hcreate, exec_go hadd, exec_go hadded,
        exec_leave (State.goto_pc_self ..)]
  | some r =>
    have hlookup : step fmt s₁ (t, .go) = some (s₁.goto t (.update msg r)) := by
      simp only [step, hpc₁, hget]
    have hheap : h.hubInfo r = s₁.registry.heap r := by rw [HubManager.hubInfo, hc]
    simp only [hheap]
    cases hu : (s₁.registry.heap r).update fmt msg with
    | thrown e hubInfo =>
      let s₂ := { s₁.goto t (.update msg r) with registry := s₁.registry.store r hubInfo }.goto t .unlock
      have hupdate : step fmt (s₁.goto t (.update msg r)) (t, .go) = some s₂ := by
        simp only [step, State.goto_pc_self, State.goto_registry, hu, s₂]
      refine ⟨4, { s₂ with owner := none }.goto t .idle, ?_, State.goto_pc_self .., rfl, ?_⟩
      · rw [henter, exec_go hlookup, exec_go hupdate, exec_leave (State.goto_pc_self ..)]
      · show s₁.registry.store r hubInfo = h.connections.store r hubInfo
        rw [hc]
    | done hubInfo =>
      -- it announces the update
      let s₂ := { s₁.goto t (.update msg r) with
        registry := s₁.registry.store r hubInfo }.goto t (.updated r)
      let s₃ := (s₂.publish (.updated r)).goto t .unlock
      have hupdate : step fmt (s₁.goto t (.update msg r)) (t, .go) = some s₂ := by
        simp only [step, State.goto_pc_self, State.goto_registry, hu, s₂]
      have hupdated : step fmt s₂ (t, .go) = some s₃ := by
        simp only [step, s₂, State.goto_pc_self, s₃]
      refine ⟨5, { s₃ with owner := none }.goto t .idle, ?_, State.goto_pc_self .., rfl, ?_⟩
      · rw [henter, exec_go hlookup, exec_go hupdate, exec_go hupdated,
          exec_leave (State.goto_pc_self ..)]
      · show s₁.registry.store r hubInfo = ((h.store r hubInfo).publishUpdated r).connections
        rw [HubManager.publishUpdated_connections, HubManager.store, hc]

/-- **A `Disconnected` notification handled without interruption**, too. -/
theorem disconnected_uninterrupted (hpc : s.pc t = .idle) (tag : String) {h : HubManager}
    (hc : h.connections = s.registry) {item : NotificationMessage} (htype : item.type = .Disconnected)
    (htag : item.tag = some tag) :
    ∃ n s', exec (step fmt) s ((t, .disconnected tag) :: List.replicate n (t, .go)) = some s' ∧
      s'.pc t = .idle ∧ s'.registry = (processNotification item h).state.connections := by
  let s₁ := s.goto t (.find tag)
  have htake : step fmt s (t, .disconnected tag) = some s₁ := by
    simp only [step, hpc, s₁]
  simp only [processNotification, htype, htag, hc]
  cases hget : s.registry.getConnection (some tag) with
  | none =>
    have hfind : step fmt s₁ (t, .go) = some (s₁.goto t .idle) := by
      simp only [step, s₁, State.goto_pc_self, State.goto_registry, hget]
    refine ⟨1, s₁.goto t .idle, ?_, State.goto_pc_self .., hc.symm⟩
    rw [exec_cons htake, exec_go hfind]
    rfl
  | some r =>
    -- it removes the object, and announces it
    let s₂ := s₁.goto t (.remove r)
    let s₃ := { s₂ with registry := s₂.registry.removeConnection r }.goto t (.removed r)
    let s₄ := (s₃.publish (.removed r)).goto t .idle
    have hfind : step fmt s₁ (t, .go) = some s₂ := by
      simp only [step, s₁, State.goto_pc_self, State.goto_registry, hget, s₂]
    have hremove : step fmt s₂ (t, .go) = some s₃ := by
      simp only [step, s₂, State.goto_pc_self, s₃]
    have hremoved : step fmt s₃ (t, .go) = some s₄ := by
      simp only [step, s₃, State.goto_pc_self, s₄]
    refine ⟨3, s₄, ?_, State.goto_pc_self .., rfl⟩
    rw [exec_cons htake, exec_go hfind, exec_go hremove, exec_go hremoved]
    rfl

end

end Blockcore.Hub.Concurrency
