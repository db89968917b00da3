import Blockcore.Gateway.Relay
import Blockcore.Lib.Runs
import Blockcore.Networking.ConnectionManager
import Blockcore.Networking.DottedText

/-!
# A relay while hubs come and go

`BroadcastMessageGatewayHandler` goes over the list that `GetBroadcastConnections`
gives it, which is the gateway's own list and no copy.  The enumerator of a list
remembers the version the list had, and `MoveNext` throws once it has another.

`tolerates_iff` says that the loop gets to its end, with one copy to every connected
hub, exactly if no other thread changes the list meanwhile.  As long as none does
the loop is where `OnCourse` has it; after that it is `OffCourse` until it throws.
-/

namespace Blockcore.Gateway.Enumeration

open Lib Networking

/-- What other threads do to the list. -/
inductive Change where
  | addConnection (hubInfo : HubInfo)
  | removeConnection (connection : Ref)
  deriving DecidableEq

def change (s : ConnectionManager) : Change → ConnectionManager
  | .addConnection hubInfo => s.addConnection hubInfo
  | .removeConnection connection => s.removeConnection connection

def registryAfter (changes : List Change) : ConnectionManager := changes.foldl change .empty

/-- `List<T>.Enumerator`: how far it is, and the version the list had. -/
structure Enumerator where
  index : Nat
  version : Nat

inductive Loop where
  /-- Before `MoveNext`. -/
  | moveNext (enumerator : Enumerator)
  /-- Before `SendTCP(new Broadcast(msg), connection.Client)`. -/
  | send (enumerator : Enumerator) (connection : Ref)
  | finished
  | threw

def Loop.running : Loop → Bool
  | .moveNext _ => true
  | .send _ _ => true
  | .finished => false
  | .threw => false

/-- The list with its version, and the loop. `sent` holds the copies the loop sent:
for which entry, and over which client. -/
structure State where
  registry : ConnectionManager
  version : Nat
  connected : TcpClient → Bool
  loop : Loop
  sent : List (Ref × TcpClient)

/-- The loop goes on, or another thread changes the list. -/
inductive Step where
  | go
  | change (c : Change)
  deriving DecidableEq

/-- The change makes a new version: to remove what is not there changes nothing. -/
def Alters (s : State) : Change → Prop
  | .addConnection _ => True
  | .removeConnection connection => connection ∈ s.registry.connections

instance (s : State) (c : Change) : Decidable (Alters s c) := by
  cases c with
  | addConnection hubInfo => exact .isTrue trivial
  | removeConnection connection => exact inferInstanceAs (Decidable (_ ∈ _))

/-- The copies that are sent for these entries. -/
def copies (s : State) (connections : List Ref) : List (Ref × TcpClient) :=
  connections.flatMap fun r => ((s.registry.heap r).client.filter s.connected).toList.map (r, ·)

def go (s : State) : State :=
  match s.loop with
  | .moveNext enumerator =>
    if enumerator.version = s.version then
      match s.registry.connections[enumerator.index]? with
      | some connection =>
        { s with loop := .send { enumerator with index := enumerator.index + 1 } connection }
      | none => { s with loop := .finished }
    else { s with loop := .threw }
  | .send enumerator connection =>
    { s with loop := .moveNext enumerator, sent := s.sent ++ copies s [connection] }
  | .finished => s
  | .threw => s

def step (s : State) : Step → State
  | .go => go s
  | .change c =>
    { s with registry := change s.registry c,
             version := if Alters s c then s.version + 1 else s.version }

def run (s : State) (steps : List Step) : State := steps.foldl step s

/-- The loop begins; before that the list was changed so. -/
def start (changes : List Change) (connected : TcpClient → Bool) : State where
  registry := registryAfter changes
  version := changes.length
  connected := connected
  loop := .moveNext ⟨0, changes.length⟩
  sent := []

/-- The entry is registered, and its client is connected. -/
def Reachable (s : State) (r : Ref) : Prop :=
  r ∈ s.registry.connections ∧ ∃ c, (s.registry.heap r).client = some c ∧ s.connected c = true

/-- The loop runs to completion, and sends one copy to every entry that is reachable
all the time. -/
structure Tolerates (s₀ : State) (steps : List Step) : Prop where
  completes : (run s₀ steps).loop = .finished
  once : ∀ r, (∀ done, done <+: steps → (run s₀ done).loop.running = true →
    Reachable (run s₀ done) r) → ((run s₀ steps).sent.map Prod.fst).count r = 1

/-- The step changes the list while the loop runs. -/
def Disturbs (s : State) (l : Step) : Prop :=
  ∃ c, l = .change c ∧ Alters s c ∧ s.loop.running = true

/-! ### The copies -/

section

variable {s s₀ : State}

theorem copies_append (s : State) (as bs : List Ref) :
    copies s (as ++ bs) = copies s as ++ copies s bs := List.flatMap_append

theorem copies_fst (s : State) (rs : List Ref) : (copies s rs).map Prod.fst =
    rs.filter fun r => ((s.registry.heap r).client.filter s.connected).isSome := by
  induction rs with
  | nil => rfl
  | cons r rs ih =>
    rw [← List.singleton_append, copies_append, List.map_append, ih, List.filter_append]
    refine congrArg (· ++ _) ?_
    rw [copies, List.flatMap_singleton, List.filter_singleton]
    cases (s.registry.heap r).client.filter s.connected <;> rfl

theorem copies_snd (s : State) (rs : List Ref) : (copies s rs).map Prod.snd =
    rs.filterMap fun r => (s.registry.heap r).client.filter s.connected := by
  induction rs with
  | nil => rfl
  | cons r rs ih =>
    rw [← List.singleton_append, copies_append, List.map_append, ih, List.filterMap_append]
    cases h : (s.registry.heap r).client.filter s.connected <;> simp [copies, h]

theorem copies_once (hm : s.registry.Made) {r : Ref} (hr : Reachable s r) :
    ((copies s s.registry.connections).map Prod.fst).count r = 1 := by
  obtain ⟨hmem, c, hc, hconn⟩ := hr
  rw [copies_fst, List.count_filter (by simp [hc, hconn])]
  exact List.count_eq_one_of_mem hm.nodup hmem

theorem made_registryAfter (changes : List Change) : (registryAfter changes).Made := by
  induction changes using List.reverseRecOn with
  | nil => exact ConnectionManager.made_empty
  | append_singleton changes c ih =>
    rw [registryAfter, List.foldl_append]
    cases c with
    | addConnection hubInfo => exact ih.addConnection hubInfo
    | removeConnection connection => exact ih.removeConnection connection

/-! ### On course, and off it -/

/-- Where the loop is while the list is as it was in the beginning. -/
inductive OnCourse (s₀ : State) : State → Prop where
  | moveNext (k : Nat) : k ≤ s₀.registry.connections.length →
      OnCourse s₀ { s₀ with loop := .moveNext ⟨k, s₀.version⟩,
                            sent := copies s₀ (s₀.registry.connections.take k) }
  | send (k : Nat) (r : Ref) : s₀.registry.connections[k]? = some r →
      OnCourse s₀ { s₀ with loop := .send ⟨k + 1, s₀.version⟩ r,
                            sent := copies s₀ (s₀.registry.connections.take k) }
  | finished (s : State) : s.loop = .finished → s.sent = copies s₀ s₀.registry.connections →
      OnCourse s₀ s

/-- The list is no longer what the enumerator takes it for, and this has been, or will
be, found out. -/
def OffCourse (s : State) : Prop :=
  match s.loop with
  | .moveNext enumerator => enumerator.version < s.version
  | .send enumerator _ => enumerator.version < s.version
  | .finished => False
  | .threw => True

theorem onCourse_go (h : OnCourse s₀ s) : OnCourse s₀ (step s .go) := by
  cases h with
  | moveNext k hk =>
    simp only [step, go, if_true]
    cases hr : s₀.registry.connections[k]? with
    | some r => exact .send k r hr
    | none =>
      rw [List.getElem?_eq_none_iff] at hr
      exact .finished _ rfl (by rw [List.take_of_length_le hr])
  | send k r hr =>
    have hk : k < s₀.registry.connections.length := (List.getElem?_eq_some_iff.mp hr).1
    have htake : copies s₀ (s₀.registry.connections.take k) ++ copies s₀ [r] =
        copies s₀ (s₀.registry.connections.take (k + 1)) := by
      rw [← copies_append, List.take_add_one, hr]
      rfl
    have hnext : OnCourse s₀ { s₀ with
        loop := .moveNext ⟨k + 1, s₀.version⟩
        sent := copies s₀ (s₀.registry.connections.take (k + 1)) } := .moveNext (k + 1) hk
    rw [← htake] at hnext
    exact hnext
  | finished s hloop hsent =>
    have hsame : go s = s := by rw [go, hloop]
    rw [step, hsame]
    exact .finished s hloop hsent

theorem step_unaltered {c : Change} (h : ¬ Alters s c) : step s (.change c) = s := by
  have hsame : change s.registry c = s.registry := by
    cases c with
    | addConnection hubInfo => exact absurd trivial h
    | removeConnection connection =>
      rw [change, ConnectionManager.removeConnection, List.erase_of_not_mem h]
  rw [step, hsame, if_neg h]

theorem onCourse_change {c : Change} (h : OnCourse s₀ s) (hc : ¬ Disturbs s (.change c)) :
    OnCourse s₀ (step s (.change c)) := by
  by_cases halters : Alters s c
  · cases h with
    | moveNext k hk => exact absurd ⟨c, rfl, halters, rfl⟩ hc
    | send k r hr => exact absurd ⟨c, rfl, halters, rfl⟩ hc
    | finished s hloop hsent => exact .finished _ hloop hsent
  · rwa [step_unaltered halters]

theorem offCourse_of_disturbs {l : Step} (h : OnCourse s₀ s) (hl : Disturbs s l) :
    OffCourse (step s l) := by
  obtain ⟨c, rfl, halters, hrunning⟩ := hl
  rw [step, if_pos halters]
  cases h with
  | moveNext k hk => exact Nat.lt_succ_self s₀.version
  | send k r hr => exact Nat.lt_succ_self s₀.version
  | finished s hloop hsent =>
    rw [hloop] at hrunning
    cases hrunning

theorem version_change (s : State) (c : Change) : s.version ≤ (step s (.change c)).version := by
  show s.version ≤ if Alters s c then s.version + 1 else s.version
  split <;> omega

theorem OffCourse.step {l : Step} (h : OffCourse s) : OffCourse (step s l) := by
  cases l with
  | go =>
    rw [Enumeration.step, go]
    unfold OffCourse at h
    split at h
    · simp [Nat.ne_of_lt h, OffCourse]
    · next hloop => simpa [hloop, OffCourse] using h
    · cases h
    · next hloop => simp [hloop, OffCourse]
  | change c =>
    have hversion := version_change s c
    unfold OffCourse at h ⊢
    split at h
    · next enumerator hloop =>
      have hsame : (Enumeration.step s (.change c)).loop = .moveNext enumerator := hloop
      simp only [hsame]
      omega
    · next enumerator connection hloop =>
      have hsame : (Enumeration.step s (.change c)).loop = .send enumerator connection := hloop
      simp only [hsame]
      omega
    · cases h
    · next hloop =>
      have hsame : (Enumeration.step s (.change c)).loop = .threw := hloop
      simp only [hsame]

theorem not_offCourse (h : OnCourse s₀ s) : ¬ OffCourse s := by
  cases h with
  | moveNext k hk => exact Nat.lt_irrefl s₀.version
  | send k r hr => exact Nat.lt_irrefl s₀.version
  | finished s hloop hsent =>
    rw [OffCourse, hloop]
    exact id

/-- **One step keeps the loop on course**, unless it changes the list under it. -/
theorem onCourse_step_iff (s₀ s : State) (l : Step) (h : OnCourse s₀ s) :
    OnCourse s₀ (step s l) ↔ ¬ Disturbs s l := by
  refine ⟨?_, ?_⟩
  · intro h' hl
    exact not_offCourse h' (offCourse_of_disturbs h hl)
  · intro hl
    cases l with
    | go => exact onCourse_go h
    | change c => exact onCourse_change h hl

theorem OffCourse.run (h : OffCourse s) (steps : List Step) : OffCourse (run s steps) := by
  induction steps generalizing s with
  | nil => exact h
  | cons l steps ih => exact ih h.step

theorem onCourse_start (changes : List Change) (connected : TcpClient → Bool) :
    OnCourse (start changes connected) (start changes connected) :=
  .moveNext 0 (Nat.zero_le _)

theorem onCourse_or (changes : List Change) (connected : TcpClient → Bool) (steps : List Step) :
    OnCourse (start changes connected) (run (start changes connected) steps) ∨
      OffCourse (run (start changes connected) steps) := by
  induction steps using List.reverseRecOn with
  | nil => exact Or.inl (onCourse_start changes connected)
  | append_singleton steps l ih =>
    rw [Enumeration.run, List.foldl_concat]
    rcases ih with h | h
    · by_cases hl : Disturbs (Enumeration.run (start changes connected) steps) l
      · exact Or.inr (offCourse_of_disturbs h hl)
      · exact Or.inl ((onCourse_step_iff _ _ l h).mpr hl)
    · exact Or.inr h.step

/-! ### The loop ends -/

/-- The steps the loop still takes, if it is not disturbed; a disturbed one takes one or
two. -/
def todo (s : State) : Nat :=
  match s.loop with
  | .moveNext enumerator =>
    if enumerator.version = s.version then
      2 * (s.registry.connections.length - enumerator.index) + 1
    else 1
  | .send enumerator _ =>
    if enumerator.version = s.version then
      2 * (s.registry.connections.length - enumerator.index) + 2
    else 2
  | .finished => 0
  | .threw => 0

theorem todo_go (s : State) : todo (step s .go) ≤ todo s - 1 := by
  rw [step, go]
  cases hloop : s.loop with
  | moveNext enumerator =>
    simp only [todo, hloop]
    by_cases hv : enumerator.version = s.version
    · simp only [hv, if_true]
      cases hr : s.registry.connections[enumerator.index]? with
      | none => simp
      | some r =>
        have := (List.getElem?_eq_some_iff.mp hr).1
        simp only [if_true]
        omega
    · simp [hv]
  | send enumerator connection =>
    simp only [todo, hloop]
    split <;> omega
  | finished => simp [todo, hloop]
  | threw => simp [todo, hloop]

def Loop.version : Loop → Nat
  | .moveNext enumerator => enumerator.version
  | .send enumerator _ => enumerator.version
  | .finished => 0
  | .threw => 0

theorem version_step (l : Step) (h : s.loop.version ≤ s.version) :
    (step s l).loop.version ≤ (step s l).version := by
  cases l with
  | change c => exact h.trans (version_change s c)
  | go =>
    rw [step, go]
    cases hloop : s.loop with
    | moveNext enumerator =>
      rw [hloop] at h
      simp only
      split
      · split
        · exact h
        · exact Nat.zero_le _
      · exact Nat.zero_le _
    | send enumerator connection => rwa [hloop] at h
    | finished => exact h
    | threw => exact h

theorem todo_change (h : s.loop.version ≤ s.version) (c : Change) :
    todo (step s (.change c)) ≤ todo s := by
  by_cases halters : Alters s c
  · rw [step, if_pos halters]
    cases hloop : s.loop with
    | moveNext enumerator =>
      rw [hloop, Loop.version] at h
      have hstale : enumerator.version ≠ s.version + 1 := by omega
      simp only [todo, hloop, if_neg hstale]
      split <;> omega
    | send enumerator connection =>
      rw [hloop, Loop.version] at h
      have hstale : enumerator.version ≠ s.version + 1 := by omega
      simp only [todo, hloop, if_neg hstale]
      split <;> omega
    | finished => simp [todo, hloop]
    | threw => simp [todo, hloop]
  · rw [step_unaltered halters]

/-- **The loop ends** after so many of its own steps, whatever comes between them. -/
theorem run_ends : ∀ (steps : List Step) (s : State), s.loop.version ≤ s.version →
    todo s ≤ steps.count .go → (run s steps).loop.running = false := by
  intro steps
  induction steps with
  | nil =>
    intro s _ hcount
    rw [List.count_nil, Nat.le_zero, todo] at hcount
    rw [run, List.foldl_nil]
    cases hloop : s.loop with
    | moveNext enumerator => simp only [hloop] at hcount; split at hcount <;> omega
    | send enumerator connection => simp only [hloop] at hcount; split at hcount <;> omega
    | finished => rfl
    | threw => rfl
  | cons l steps ih =>
    intro s hv hcount
    refine ih (step s l) (version_step l hv) ?_
    cases l with
    | go =>
      have := todo_go s
      rw [List.count_cons_self] at hcount
      omega
    | change c =>
      rw [List.count_cons_of_ne (by simp)] at hcount
      exact (todo_change hv c).trans hcount

theorem todo_start (changes : List Change) (connected : TcpClient → Bool) :
    todo (start changes connected) = 2 * (registryAfter changes).connections.length + 1 := by
  simp [todo, start]

/-! ### The loop's result -/

theorem onCourse_run_iff (changes : List Change) (connected : TcpClient → Bool) (steps : List Step) :
    OnCourse (start changes connected) (run (start changes connected) steps) ↔
      ∀ done l, done ++ [l] <+: steps → ¬ Disturbs (run (start changes connected) done) l := by
  have hall := foldl_all_iff (I := fun _ => True) (Q := OnCourse (start changes connected))
    (fun _ _ _ => trivial) (fun s l _ h => onCourse_step_iff _ s l h) trivial
    (onCourse_start changes connected) steps
  refine Iff.trans ⟨fun h done hpre => ?_, fun h => h steps (List.prefix_refl _)⟩ hall
  obtain ⟨rest, rfl⟩ := hpre
  refine (onCourse_or changes connected done).resolve_right fun hoff => ?_
  rw [run, List.foldl_append] at h
  exact not_offCourse h (hoff.run rest)

theorem OnCourse.sent (h : OnCourse s₀ s) (hended : s.loop.running = false) :
    s.loop = .finished ∧ s.sent = copies s₀ s₀.registry.connections := by
  cases h with
  | moveNext k hk => cases hended
  | send k r hr => cases hended
  | finished s hloop hsent => exact ⟨hloop, hsent⟩

/-- **An undisturbed loop is the loop of the handler that runs alone.** -/
theorem sent_eq_processBroadcast {changes : List Change} {connected : TcpClient → Bool}
    {msg : BroadcastMessage} {g : GatewayManager} (h : OnCourse (start changes connected) s)
    (hended : s.loop.running = false) (hg : g.connections = (registryAfter changes).entries)
    (hconnected : g.connected = connected) (hto : msg.to = some "HUB")
    (hw : ∀ c ∈ g.liveClients g.connections, g.writeFails c = false) :
    processBroadcast msg g = .done (g.log (s.sent.map fun copy => .tcp copy.2 (.broadcast msg))) := by
  have hsent : s.sent.map Prod.snd = g.liveClients g.connections := by
    rw [(h.sent hended).2, copies_snd, hg, GatewayManager.liveClients, ConnectionManager.entries,
      List.filterMap_map, hconnected]
    rfl
  rw [processBroadcast_hub hto hw, ← hsent, List.map_map]
  rfl

end

/-- **A relay tolerates membership changes exactly if there are none while its loop
runs**, however the steps of the threads come, once the loop has had its steps. -/
theorem tolerates_iff (changes : List Change) (connected : TcpClient → Bool) (steps : List Step)
    (henough : 2 * (registryAfter changes).connections.length + 1 ≤ steps.count .go) :
    Tolerates (start changes connected) steps ↔
      ∀ done l, done ++ [l] <+: steps → ¬ Disturbs (run (start changes connected) done) l := by
  have hended : (run (start changes connected) steps).loop.running = false :=
    run_ends steps _ (Nat.le_refl _) (by rw [todo_start]; exact henough)
  rw [← onCourse_run_iff]
  refine ⟨?_, ?_⟩
  · intro h
    refine (onCourse_or changes connected steps).resolve_right fun hoff => ?_
    rw [OffCourse, h.completes] at hoff
    exact hoff
  · intro h
    obtain ⟨hloop, hsent⟩ := h.sent hended
    refine ⟨hloop, fun r hr => ?_⟩
    rw [hsent]
    exact copies_once (made_registryAfter changes) (hr [] List.nil_prefix rfl)

def joins (id : String) (client : TcpClient) : Change :=
  .addConnection { id := some id, client := some client }

theorem tolerates_iff_late :
    Tolerates (start [joins "a" 1] fun _ => true) [.go, .go, .go, .change (joins "b" 2)] ↔
      ∀ done l, done ++ [l] <+: [.go, .go, .go, .change (joins "b" 2)] →
        ¬ Disturbs (run (start [joins "a" 1] fun _ => true) done) l :=
  tolerates_iff [joins "a" 1] (fun _ => true) [.go, .go, .go, .change (joins "b" 2)] (by decide)

/-- **A hub that joins while the loop runs ends it.** -/
theorem loop_threw :
    ¬ ∀ (changes : List Change) (connected : TcpClient → Bool) (steps : List Step),
      2 * (registryAfter changes).connections.length + 1 ≤ steps.count .go →
      Tolerates (start changes connected) steps := by
  intro hall
  have h := (hall [joins "a" 1, joins "b" 2] (fun _ => true)
    [.go, .go, .change (joins "c" 3), .go, .go, .go] (by decide)).completes
  have hthrew : (run (start [joins "a" 1, joins "b" 2] fun _ => true)
      [.go, .go, .change (joins "c" 3), .go, .go, .go]).loop = .threw := rfl
  rw [hthrew] at h
  cases h

end Blockcore.Gateway.Enumeration
