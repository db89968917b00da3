import Blockcore.Hub.Listeners

/-!
# The hub as the service runs it

`StartAsync` starts a task that calls `ConnectGateway` every ten seconds until a call succeeds.  The
call starts the two listeners and the thread of the keep-alives, and a listener that is told of a
shutdown calls `DisconnectedGateway`.  Nothing else calls either.  The calls are those of
`Hub.Listeners`, but here the task and the listeners each have their own.

A listener cannot have a message in hand before both are started (`Started`), so no flag is set after
it was cleared (`Phase`).  `one_of_each` is what follows at once: every thread is started once at most.

Cancelling ends the task alone.  What is written over the sockets is left out, and what is done with
other messages.
-/

namespace Blockcore.Hub.Service

open Lib

/-- Where the task of `StartAsync` is. -/
inductive TaskPc where
  /-- Before the test of the token. -/
  | test
  | connectGateway (pc : Listeners.CallPc)
  /-- In `ConnectGateway`, before the keep-alives are started. -/
  | startKeepAlive
  /-- Before `GatewayConnectedEvent` is published. -/
  | publish
  /-- In `Task.Delay`. -/
  | delay
  | ended
  deriving DecidableEq

/-- Where the thread of the keep-alives is. -/
inductive KeepAlivePc where
  /-- Before the test of `Connected`. -/
  | test
  /-- In `Thread.Sleep(5000)`. -/
  | sleep
  | ended
  deriving DecidableEq

/-- The events published of the connection. -/
inductive Event where
  | gatewayConnected
  | gatewayShutdown
  | gatewayError
  deriving DecidableEq

/-- A thread of `ListenUDP` or `ListenTCP`. -/
inductive Listener where
  | udp (t : Nat)
  | tcp (t : Nat)
  deriving DecidableEq

/-- The task; the hub with its listeners; how far each listener is in `DisconnectedGateway`, if it
called it; the threads of the keep-alives; the events. The calls are kept here, and `hub.call` is
not used. -/
structure State where
  hub : Listeners.State
  task : TaskPc
  connectedToGateway : Bool
  disconnecting : Listener → Option Listeners.CallPc
  keepAlives : List KeepAlivePc
  published : List Event
  cancelled : Bool

/-- What happens: the task goes on; a listener that has a message in hand is told of a shutdown, goes
on with `DisconnectedGateway`, or goes on otherwise; a connection is lost; a thread of the keep-alives
goes on; the task is cancelled. For `ok` see `Listeners.Label`. -/
inductive Label where
  | task (ok : Bool)
  | shutdown (l : Listener)
  | disconnectedGateway (l : Listener)
  | listener (l : Listener) (ok : Bool)
  | lose (client : Nat)
  | keepAlive (t : Nat)
  | cancel
  deriving DecidableEq

def Listener.step (hub : Listeners.State) (ok : Bool) : Listener → Option Listeners.State
  | .udp t => Listeners.step hub (.udp t ok)
  | .tcp t => Listeners.step hub (.tcp t ok)

def Listener.processing (hub : Listeners.State) : Listener → Bool
  | .udp t => hub.udpThreads[t]? = some .process
  | .tcp t => hub.tcpThreads[t]? = some .process

namespace State

/-- The call the task or a listener is in goes on. -/
def advance (s : State) (ok : Bool) (pc : Listeners.CallPc) : State :=
  { s with hub := { Listeners.proceed s.hub ok pc with call := none } }

def next (s : State) (ok : Bool) (pc : Listeners.CallPc) : Option Listeners.CallPc :=
  (Listeners.proceed s.hub ok pc).call

/-- The task goes on in `ConnectGateway`. What is thrown there is caught, and `false` returned. -/
def connectGateway (s : State) (ok : Bool) (pc : Listeners.CallPc) : State :=
  match s.next ok pc with
  | some pc' => { s.advance ok pc with task := .connectGateway pc' }
  | none =>
    if pc = .pause then { s.advance ok pc with task := .startKeepAlive }
    else { s.advance ok pc with task := .delay, published := s.published ++ [.gatewayError] }

def taskStep (s : State) (ok : Bool) : TaskPc → Option State
  | .test =>
    some { s with
      task :=
        if s.cancelled then .ended
        else if s.connectedToGateway then .delay else .connectGateway .adapter }
  | .connectGateway pc => some (s.connectGateway ok pc)
  | .startKeepAlive => some { s with task := .publish, keepAlives := s.keepAlives ++ [.test] }
  | .publish =>
    some { s with
      task := .delay, connectedToGateway := true
      published := s.published ++ [.gatewayConnected] }
  | .delay => some { s with task := if s.cancelled then .ended else .test }
  | .ended => none

/-- A step of a listener in `DisconnectedGateway`. Where that returns, `GatewayShutdownEvent` is
published; where it throws, the listener logs it. -/
def disconnectedGateway (s : State) (l : Listener) (pc : Listeners.CallPc) : State :=
  { s.advance true pc with
    disconnecting := Function.update s.disconnecting l (s.next true pc)
    published := if pc = .clearConnections then s.published ++ [.gatewayShutdown] else s.published }

/-- A step of a thread of the keep-alives. After its sleep it sends one, if it is connected. -/
def keepAliveNext (s : State) : KeepAlivePc → Option KeepAlivePc
  | .test => some (if s.hub.isConnected then .sleep else .ended)
  | .sleep => some .test
  | .ended => none

end State

def step (s : State) : Label → Option State
  | .task ok => s.taskStep ok s.task
  | .shutdown l =>
    if l.processing s.hub ∧ s.disconnecting l = none then
      (l.step s.hub true).map fun hub =>
        { s with hub, disconnecting := Function.update s.disconnecting l (some .disconnect) }
    else none
  | .disconnectedGateway l => (s.disconnecting l).map fun pc => s.disconnectedGateway l pc
  | .listener l ok =>
    if s.disconnecting l = none then (l.step s.hub ok).map fun hub => { s with hub } else none
  | .lose client => (Listeners.step s.hub (.lose client)).map fun hub => { s with hub }
  | .keepAlive t =>
    (s.keepAlives[t]?.bind s.keepAliveNext).map fun pc =>
      { s with keepAlives := s.keepAlives.set t pc }
  | .cancel => some { s with cancelled := true }

def start : State where
  hub := Listeners.start
  task := .test
  connectedToGateway := false
  disconnecting _ := none
  keepAlives := []
  published := []
  cancelled := false

/-! ### What a step can do -/

/-- What a step of a listener does. -/
inductive Moved (hub : Listeners.State) (ok : Bool) : Listener → Listeners.State → Prop where
  | udp {t : Nat} {pc pc' : Listeners.UdpPc} (hpc : hub.udpThreads[t]? = some pc)
      (hnext : Listeners.udpNext hub ok pc = some pc') :
      Moved hub ok (.udp t) { hub with udpThreads := hub.udpThreads.set t pc' }
  | tcp {t : Nat} {pc pc' : Listeners.TcpPc} (hpc : hub.tcpThreads[t]? = some pc)
      (hnext : Listeners.tcpNext hub ok pc = some pc') :
      Moved hub ok (.tcp t) { hub with tcpThreads := hub.tcpThreads.set t pc' }

theorem listener_moved {l : Listener} {ok : Bool} {hub hub' : Listeners.State}
    (h : l.step hub ok = some hub') : Moved hub ok l hub' := by
  cases l with
  | udp t =>
    obtain ⟨pc', hbind, rfl⟩ := Option.map_eq_some_iff.mp h
    obtain ⟨pc, hpc, hnext⟩ := Option.bind_eq_some_iff.mp hbind
    exact .udp hpc hnext
  | tcp t =>
    obtain ⟨pc', hbind, rfl⟩ := Option.map_eq_some_iff.mp h
    obtain ⟨pc, hpc, hnext⟩ := Option.bind_eq_some_iff.mp hbind
    exact .tcp hpc hnext

inductive TaskCase (s : State) (ok : Bool) : State → Prop where
  | connectGateway {pc : Listeners.CallPc} (htask : s.task = .connectGateway pc) :
      TaskCase s ok (s.connectGateway ok pc)
  | startKeepAlive (htask : s.task = .startKeepAlive) :
      TaskCase s ok { s with task := .publish, keepAlives := s.keepAlives ++ [.test] }
  | publish (htask : s.task = .publish) :
      TaskCase s ok { s with
        task := .delay, connectedToGateway := true
        published := s.published ++ [.gatewayConnected] }
  | goto {task : TaskPc} (hwas : s.task = .test ∨ s.task = .delay)
      (hto : task = .test ∨ task = .delay ∨ task = .ended ∨
        task = .connectGateway .adapter ∧ s.connectedToGateway = false) :
      TaskCase s ok { s with task := task }

variable {s s' t : State} {ls : List Label}

theorem task_case {ok : Bool} (h : s.taskStep ok s.task = some s') : TaskCase s ok s' := by
  cases htask : s.task with
  | connectGateway pc =>
    rw [htask] at h
    obtain rfl := Option.some.inj h
    exact .connectGateway htask
  | startKeepAlive =>
    rw [htask] at h
    obtain rfl := Option.some.inj h
    exact .startKeepAlive htask
  | publish =>
    rw [htask] at h
    obtain rfl := Option.some.inj h
    exact .publish htask
  | test =>
    rw [htask] at h
    obtain rfl := Option.some.inj h
    refine .goto (.inl htask) ?_
    cases s.cancelled with
    | true => exact .inr (.inr (.inl rfl))
    | false =>
      cases s.connectedToGateway with
      | true => exact .inr (.inl rfl)
      | false => exact .inr (.inr (.inr ⟨rfl, rfl⟩))
  | delay =>
    rw [htask] at h
    obtain rfl := Option.some.inj h
    refine .goto (.inr htask) ?_
    cases s.cancelled with
    | true => exact .inr (.inr (.inl rfl))
    | false => exact .inl rfl
  | ended =>
    rw [htask] at h
    cases h

/-- **What a step does.** -/
inductive StepCase (s : State) : Label → State → Prop where
  | task {ok : Bool} {s' : State} (htask : TaskCase s ok s') : StepCase s (.task ok) s'
  | shutdown {l : Listener} {hub : Listeners.State} (hl : l.processing s.hub = true)
      (hnone : s.disconnecting l = none) (hmoved : Moved s.hub true l hub) :
      StepCase s (.shutdown l)
        { s with hub := hub, disconnecting := Function.update s.disconnecting l (some .disconnect) }
  | disconnectedGateway {l : Listener} {pc : Listeners.CallPc} (hpc : s.disconnecting l = some pc) :
      StepCase s (.disconnectedGateway l) (s.disconnectedGateway l pc)
  | listener {l : Listener} {ok : Bool} {hub : Listeners.State} (hnone : s.disconnecting l = none)
      (hmoved : Moved s.hub ok l hub) :
      StepCase s (.listener l ok) { s with hub := hub }
  | lose {client : Nat} :
      StepCase s (.lose client)
        { s with hub := { s.hub with connected := Function.update s.hub.connected client false } }
  | keepAlive {k : Nat} {pc pc' : KeepAlivePc} (hpc : s.keepAlives[k]? = some pc)
      (hnext : s.keepAliveNext pc = some pc') :
      StepCase s (.keepAlive k) { s with keepAlives := s.keepAlives.set k pc' }
  | cancel : StepCase s .cancel { s with cancelled := true }

theorem step_case {a : Label} (h : step s a = some s') : StepCase s a s' := by
  cases a with
  | task ok => exact .task (task_case h)
  | shutdown l =>
    obtain ⟨⟨hl, hnone⟩, h⟩ := Option.ite_none_right_eq_some.mp h
    obtain ⟨hub, hs, rfl⟩ := Option.map_eq_some_iff.mp h
    exact .shutdown hl hnone (listener_moved hs)
  | disconnectedGateway l =>
    obtain ⟨pc, hpc, rfl⟩ := Option.map_eq_some_iff.mp h
    exact .disconnectedGateway hpc
  | listener l ok =>
    obtain ⟨hnone, h⟩ := Option.ite_none_right_eq_some.mp h
    obtain ⟨hub, hs, rfl⟩ := Option.map_eq_some_iff.mp h
    exact .listener hnone (listener_moved hs)
  | lose client =>
    obtain rfl := Option.some.inj h
    exact .lose
  | keepAlive k =>
    obtain ⟨pc', hbind, rfl⟩ := Option.map_eq_some_iff.mp h
    obtain ⟨pc, hpc, hnext⟩ := Option.bind_eq_some_iff.mp hbind
    exact .keepAlive hpc hnext
  | cancel =>
    obtain rfl := Option.some.inj h
    exact .cancel

theorem connectGateway_rest (s : State) (ok : Bool) (pc : Listeners.CallPc) :
    (s.connectGateway ok pc).disconnecting = s.disconnecting ∧
      (s.connectGateway ok pc).connectedToGateway = s.connectedToGateway ∧
      (s.connectGateway ok pc).keepAlives = s.keepAlives ∧
      ∀ e, e ≠ .gatewayError → (s.connectGateway ok pc).published.count e = s.published.count e := by
  rw [State.connectGateway]
  split
  · exact ⟨rfl, rfl, rfl, fun _ _ => rfl⟩
  · split
    · exact ⟨rfl, rfl, rfl, fun _ _ => rfl⟩
    · refine ⟨rfl, rfl, rfl, fun e he => ?_⟩
      have hnone : [Event.gatewayError].count e = 0 := List.count_eq_zero.mpr (by simpa using he)
      rw [List.count_append, hnone, Nat.add_zero]

theorem disconnectedGateway_throws (hoff : s.hub.isConnected = false) (l : Listener) :
    s.disconnectedGateway l .disconnect =
      { s with
        hub := { s.hub with call := none }
        disconnecting := Function.update s.disconnecting l none } := by
  have hproceed : Listeners.proceed s.hub true .disconnect = s.hub.done := by
    rw [Listeners.proceed, hoff]
    rfl
  rw [State.disconnectedGateway, State.advance, State.next, hproceed]
  rfl

theorem disconnectedGateway_finds (hon : s.hub.isConnected = true) (l : Listener) :
    s.disconnectedGateway l .disconnect =
      { s with
        hub := { s.hub.setConnected false with call := none }
        disconnecting := Function.update s.disconnecting l (some .clearUdp) } := by
  have hproceed : Listeners.proceed s.hub true .disconnect = (s.hub.setConnected false).goto .clearUdp := by
    rw [Listeners.proceed, hon]
    rfl
  rw [State.disconnectedGateway, State.advance, State.next, hproceed]
  rfl


/-! ### How far the hub got in connecting -/

/-- `ConnectGateway` has this before it, and how much of what starts the listeners is done then. -/
def progress : Listeners.CallPc → Nat
  | .setUdp => 1
  | .listenUdp => 2
  | .setTcp => 3
  | .listenTcp => 4
  | .announce => 5
  | .pause => 6
  | _ => 0

/-- It is in `ConnectGateway`. -/
def connects : Listeners.CallPc → Bool
  | .choose | .disconnect | .clearUdp | .clearTcp | .clearConnections => false
  | _ => true

/-- From `5` on both listeners are started. -/
def State.reached (s : State) : Nat :=
  match s.task with
  | .connectGateway pc => progress pc
  | .startKeepAlive => 6
  | .publish => 6
  | .test => if s.connectedToGateway then 6 else 0
  | .delay => if s.connectedToGateway then 6 else 0
  | .ended => if s.connectedToGateway then 6 else 0

/-- **What of the listeners is started** by then, and what they have done. -/
structure Started (hub : Listeners.State) (r : Nat) : Prop where
  udpThreads : hub.udpThreads.length = if 3 ≤ r then 1 else 0
  tcpThreads : hub.tcpThreads.length = if 5 ≤ r then 1 else 0
  flags : r < 5 → hub.udpListen = decide (2 ≤ r) ∧ hub.tcpListen = decide (4 ≤ r)
  endpoint : hub.internalEndpoint = true → r = 6
  received : ∀ pc ∈ hub.udpThreads, pc = .receive ∨ pc = .process → hub.internalEndpoint = true
  udpLive : hub.udpListen = true → ∀ pc ∈ hub.udpThreads, pc ≠ .ended
  tcpLive : hub.tcpListen = true → ∀ pc ∈ hub.tcpThreads, pc ≠ .ended

theorem started_start : Started Listeners.start 0 := by
  refine ⟨rfl, rfl, fun _ => ⟨rfl, rfl⟩, fun h => ?_, fun _ h => ?_, fun h => ?_, fun h => ?_⟩
  all_goals cases h

section

variable {hub : Listeners.State} {r : Nat}

theorem Started.udpThreads_eq_nil (h : Started hub r) (hr : r < 3) : hub.udpThreads = [] := by
  have hlen := h.udpThreads
  rw [if_neg (by omega)] at hlen
  exact List.length_eq_zero_iff.mp hlen

theorem Started.tcpThreads_eq_nil (h : Started hub r) (hr : r < 5) : hub.tcpThreads = [] := by
  have hlen := h.tcpThreads
  rw [if_neg (by omega)] at hlen
  exact List.length_eq_zero_iff.mp hlen

theorem Started.before (h : Started hub 0) (hr : r < 2) (client : Nat) (connected : Nat → Bool) :
    Started { hub with client := client, connected := connected, call := none } r := by
  refine ⟨?_, ?_, fun _ => ?_, fun hend => ?_, h.received, h.udpLive, h.tcpLive⟩
  · rw [h.udpThreads, if_neg (by omega), if_neg (by omega)]
  · rw [h.tcpThreads, if_neg (by omega), if_neg (by omega)]
  · obtain ⟨hudp, htcp⟩ := h.flags (by omega)
    refine ⟨hudp.trans ?_, htcp.trans ?_⟩
    · rw [decide_eq_decide]; omega
    · rw [decide_eq_decide]; omega
  · cases h.endpoint hend

theorem Started.setUdp (h : Started hub 1) : Started { hub with udpListen := true, call := none } 2 := by
  refine ⟨h.udpThreads, h.tcpThreads, fun _ => ⟨rfl, (h.flags (by omega)).2⟩, fun hend => ?_, h.received,
    fun _ pc hpc => ?_, h.tcpLive⟩
  · cases h.endpoint hend
  · rw [h.udpThreads_eq_nil (by omega)] at hpc
    cases hpc

theorem Started.listenUdp (h : Started hub 2) :
    Started { hub with udpThreads := hub.udpThreads ++ [.test], call := none } 3 := by
  have hnil := h.udpThreads_eq_nil (by omega)
  refine ⟨?_, h.tcpThreads, fun _ => h.flags (by omega), fun hend => ?_, fun pc hpc hread => ?_,
    fun _ pc hpc => ?_, h.tcpLive⟩
  · rw [hnil]; rfl
  · cases h.endpoint hend
  · rw [hnil, List.nil_append, List.mem_singleton] at hpc
    rcases hread with hread | hread
    · cases hpc.symm.trans hread
    · cases hpc.symm.trans hread
  · rw [hnil, List.nil_append, List.mem_singleton] at hpc
    rw [hpc]
    decide

theorem Started.setTcp (h : Started hub 3) : Started { hub with tcpListen := true, call := none } 4 := by
  refine ⟨h.udpThreads, h.tcpThreads, fun _ => ⟨(h.flags (by omega)).1, rfl⟩, fun hend => ?_, h.received,
    h.udpLive, fun _ pc hpc => ?_⟩
  · cases h.endpoint hend
  · rw [h.tcpThreads_eq_nil (by omega)] at hpc
    cases hpc

theorem Started.listenTcp (h : Started hub 4) :
    Started { hub with tcpThreads := hub.tcpThreads ++ [.test], call := none } 5 := by
  have hnil := h.tcpThreads_eq_nil (by omega)
  refine ⟨h.udpThreads, ?_, fun hr => absurd hr (by omega), fun hend => ?_, h.received, h.udpLive,
    fun _ pc hpc => ?_⟩
  · rw [hnil]; rfl
  · cases h.endpoint hend
  · rw [hnil, List.nil_append, List.mem_singleton] at hpc
    rw [hpc]
    decide

theorem Started.announce (h : Started hub 5) (ok : Bool) :
    Started { hub with internalEndpoint := hub.internalEndpoint || ok, call := none } 6 := by
  refine ⟨h.udpThreads, h.tcpThreads, fun hr => absurd hr (by omega), fun _ => rfl, fun pc hpc hread => ?_,
    h.udpLive, h.tcpLive⟩
  exact Bool.or_eq_true_iff.mpr (.inl (h.received pc hpc hread))

theorem Started.pause (h : Started hub 6) : Started { hub with call := none } 6 :=
  ⟨h.udpThreads, h.tcpThreads, h.flags, h.endpoint, h.received, h.udpLive, h.tcpLive⟩

variable {hub' : Listeners.State} {l : Listener} {ok : Bool}

theorem received_next {pc pc' : Listeners.UdpPc} (hnext : Listeners.udpNext hub ok pc = some pc')
    (hpc : pc = .receive ∨ pc = .process → hub.internalEndpoint = true)
    (hread : pc' = .receive ∨ pc' = .process) : hub.internalEndpoint = true := by
  cases pc with
  | test =>
    rw [← Option.some.inj hnext] at hread
    split at hread <;> simp at hread
  | endpoint =>
    by_contra hno
    rw [← Option.some.inj hnext, if_neg hno] at hread
    simp at hread
  | receive => exact hpc (.inl rfl)
  | process => exact hpc (.inr rfl)
  | ended => cases hnext

theorem udpNext_ended {pc : Listeners.UdpPc} (hnext : Listeners.udpNext hub ok pc = some .ended) :
    hub.udpListen = false := by
  cases pc with
  | test =>
    by_contra hlisten
    rw [Bool.not_eq_false] at hlisten
    rw [Listeners.udpNext, if_pos hlisten] at hnext
    cases hnext
  | endpoint =>
    rw [Listeners.udpNext] at hnext
    split at hnext <;> cases hnext
  | receive =>
    rw [Listeners.udpNext] at hnext
    split at hnext <;> cases hnext
  | process => cases hnext
  | ended => cases hnext

theorem tcpNext_ended {pc : Listeners.TcpPc} (hnext : Listeners.tcpNext hub ok pc = some .ended) :
    hub.tcpListen = false := by
  cases pc with
  | test =>
    by_contra hlisten
    rw [Bool.not_eq_false] at hlisten
    rw [Listeners.tcpNext, if_pos hlisten] at hnext
    cases hnext
  | stream =>
    rw [Listeners.tcpNext] at hnext
    split at hnext <;> cases hnext
  | receive client =>
    rw [Listeners.tcpNext] at hnext
    split at hnext
    · split at hnext <;> cases hnext
    · cases hnext
  | process => cases hnext
  | ended => cases hnext

/-- **A step of a listener** starts nothing. -/
theorem Started.listener (h : Started hub r) (hmoved : Moved hub ok l hub') : Started hub' r := by
  cases hmoved with
  | @udp t pc pc' hpc hnext =>
    refine ⟨?_, h.tcpThreads, h.flags, h.endpoint, fun x hx hread => ?_, fun hlisten x hx => ?_, h.tcpLive⟩
    · rw [List.length_set, h.udpThreads]
    · rcases List.mem_or_eq_of_mem_set hx with hx | rfl
      · exact h.received x hx hread
      · exact received_next hnext (h.received pc (List.mem_of_getElem? hpc)) hread
    · rcases List.mem_or_eq_of_mem_set hx with hx | rfl
      · exact h.udpLive hlisten x hx
      · rintro rfl
        cases hlisten.symm.trans (udpNext_ended hnext)
  | @tcp t pc pc' hpc hnext =>
    refine ⟨h.udpThreads, ?_, h.flags, h.endpoint, h.received, h.udpLive, fun hlisten x hx => ?_⟩
    · rw [List.length_set, h.tcpThreads]
    · rcases List.mem_or_eq_of_mem_set hx with hx | rfl
      · exact h.tcpLive hlisten x hx
      · rintro rfl
        cases hlisten.symm.trans (tcpNext_ended hnext)

theorem Started.processing (h : Started hub r) (hl : l.processing hub = true) : 5 ≤ r := by
  cases l with
  | udp t =>
    have hpc := of_decide_eq_true hl
    have hend := h.endpoint (h.received _ (List.mem_of_getElem? hpc) (.inr rfl))
    omega
  | tcp t =>
    have hpc := of_decide_eq_true hl
    by_contra hr
    rw [h.tcpThreads_eq_nil (by omega)] at hpc
    cases hpc

/-- It is in `DisconnectedGateway`. -/
def disconnects : Listeners.CallPc → Bool
  | .disconnect | .clearUdp | .clearTcp | .clearConnections => true
  | _ => false

theorem Started.disconnectedGateway {pc : Listeners.CallPc} (h : Started hub r) (hr : 5 ≤ r)
    (hpc : disconnects pc = true) : Started { Listeners.proceed hub true pc with call := none } r := by
  have hlate : r < 5 → ∀ p : Prop, p := fun hlt => absurd hlt (by omega)
  cases pc with
  | disconnect =>
    rw [Listeners.proceed]
    split
    · exact ⟨h.udpThreads, h.tcpThreads, h.flags, h.endpoint, h.received, h.udpLive, h.tcpLive⟩
    · exact ⟨h.udpThreads, h.tcpThreads, h.flags, h.endpoint, h.received, h.udpLive, h.tcpLive⟩
  | clearUdp =>
    refine ⟨h.udpThreads, h.tcpThreads, fun hlt => hlate hlt _, h.endpoint, h.received, fun hlisten => ?_,
      h.tcpLive⟩
    cases hlisten
  | clearTcp =>
    refine ⟨h.udpThreads, h.tcpThreads, fun hlt => hlate hlt _, h.endpoint, h.received, h.udpLive,
      fun hlisten => ?_⟩
    cases hlisten
  | clearConnections =>
    exact ⟨h.udpThreads, h.tcpThreads, h.flags, h.endpoint, h.received, h.udpLive, h.tcpLive⟩
  | _ => cases hpc

end

variable {s s' t : State} {ls : List Label}

/-- **A step of `ConnectGateway`** starts what it should. -/
theorem Started.connectGateway {pc : Listeners.CallPc} (h : Started s.hub (progress pc))
    (hc : connects pc = true) (hno : s.connectedToGateway = false) (ok : Bool) :
    Started (s.connectGateway ok pc).hub (s.connectGateway ok pc).reached := by
  obtain ⟨⟨client, connected, udpListen, tcpListen, endpoint, udpThreads, tcpThreads, call⟩, task,
    connectedToGateway, disconnecting, keepAlives, published, cancelled⟩ := s
  obtain rfl : connectedToGateway = false := hno
  cases pc with
  | choose => cases hc
  | disconnect => cases hc
  | clearUdp => cases hc
  | clearTcp => cases hc
  | clearConnections => cases hc
  | adapter =>
    cases ok with
    | false => exact h.before (r := 0) (by omega) _ _
    | true => exact h.before (r := 0) (by omega) _ _
  | newClient => exact h.before (r := 0) (by omega) _ _
  | connect =>
    cases ok with
    | false => exact h.before (r := 0) (by omega) _ _
    | true => exact h.before (r := 1) (by omega) _ _
  | setUdp => exact h.setUdp
  | listenUdp =>
    obtain rfl : udpListen = true := (h.flags (by decide)).1
    exact h.listenUdp
  | setTcp => exact h.setTcp
  | listenTcp =>
    obtain rfl : tcpListen = true := (h.flags (by decide)).2
    exact h.listenTcp
  | announce => exact h.announce ok
  | pause => exact h.pause

/-! ### The two flags -/

/-- No `DisconnectedGateway` found the hub connected. -/
def Asked (s : State) : Prop := ∀ l pc, s.disconnecting l = some pc → pc = .disconnect

/-- **How far it is with a shutdown**: from the first `DisconnectedGateway` that finds the hub connected
on it stays disconnected, and there is no other such call. -/
inductive Phase (s : State) : Prop where
  | opening (hr : s.reached < 5) (hnone : ∀ l, s.disconnecting l = none)
      (hpub : s.published.count .gatewayShutdown = 0)
  | opened (hr : 5 ≤ s.reached) (hasked : Asked s) (hpub : s.published.count .gatewayShutdown = 0)
      (hudp : s.hub.udpListen = true) (htcp : s.hub.tcpListen = true)
  | closing (l : Listener) (pc : Listeners.CallPc) (hr : 5 ≤ s.reached) (hl : s.disconnecting l = some pc)
      (hpc : pc = .clearUdp ∨ pc = .clearTcp ∨ pc = .clearConnections)
      (hothers : ∀ l' pc', l' ≠ l → s.disconnecting l' = some pc' → pc' = .disconnect)
      (hpub : s.published.count .gatewayShutdown = 0) (hoff : s.hub.isConnected = false)
      (hudp : s.hub.udpListen = decide (pc = .clearUdp))
      (htcp : s.hub.tcpListen = decide (pc = .clearUdp ∨ pc = .clearTcp))
  | closed (hr : 5 ≤ s.reached) (hasked : Asked s) (hpub : s.published.count .gatewayShutdown = 1)
      (hoff : s.hub.isConnected = false) (hudp : s.hub.udpListen = false) (htcp : s.hub.tcpListen = false)

/-- **The invariant.** -/
structure Inv (s : State) : Prop where
  calls : ∀ pc, s.task = .connectGateway pc → connects pc = true ∧ s.connectedToGateway = false
  starts : s.task = .startKeepAlive ∨ s.task = .publish → s.connectedToGateway = false
  started : Started s.hub s.reached
  keepAlives : s.keepAlives.length = if s.task = .publish ∨ s.connectedToGateway = true then 1 else 0
  published : s.published.count .gatewayConnected = if s.connectedToGateway then 1 else 0
  phase : Phase s

/-- What a step leaves alone that neither connects nor disconnects. -/
structure Same (s s' : State) : Prop where
  reached : s'.reached < 5 ↔ s.reached < 5
  disconnecting : s'.disconnecting = s.disconnecting
  published : s'.published.count .gatewayShutdown = s.published.count .gatewayShutdown
  udpListen : s'.hub.udpListen = s.hub.udpListen
  tcpListen : s'.hub.tcpListen = s.hub.tcpListen
  off : s.hub.isConnected = false → s'.hub.isConnected = false

theorem Phase.same (h : Phase s) (hs : Same s s') : Phase s' := by
  obtain ⟨hreached, hdisc, hpubs, hudps, htcps, hoffs⟩ := hs
  have hlate : 5 ≤ s.reached → 5 ≤ s'.reached := fun hr => by omega
  have hasks : Asked s → Asked s' := by
    intro hasked l pc hl
    rw [hdisc] at hl
    exact hasked l pc hl
  cases h with
  | opening hr hnone hpub =>
    exact .opening (hreached.mpr hr) (fun l => by rw [hdisc]; exact hnone l) (hpubs.trans hpub)
  | opened hr hasked hpub hudp htcp =>
    exact .opened (hlate hr) (hasks hasked) (hpubs.trans hpub) (hudps.trans hudp)
      (htcps.trans htcp)
  | closing l pc hr hl hpc hothers hpub hoff hudp htcp =>
    exact .closing l pc (hlate hr) (by rw [hdisc]; exact hl) hpc
      (fun l' pc' hne h' => hothers l' pc' hne (by rw [← hdisc]; exact h')) (hpubs.trans hpub)
      (hoffs hoff) (hudps.trans hudp) (htcps.trans htcp)
  | closed hr hasked hpub hoff hudp htcp =>
    exact .closed (hlate hr) (hasks hasked) (hpubs.trans hpub) (hoffs hoff)
      (hudps.trans hudp) (htcps.trans htcp)

/-! ### One step -/

theorem connects_next {hub : Listeners.State} {ok : Bool} {pc pc' : Listeners.CallPc}
    (hpc : connects pc = true) (h : (Listeners.proceed hub ok pc).call = some pc') : connects pc' = true := by
  cases pc with
  | choose => cases hpc
  | disconnect => cases hpc
  | clearUdp => cases hpc
  | clearTcp => cases hpc
  | clearConnections => cases hpc
  | pause => cases h
  | adapter | connect =>
    cases ok with
    | false => cases h
    | true => cases h; rfl
  | listenUdp | listenTcp =>
    simp only [Listeners.proceed] at h
    split at h
    · cases h; rfl
    · cases h; rfl
  | _ => cases h; rfl

theorem connectGateway_task {pc : Listeners.CallPc} (hpc : connects pc = true) (s : State) (ok : Bool) :
    (∀ pc', (s.connectGateway ok pc).task = .connectGateway pc' → connects pc' = true) ∧
      (s.connectGateway ok pc).task ≠ .publish := by
  rw [State.connectGateway]
  split
  · next pc'' hnext =>
    refine ⟨fun pc' h => ?_, fun h => ?_⟩
    · cases h
      exact connects_next hpc hnext
    · cases h
  · split
    · refine ⟨fun pc' h => ?_, fun h => ?_⟩
      · cases h
      · cases h
    · refine ⟨fun pc' h => ?_, fun h => ?_⟩
      · cases h
      · cases h

theorem reached_connectGateway {pc : Listeners.CallPc} (htask : s.task = .connectGateway pc) :
    s.reached = progress pc := by
  rw [State.reached, htask]

theorem connectGateway_late {pc : Listeners.CallPc} (htask : s.task = .connectGateway pc)
    (hpc : 5 ≤ progress pc) (ok : Bool) : Same s (s.connectGateway ok pc) := by
  have hreached : (6 : Nat) < 5 ↔ s.reached < 5 := by
    rw [reached_connectGateway htask]
    omega
  cases pc with
  | announce => exact ⟨hreached, rfl, rfl, rfl, rfl, id⟩
  | pause => exact ⟨hreached, rfl, rfl, rfl, rfl, id⟩
  | _ => exact absurd hpc (by decide)

theorem connectGateway_opened {pc : Listeners.CallPc} (h : Started s.hub (progress pc))
    (hc : connects pc = true) (hno : s.connectedToGateway = false) (hpc : progress pc < 5) (ok : Bool)
    (hr : 5 ≤ (s.connectGateway ok pc).reached) :
    (s.connectGateway ok pc).hub.udpListen = true ∧ (s.connectGateway ok pc).hub.tcpListen = true := by
  have hflags := h.flags hpc
  obtain ⟨⟨client, connected, udpListen, tcpListen, endpoint, udpThreads, tcpThreads, call⟩, task,
    connectedToGateway, disconnecting, keepAlives, published, cancelled⟩ := s
  obtain ⟨rfl, rfl⟩ := hflags
  obtain rfl : connectedToGateway = false := hno
  cases pc with
  | listenTcp => exact ⟨rfl, rfl⟩
  | announce => exact absurd hpc (by decide)
  | pause => exact absurd hpc (by decide)
  | adapter =>
    cases ok with
    | false => exact absurd (show 5 ≤ 0 from hr) (by decide)
    | true => exact absurd (show 5 ≤ 0 from hr) (by decide)
  | newClient => exact absurd (show 5 ≤ 0 from hr) (by decide)
  | connect =>
    cases ok with
    | false => exact absurd (show 5 ≤ 0 from hr) (by decide)
    | true => exact absurd (show 5 ≤ 1 from hr) (by decide)
  | setUdp => exact absurd (show 5 ≤ 2 from hr) (by decide)
  | listenUdp => exact absurd (show 5 ≤ 3 from hr) (by decide)
  | setTcp => exact absurd (show 5 ≤ 4 from hr) (by decide)
  | _ => cases hc

theorem Inv.connectGateway (hi : Inv s) {pc : Listeners.CallPc} (htask : s.task = .connectGateway pc)
    (ok : Bool) : Inv (s.connectGateway ok pc) := by
  obtain ⟨hc, hno⟩ := hi.calls pc htask
  have hreached := reached_connectGateway htask
  have hstarted : Started s.hub (progress pc) := by
    rw [← hreached]
    exact hi.started
  obtain ⟨hdisc, hconn, hkeep, hpub⟩ := connectGateway_rest s ok pc
  obtain ⟨hcalls, hpublish⟩ := connectGateway_task hc s ok
  have hkeeps := hi.keepAlives
  have hpubs := hi.published
  refine ⟨fun pc' h => ⟨hcalls pc' h, hconn.trans hno⟩, fun _ => hconn.trans hno,
    hstarted.connectGateway hc hno ok, ?_, ?_, ?_⟩
  · rw [hkeep, hkeeps, hconn, hno, htask]
    simp [hpublish]
  · rw [hpub _ (by decide), hpubs, hconn]
  by_cases hlate : 5 ≤ progress pc
  · exact hi.phase.same (connectGateway_late htask hlate ok)
  cases hi.phase with
  | opening hr hnone hzero =>
    have hnone' : ∀ l, (s.connectGateway ok pc).disconnecting l = none := fun l => by rw [hdisc, hnone]
    have hzero' := (hpub .gatewayShutdown (by decide)).trans hzero
    by_cases hr' : (s.connectGateway ok pc).reached < 5
    · exact .opening hr' hnone' hzero'
    · obtain ⟨hudp, htcp⟩ := connectGateway_opened hstarted hc hno (by omega) ok (by omega)
      refine .opened (by omega) (fun l pc' hl => ?_) hzero' hudp htcp
      rw [hnone' l] at hl
      cases hl
  | opened hr => omega
  | closing l pc' hr => omega
  | closed hr => omega

theorem Inv.task (hi : Inv s) {ok : Bool} (h : TaskCase s ok s') : Inv s' := by
  obtain ⟨hcalls, hstarts, hstarted, hkeeps, hpubs, hphase⟩ := hi
  cases h with
  | connectGateway htask =>
    exact Inv.connectGateway ⟨hcalls, hstarts, hstarted, hkeeps, hpubs, hphase⟩ htask ok
  | startKeepAlive htask =>
    have hreached : s.reached = 6 := by rw [State.reached, htask]
    have hno := hstarts (.inl htask)
    rw [hreached] at hstarted
    simp only [htask, hno, reduceCtorEq, Bool.false_eq_true, or_self, if_false] at hkeeps
    refine ⟨fun pc h => ?_, fun _ => hno, hstarted, ?_, hpubs, ?_⟩
    · cases h
    · simp only [List.length_append, hkeeps, List.length_singleton, true_or, if_true]
    · exact hphase.same ⟨by rw [hreached]; exact Iff.rfl, rfl, rfl, rfl, rfl, id⟩
  | publish htask =>
    have hreached : s.reached = 6 := by rw [State.reached, htask]
    rw [hreached] at hstarted
    rw [hstarts (.inr htask)] at hpubs
    refine ⟨fun pc h => ?_, fun h => ?_, hstarted, ?_, ?_, ?_⟩
    · cases h
    · rcases h with h | h
      · cases h
      · cases h
    · simpa [htask] using hkeeps
    · rw [List.count_append, hpubs]
      rfl
    · refine hphase.same ⟨by rw [hreached]; exact Iff.rfl, rfl, ?_, rfl, rfl, id⟩
      rw [List.count_append]
      rfl
  | @goto task hwas hto =>
    have hreached : s.reached = if s.connectedToGateway then 6 else 0 := by
      rcases hwas with hwas | hwas
      · rw [State.reached, hwas]
      · rw [State.reached, hwas]
    have hsame : { s with task := task }.reached = s.reached := by
      rw [hreached]
      rcases hto with rfl | rfl | rfl | ⟨rfl, hno⟩
      · rfl
      · rfl
      · rfl
      · rw [hno]
        rfl
    have hnot : task ≠ .startKeepAlive ∧ task ≠ .publish := by
      rcases hto with rfl | rfl | rfl | ⟨rfl, _⟩ <;> exact ⟨by decide, by decide⟩
    have hwas' : s.task ≠ .publish := by
      rcases hwas with hwas | hwas
      · simp [hwas]
      · simp [hwas]
    refine ⟨fun pc h => ?_, fun h => ?_, ?_, ?_, hpubs, ?_⟩
    · rcases hto with rfl | rfl | rfl | ⟨rfl, hno⟩
      · cases h
      · cases h
      · cases h
      · cases h
        exact ⟨rfl, hno⟩
    · rcases h with h | h
      · exact absurd h hnot.1
      · exact absurd h hnot.2
    · rw [hsame]
      exact hstarted
    · simp only [hwas', false_or] at hkeeps
      simp only [hnot.2, false_or]
      exact hkeeps
    · exact hphase.same ⟨by rw [hsame], rfl, rfl, rfl, rfl, id⟩

theorem Inv.of_hub (hi : Inv s) {hub : Listeners.State} {disconnecting : Listener → Option Listeners.CallPc}
    (hstarted : Started hub s.reached) (hphase : Phase { s with hub := hub, disconnecting := disconnecting }) :
    Inv { s with hub := hub, disconnecting := disconnecting } :=
  ⟨hi.calls, hi.starts, hstarted, hi.keepAlives, hi.published, hphase⟩

theorem Phase.moved (h : Phase s) {l : Listener} {ok : Bool} {hub : Listeners.State}
    (hmoved : Moved s.hub ok l hub) : Phase { s with hub := hub } := by
  cases hmoved with
  | udp => exact h.same ⟨Iff.rfl, rfl, rfl, rfl, rfl, id⟩
  | tcp => exact h.same ⟨Iff.rfl, rfl, rfl, rfl, rfl, id⟩

theorem disconnecting_update {l l' : Listener} {now : Option Listeners.CallPc} {pc : Listeners.CallPc}
    (h : Function.update s.disconnecting l now l' = some pc) :
    l' = l ∧ now = some pc ∨ l' ≠ l ∧ s.disconnecting l' = some pc := by
  by_cases heq : l' = l
  · rw [heq, Function.update_self] at h
    exact .inl ⟨heq, h⟩
  · rw [Function.update_of_ne heq] at h
    exact .inr ⟨heq, h⟩

theorem Phase.shutdown (h : Phase s) (hr : 5 ≤ s.reached) {l : Listener} (hl : s.disconnecting l = none) :
    Phase { s with disconnecting := Function.update s.disconnecting l (some .disconnect) } := by
  cases h with
  | opening hlt => omega
  | opened _ hasked hpub hudp htcp =>
    refine .opened hr (fun l' pc h' => ?_) hpub hudp htcp
    rcases disconnecting_update h' with ⟨_, hnow⟩ | ⟨_, h'⟩
    · exact (Option.some.inj hnow).symm
    · exact hasked l' pc h'
  | closing l₀ pc₀ _ hl₀ hpc₀ hothers hpub hoff hudp htcp =>
    have hne : l₀ ≠ l := by
      rintro rfl
      rw [hl] at hl₀
      cases hl₀
    refine .closing l₀ pc₀ hr ((Function.update_of_ne hne ..).trans hl₀) hpc₀ (fun l' pc hne' h' => ?_)
      hpub hoff hudp htcp
    rcases disconnecting_update h' with ⟨_, hnow⟩ | ⟨_, h'⟩
    · exact (Option.some.inj hnow).symm
    · exact hothers l' pc hne' h'
  | closed _ hasked hpub hoff hudp htcp =>
    refine .closed hr (fun l' pc h' => ?_) hpub hoff hudp htcp
    rcases disconnecting_update h' with ⟨_, hnow⟩ | ⟨_, h'⟩
    · exact (Option.some.inj hnow).symm
    · exact hasked l' pc h'

theorem Phase.disconnectedGateway (h : Phase s) {l : Listener} {pc : Listeners.CallPc}
    (hl : s.disconnecting l = some pc) :
    5 ≤ s.reached ∧ disconnects pc = true ∧ Phase (s.disconnectedGateway l pc) := by
  cases h with
  | opening _ hnone =>
    rw [hnone l] at hl
    cases hl
  | opened hr hasked hpub hudp htcp =>
    obtain rfl := hasked l pc hl
    refine ⟨hr, rfl, ?_⟩
    cases hon : s.hub.isConnected with
    | true =>
      rw [disconnectedGateway_finds hon]
      refine .closing l .clearUdp hr (Function.update_self ..) (.inl rfl) (fun l' pc hne h' => ?_) hpub
        (Function.update_self ..) hudp htcp
      rcases disconnecting_update h' with ⟨heq, _⟩ | ⟨_, h'⟩
      · exact absurd heq hne
      · exact hasked l' pc h'
    | false =>
      rw [disconnectedGateway_throws hon]
      refine .opened hr (fun l' pc h' => ?_) hpub hudp htcp
      rcases disconnecting_update h' with ⟨_, hnow⟩ | ⟨_, h'⟩
      · cases hnow
      · exact hasked l' pc h'
  | closing l₀ pc₀ hr hl₀ hpc₀ hothers hpub hoff hudp htcp =>
    refine ⟨hr, ?_⟩
    by_cases heq : l = l₀
    · subst heq
      obtain rfl := Option.some.inj (hl.symm.trans hl₀)
      have hrest : ∀ {now : Option Listeners.CallPc} (l' : Listener) (pc : Listeners.CallPc), l' ≠ l →
          Function.update s.disconnecting l now l' = some pc → pc = .disconnect := by
        intro now l' pc hne h'
        rw [Function.update_of_ne hne] at h'
        exact hothers l' pc hne h'
      rcases hpc₀ with rfl | rfl | rfl
      · exact ⟨rfl, .closing l .clearTcp hr (Function.update_self ..) (.inr (.inl rfl)) hrest hpub hoff rfl
          htcp⟩
      · exact ⟨rfl, .closing l .clearConnections hr (Function.update_self ..) (.inr (.inr rfl)) hrest hpub
          hoff hudp rfl⟩
      · refine ⟨rfl, .closed hr (fun l' pc h' => ?_) ?_ hoff hudp htcp⟩
        · rcases disconnecting_update h' with ⟨_, hnow⟩ | ⟨hne, h'⟩
          · cases hnow
          · exact hothers l' pc hne h'
        · refine (List.count_append ..).trans ?_
          rw [hpub]
          rfl
    · obtain rfl := hothers l pc heq hl
      rw [disconnectedGateway_throws hoff]
      have hne : l₀ ≠ l := fun h => heq h.symm
      refine ⟨rfl, .closing l₀ pc₀ hr ((Function.update_of_ne hne ..).trans hl₀) hpc₀
        (fun l' pc hne' h' => ?_) hpub hoff hudp htcp⟩
      rcases disconnecting_update h' with ⟨_, hnow⟩ | ⟨_, h'⟩
      · cases hnow
      · exact hothers l' pc hne' h'
  | closed hr hasked hpub hoff hudp htcp =>
    obtain rfl := hasked l pc hl
    refine ⟨hr, rfl, ?_⟩
    rw [disconnectedGateway_throws hoff]
    refine .closed hr (fun l' pc h' => ?_) hpub hoff hudp htcp
    rcases disconnecting_update h' with ⟨_, hnow⟩ | ⟨_, h'⟩
    · cases hnow
    · exact hasked l' pc h'

theorem lose_off {hub : Listeners.State} (hoff : hub.isConnected = false) (client : Nat) :
    Function.update hub.connected client false hub.client = false := by
  by_cases heq : hub.client = client
  · rw [heq, Function.update_self]
  · rw [Function.update_of_ne heq]
    exact hoff

theorem Inv.step {a : Label} (hi : Inv s) (h : step s a = some s') : Inv s' := by
  cases step_case h with
  | task htask => exact hi.task htask
  | shutdown hl hnone hmoved =>
    exact hi.of_hub (hi.started.listener hmoved)
      ((hi.phase.moved hmoved).shutdown (hi.started.processing hl) hnone)
  | disconnectedGateway hpc =>
    obtain ⟨hr, hdisc, hphase⟩ := hi.phase.disconnectedGateway hpc
    refine ⟨hi.calls, hi.starts, hi.started.disconnectedGateway hr hdisc, hi.keepAlives, ?_, hphase⟩
    refine Eq.trans ?_ hi.published
    simp only [State.disconnectedGateway]
    split
    · rw [List.count_append]
      rfl
    · rfl
  | listener _ hmoved => exact hi.of_hub (hi.started.listener hmoved) (hi.phase.moved hmoved)
  | @lose client =>
    obtain ⟨hudp, htcp, hflags, hend, hrec, hudpLive, htcpLive⟩ := hi.started
    exact hi.of_hub ⟨hudp, htcp, hflags, hend, hrec, hudpLive, htcpLive⟩
      (hi.phase.same ⟨Iff.rfl, rfl, rfl, rfl, rfl, fun hoff => lose_off hoff client⟩)
  | keepAlive =>
    refine ⟨hi.calls, hi.starts, hi.started, ?_, hi.published, hi.phase.same ⟨Iff.rfl, rfl, rfl, rfl, rfl, id⟩⟩
    rw [List.length_set]
    exact hi.keepAlives
  | cancel =>
    exact ⟨hi.calls, hi.starts, hi.started, hi.keepAlives, hi.published,
      hi.phase.same ⟨Iff.rfl, rfl, rfl, rfl, rfl, id⟩⟩

theorem inv_start : Inv start := by
  refine ⟨fun pc h => ?_, fun _ => rfl, started_start, rfl, rfl, .opening (by decide) (fun _ => rfl) rfl⟩
  cases h

theorem inv_run (h : Run step start ls s) : Inv s := by
  exact Reaches.inv (P := fun _ s => Inv s) inv_start (fun _ _ _ _ hi _ hs => hi.step hs) h

theorem Inv.tcpThreads_ne_nil (hi : Inv s) : s.hub.tcpThreads ≠ [] ↔ 5 ≤ s.reached := by
  rw [Ne, ← List.length_eq_zero_iff, hi.started.tcpThreads]
  split
  · exact iff_of_true (by decide) ‹_›
  · exact iff_of_false (by decide) ‹_›

theorem Phase.shutdowns (h : Phase s) : s.published.count .gatewayShutdown ≤ 1 := by
  cases h with
  | opening _ _ hpub => omega
  | opened _ _ hpub => omega
  | closing _ _ _ _ _ _ hpub => omega
  | closed _ _ hpub => omega

/-- **Every thread is started once at most**, however often the task calls `ConnectGateway` and the
hub is told of a shutdown, so no socket has two readers. -/
theorem one_of_each (h : Run step start ls s) :
    s.hub.udpThreads.length ≤ 1 ∧ s.hub.tcpThreads.length ≤ 1 ∧ s.keepAlives.length ≤ 1 ∧
      s.published.count .gatewayConnected ≤ 1 ∧ s.published.count .gatewayShutdown ≤ 1 := by
  have hi := inv_run h
  refine ⟨?_, ?_, ?_, ?_, hi.phase.shutdowns⟩
  · rw [hi.started.udpThreads]; split <;> omega
  · rw [hi.started.tcpThreads]; split <;> omega
  · rw [hi.keepAlives]; split <;> omega
  · rw [hi.published]; split <;> omega

/-- The hub is told of a shutdown while it connects. -/
def shutdownEarly : List Label :=
  List.replicate 9 (.task true) ++ .listener (.udp 0) true :: List.replicate 3 (.listener (.tcp 0) true) ++
    [.task true, .shutdown (.tcp 0)] ++ List.replicate 4 (.disconnectedGateway (.tcp 0))

/-- All calls are over, and both events published: the shutdown first. -/
theorem one_of_each_shutdownEarly : ∃ s, Run step start (shutdownEarly ++ List.replicate 3 (.task true)) s ∧
    s.published = [.gatewayShutdown, .gatewayConnected] ∧ s.hub.udpThreads.length ≤ 1 := by
  have hexec : (exec step start (shutdownEarly ++ List.replicate 3 (.task true))).any
      (fun s => decide (s.published = [.gatewayShutdown, .gatewayConnected])) = true := by
    decide
  obtain ⟨s, hs, hpub⟩ := (Option.any_eq_true _ _).mp hexec
  have hrun := run_of_exec hs
  exact ⟨s, hrun, of_decide_eq_true hpub, (one_of_each hrun).1⟩

end Blockcore.Hub.Service
