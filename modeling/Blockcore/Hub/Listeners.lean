import Blockcore.Lib.Runs
import Blockcore.Hub.Manager

/-!
# The threads of the listeners

Setting `TCPListen` or `UDPListen` starts a thread, which reads until it finds the flag
cleared.  It looks between two reads only, and who connects again sets the same flag and
starts another thread.

`readers_iff` says when no socket ever has two readers: as long as `ConnectGateway` gets
to start a listener only when those before it have ended.  One that waits for a datagram
meanwhile has not (`blocked_reconnect`).

The calls come one after another, also those a listener makes while it handles a message;
the steps of the listeners come between theirs in any order.  What is written over the
sockets is left out.  A call that nothing comes between does what `HubManager` has it do
(`connectGateway_agrees`, `disconnectedGateway_agrees`).
-/

namespace Blockcore.Hub.Listeners

open Lib Networking

/-- Where a thread of `ListenUDP` is. -/
inductive UdpPc where
  /-- Before the test of `UDPListen`. -/
  | test
  /-- Before the test of `LocalHubInfo.InternalEndpoint`. -/
  | endpoint
  /-- In `Receive`. -/
  | receive
  /-- With a datagram in hand. -/
  | process
  | ended
  deriving DecidableEq

/-- Where a thread of `ListenTCP` is. -/
inductive TcpPc where
  /-- Before the test of `TCPListen`. -/
  | test
  /-- Before `TCPClientGateway.GetStream()`. -/
  | stream
  /-- In a read of the client's stream. -/
  | receive (client : Nat)
  /-- With a message in hand. -/
  | process
  | ended
  deriving DecidableEq

inductive CallPc where
  /-- In `ConnectOrDisconnect`, before the test of `Connected`. -/
  | choose
  /-- In `ConnectGateway`, before `GetAdapterWithInternetAccess`. -/
  | adapter
  /-- Before `TCPClientGateway = new TcpClient()`. -/
  | newClient
  /-- Before `Connect`. -/
  | connect
  /-- In `UDPListen = true`, before the flag is set. -/
  | setUdp
  /-- In `ListenUDP`. -/
  | listenUdp
  /-- In `TCPListen = true`, before the flag is set. -/
  | setTcp
  /-- In `ListenTCP`. -/
  | listenTcp
  /-- Before the hub's `HubInfo` is sent, and `InternalEndpoint` set. -/
  | announce
  /-- Before the rest. -/
  | pause
  /-- In `DisconnectedGateway`, before `Disconnect`. -/
  | disconnect
  /-- Before `UDPListen = false`. -/
  | clearUdp
  /-- Before `TCPListen = false`. -/
  | clearTcp
  /-- Before `ClearConnections`. -/
  | clearConnections
  deriving DecidableEq

/-- The clients are numbered as they are made; `client` is `TCPClientGateway`. -/
structure State where
  client : Nat
  connected : Nat → Bool
  udpListen : Bool
  tcpListen : Bool
  /-- `LocalHubInfo.InternalEndpoint` is known; once bound, the socket stays so. -/
  internalEndpoint : Bool
  udpThreads : List UdpPc
  tcpThreads : List TcpPc
  call : Option CallPc

/-- What happens: a call is made, or goes on; a listener goes on; a connection is lost.
Where something can fail, `ok` says that it does not: the search for the adapter, the
connection, the binding of the socket; that there is a datagram or a message. -/
inductive Label where
  | connectGateway
  | disconnectedGateway
  | connectOrDisconnect
  | proceed (ok : Bool)
  | udp (t : Nat) (ok : Bool)
  | tcp (t : Nat) (ok : Bool)
  | lose (client : Nat)
  deriving DecidableEq

namespace State

/-- `TCPClientGateway.Connected`. -/
def isConnected (s : State) : Bool := s.connected s.client

def setConnected (s : State) (b : Bool) : State :=
  { s with connected := Function.update s.connected s.client b }

def goto (s : State) (pc : CallPc) : State := { s with call := some pc }

def done (s : State) : State := { s with call := none }

end State

/-- The next step of a call. What is thrown in `ConnectGateway` is caught, and ends it. -/
def proceed (s : State) (ok : Bool) : CallPc → State
  | .choose => if s.isConnected then s.goto .disconnect else s.goto .adapter
  | .adapter => if ok then s.goto .newClient else s.done
  | .newClient => ({ s with client := s.client + 1 }.setConnected false).goto .connect
  | .connect => if ok then (s.setConnected true).goto .setUdp else s.done
  | .setUdp => { s with udpListen := true }.goto .listenUdp
  | .listenUdp =>
    if s.udpListen then { s with udpThreads := s.udpThreads ++ [UdpPc.test] }.goto .setTcp
    else s.goto .setTcp
  | .setTcp => { s with tcpListen := true }.goto .listenTcp
  | .listenTcp =>
    if s.tcpListen then { s with tcpThreads := s.tcpThreads ++ [TcpPc.test] }.goto .announce
    else s.goto .announce
  | .announce => { s with internalEndpoint := s.internalEndpoint || ok }.goto .pause
  | .pause => s.done
  | .disconnect => if s.isConnected then (s.setConnected false).goto .clearUdp else s.done
  | .clearUdp => { s with udpListen := false }.goto .clearTcp
  | .clearTcp => { s with tcpListen := false }.goto .clearConnections
  | .clearConnections => s.done

/-- The next step of a thread of `ListenUDP`. -/
def udpNext (s : State) (ok : Bool) : UdpPc → Option UdpPc
  | .test => some (if s.udpListen then .endpoint else .ended)
  | .endpoint => some (if s.internalEndpoint then .receive else .test)
  | .receive => some (if ok then .process else .test)
  | .process => some .test
  | .ended => none

/-- The next step of a thread of `ListenTCP`. There is no message on the stream of a
client that is not connected. -/
def tcpNext (s : State) (ok : Bool) : TcpPc → Option TcpPc
  | .test => some (if s.tcpListen then .stream else .ended)
  | .stream => some (if s.isConnected then .receive s.client else .test)
  | .receive client => if ok then if s.connected client then some .process else none else some .test
  | .process => some .test
  | .ended => none

def step (s : State) : Label → Option State
  | .connectGateway => if s.call = none then some (s.goto .adapter) else none
  | .disconnectedGateway => if s.call = none then some (s.goto .disconnect) else none
  | .connectOrDisconnect => if s.call = none then some (s.goto .choose) else none
  | .proceed ok => s.call.map (proceed s ok)
  | .udp t ok =>
    (s.udpThreads[t]?.bind (udpNext s ok)).map fun pc =>
      { s with udpThreads := s.udpThreads.set t pc }
  | .tcp t ok =>
    (s.tcpThreads[t]?.bind (tcpNext s ok)).map fun pc =>
      { s with tcpThreads := s.tcpThreads.set t pc }
  | .lose client => some { s with connected := Function.update s.connected client false }

def start : State where
  client := 0
  connected _ := false
  udpListen := false
  tcpListen := false
  internalEndpoint := false
  udpThreads := []
  tcpThreads := []
  call := none

/-! ### Live threads -/

def live {pc : Type} [DecidableEq pc] (ended : pc) (threads : List pc) : Nat :=
  threads.countP (· ≠ ended)

section

variable {pc : Type} [DecidableEq pc] {ended : pc} {threads : List pc}

theorem live_eq_zero : live ended threads = 0 ↔ ∀ x ∈ threads, x = ended := by
  simp [live]

theorem live_concat {x : pc} (hx : x ≠ ended) : live ended (threads ++ [x]) = live ended threads + 1 := by
  simp [live, hx]

theorem live_set {t : Nat} {x : pc} (ht : threads[t]? = some x) (hx : x ≠ ended) (y : pc) :
    live ended (threads.set t y) ≤ live ended threads := by
  obtain ⟨hlt, hget⟩ := List.getElem?_eq_some_iff.mp ht
  have hpos : 0 < threads.countP (· ≠ ended) := by
    refine List.countP_pos_iff.mpr ⟨x, ?_, by simpa using hx⟩
    rw [← hget]
    exact List.getElem_mem hlt
  rw [live, live, List.countP_set hlt, hget]
  rw [if_pos (by simpa using hx)]
  split <;> omega

theorem live_pos {t : Nat} {x : pc} (ht : threads[t]? = some x) (hx : x ≠ ended) :
    0 < live ended threads := by
  rw [Nat.pos_iff_ne_zero, Ne, live_eq_zero]
  exact fun hall => hx (hall x (List.mem_of_getElem? ht))

end

/-- **No socket has two readers.** -/
def OneReader (s : State) : Prop :=
  live UdpPc.ended s.udpThreads ≤ 1 ∧ live TcpPc.ended s.tcpThreads ≤ 1

/-- A listener is started only when those before it have ended. -/
def Meets (s : State) : Label → Prop
  | .proceed _ =>
    (s.call = some .listenUdp → s.udpListen = true → ∀ pc ∈ s.udpThreads, pc = .ended) ∧
      (s.call = some .listenTcp → s.tcpListen = true → ∀ pc ∈ s.tcpThreads, pc = .ended)
  | _ => True

/-! ### What a step does to the threads -/

theorem proceed_udpThreads (s : State) (ok : Bool) (pc : CallPc) : (proceed s ok pc).udpThreads =
    if pc = .listenUdp ∧ s.udpListen = true then s.udpThreads ++ [UdpPc.test] else s.udpThreads := by
  cases pc with
  | listenUdp =>
    simp only [proceed, true_and]
    split <;> rfl
  | _ =>
    simp only [proceed]
    first | rfl | (split <;> rfl)

theorem proceed_tcpThreads (s : State) (ok : Bool) (pc : CallPc) : (proceed s ok pc).tcpThreads =
    if pc = .listenTcp ∧ s.tcpListen = true then s.tcpThreads ++ [TcpPc.test] else s.tcpThreads := by
  cases pc with
  | listenTcp =>
    simp only [proceed, true_and]
    split <;> rfl
  | _ =>
    simp only [proceed]
    first | rfl | (split <;> rfl)

theorem udpNext_live {s : State} {ok : Bool} {pc pc' : UdpPc} (h : udpNext s ok pc = some pc') :
    pc ≠ .ended := by
  rintro rfl
  cases h

theorem tcpNext_live {s : State} {ok : Bool} {pc pc' : TcpPc} (h : tcpNext s ok pc = some pc') :
    pc ≠ .ended := by
  rintro rfl
  cases h

theorem live_started {pc : Type} [DecidableEq pc] {ended x : pc} {threads : List pc}
    {p : Prop} [Decidable p] (hx : x ≠ ended) (hone : live ended threads ≤ 1) :
    live ended (if p then threads ++ [x] else threads) ≤ 1 ↔ (p → ∀ y ∈ threads, y = ended) := by
  by_cases hp : p
  · rw [if_pos hp, live_concat hx, ← live_eq_zero, forall_prop_of_true hp]
    omega
  · rw [if_neg hp]
    exact iff_of_true hone fun h => absurd h hp

theorem oneReader_step {s s' : State} {l : Label} (hone : OneReader s) (hs : step s l = some s') :
    OneReader s' ↔ Meets s l := by
  cases l with
  | connectGateway =>
    obtain ⟨_, hs⟩ := Option.ite_none_right_eq_some.mp hs
    obtain rfl := Option.some.inj hs
    exact iff_of_true hone trivial
  | disconnectedGateway =>
    obtain ⟨_, hs⟩ := Option.ite_none_right_eq_some.mp hs
    obtain rfl := Option.some.inj hs
    exact iff_of_true hone trivial
  | connectOrDisconnect =>
    obtain ⟨_, hs⟩ := Option.ite_none_right_eq_some.mp hs
    obtain rfl := Option.some.inj hs
    exact iff_of_true hone trivial
  | proceed ok =>
    obtain ⟨pc, hpc, rfl⟩ := Option.map_eq_some_iff.mp hs
    rw [OneReader, proceed_udpThreads, proceed_tcpThreads, live_started (by decide) hone.1,
      live_started (by decide) hone.2, Meets, hpc]
    simp only [Option.some.injEq, and_imp]
  | udp t ok =>
    obtain ⟨pc', hpc', rfl⟩ := Option.map_eq_some_iff.mp hs
    obtain ⟨pc, hpc, hnext⟩ := Option.bind_eq_some_iff.mp hpc'
    exact iff_of_true ⟨(live_set hpc (udpNext_live hnext) pc').trans hone.1, hone.2⟩ trivial
  | tcp t ok =>
    obtain ⟨pc', hpc', rfl⟩ := Option.map_eq_some_iff.mp hs
    obtain ⟨pc, hpc, hnext⟩ := Option.bind_eq_some_iff.mp hpc'
    exact iff_of_true ⟨hone.1, (live_set hpc (tcpNext_live hnext) pc').trans hone.2⟩ trivial
  | lose client =>
    obtain rfl := Option.some.inj hs
    exact iff_of_true hone trivial

/-- **No socket has two readers**, in any state of a run, exactly if a listener was started
only when those before it had ended. -/
theorem readers_iff {ls : List Label} {s : State} (hrun : Run step start ls s) :
    (∀ done t, done <+: ls → Run step start done t → OneReader t) ↔ Reaches step Meets start ls s := by
  have hstart : OneReader start := ⟨by decide, by decide⟩
  exact run_all_iff (fun _ _ _ hone hs => oneReader_step hone hs) hstart hrun

instance (s : State) : (l : Label) → Decidable (Meets s l)
  | .proceed _ => inferInstanceAs (Decidable (_ ∧ _))
  | .connectGateway => inferInstanceAs (Decidable True)
  | .disconnectedGateway => inferInstanceAs (Decidable True)
  | .connectOrDisconnect => inferInstanceAs (Decidable True)
  | .udp _ _ => inferInstanceAs (Decidable True)
  | .tcp _ _ => inferInstanceAs (Decidable True)
  | .lose _ => inferInstanceAs (Decidable True)

/-- `ConnectGateway`, when nothing fails. -/
def connecting : List Label := .connectGateway :: List.replicate 9 (.proceed true)

/-- `DisconnectedGateway`, when it is connected. -/
def disconnecting : List Label := .disconnectedGateway :: List.replicate 4 (.proceed true)

/-- The hub connects and disconnects, both listeners end, and it connects again. -/
def reconnects : List Label :=
  connecting ++ disconnecting ++ [.udp 0 true, .tcp 0 true] ++ connecting

theorem readers_iff_reconnects : ∃ s, Run step start reconnects s ∧
    ∀ done t, done <+: reconnects → Run step start done t → OneReader t := by
  have hexec : (exec (fun s l => if Meets s l then step s l else none) start reconnects).isSome = true := by
    decide
  obtain ⟨s, hs⟩ := Option.isSome_iff_exists.mp hexec
  have hreaches := reaches_of_exec hs
  have hrun : Run step start reconnects s := hreaches.mono fun _ _ _ => trivial
  exact ⟨s, hrun, (readers_iff hrun).mpr hreaches⟩

/-- **A hub that reconnects has two UDP listeners**, if the first waits for a datagram
meanwhile. -/
theorem second_reader : ¬ ∀ ls s, Run step start ls s → OneReader s := by
  intro hall
  have hexec : (exec step start (connecting ++ [.udp 0 true, .udp 0 true] ++ disconnecting ++
      connecting)).any (fun s => decide (live UdpPc.ended s.udpThreads = 2)) = true := by
    decide
  obtain ⟨s, hs, hlive⟩ := (Option.any_eq_true _ _).mp hexec
  have hone := (hall _ s (run_of_exec hs)).1
  rw [of_decide_eq_true hlive] at hone
  omega

/-! ### A listener that waits -/

theorem step_udpThread {s s' : State} {l : Label} {t : Nat} {pc : UdpPc} (hne : ∀ ok, l ≠ .udp t ok)
    (ht : s.udpThreads[t]? = some pc) (hs : step s l = some s') : s'.udpThreads[t]? = some pc := by
  cases l with
  | connectGateway =>
    obtain ⟨_, hs⟩ := Option.ite_none_right_eq_some.mp hs
    obtain rfl := Option.some.inj hs
    exact ht
  | disconnectedGateway =>
    obtain ⟨_, hs⟩ := Option.ite_none_right_eq_some.mp hs
    obtain rfl := Option.some.inj hs
    exact ht
  | connectOrDisconnect =>
    obtain ⟨_, hs⟩ := Option.ite_none_right_eq_some.mp hs
    obtain rfl := Option.some.inj hs
    exact ht
  | proceed ok =>
    obtain ⟨c, _, rfl⟩ := Option.map_eq_some_iff.mp hs
    rw [proceed_udpThreads]
    split
    · rw [List.getElem?_append_left (List.getElem?_eq_some_iff.mp ht).1, ht]
    · exact ht
  | udp t' ok =>
    obtain ⟨pc', _, rfl⟩ := Option.map_eq_some_iff.mp hs
    have hother : t' ≠ t := by
      rintro rfl
      exact hne ok rfl
    rw [List.getElem?_set_ne hother, ht]
  | tcp t' ok =>
    obtain ⟨pc', _, rfl⟩ := Option.map_eq_some_iff.mp hs
    exact ht
  | lose client =>
    obtain rfl := Option.some.inj hs
    exact ht

/-- **A listener that waits for a datagram while the hub reconnects** is not the only one
then, whatever else happens meanwhile. -/
theorem blocked_reconnect {s s' s'' : State} {ls : List Label} {t : Nat} {ok : Bool}
    (ht : s.udpThreads[t]? = some .receive) (hrun : Run step s ls s') (hwaits : ∀ ok, .udp t ok ∉ ls)
    (hcall : s'.call = some .listenUdp) (hflag : s'.udpListen = true)
    (hs : step s' (.proceed ok) = some s'') : ¬ OneReader s'' := by
  have hstill : (∀ ok, Label.udp t ok ∉ ls) → s'.udpThreads[t]? = some .receive := by
    refine hrun.inv (P := fun ls s' => (∀ ok, Label.udp t ok ∉ ls) → s'.udpThreads[t]? = some .receive)
      (fun _ => ht) fun ls s a s' ih _ hs hno => ?_
    refine step_udpThread (fun ok heq => ?_) (ih fun ok hmem => hno ok (List.mem_append_left _ hmem)) hs
    exact hno ok (by simp [heq])
  obtain ⟨pc, hpc, rfl⟩ := Option.map_eq_some_iff.mp hs
  obtain rfl : CallPc.listenUdp = pc := Option.some.inj (hcall.symm.trans hpc)
  rintro ⟨hudp, _⟩
  rw [proceed_udpThreads, if_pos ⟨rfl, hflag⟩, live_concat (by decide)] at hudp
  have hpos := live_pos (hstill hwaits) (show UdpPc.receive ≠ .ended by decide)
  omega

/-! ### The calls as `HubManager` has them -/

/-- No call is under way, and the hub is the one of `HubManager`. -/
structure Agrees (s : State) (h : HubManager) : Prop where
  call : s.call = none
  connected : s.isConnected = h.connected
  udpListen : s.udpListen = h.udpListen
  tcpListen : s.tcpListen = h.tcpListen
  internalEndpoint : s.internalEndpoint = h.localHubInfo.internalEndpoint.isSome

variable {s : State} {h : HubManager}

theorem connectGateway_agrees (ha : Agrees s h) (fmt : TextFormat) (serverEndpoint : IPEndPoint)
    {localEndPoint : Option IPEndPoint}
    (hbound : h.localHubInfo.internalEndpoint.isSome = true → localEndPoint.isSome = true) :
    ∃ s', exec step s (.connectGateway :: (List.replicate 7 (.proceed true) ++
        [.proceed localEndPoint.isSome, .proceed true])) = some s' ∧
      Agrees s' ((h.connectGateway fmt serverEndpoint localEndPoint).connectedGateway fmt) := by
  have hendpoint : (s.internalEndpoint || localEndPoint.isSome) = localEndPoint.isSome := by
    rw [ha.internalEndpoint, Bool.or_eq_right_iff_imp]
    exact hbound
  rw [exec_cons (if_pos ha.call)]
  refine ⟨_, rfl, ?_⟩
  rw [HubManager.connectedGateway, HubManager.sendMessageTCP]
  split
  · exact ⟨rfl, Function.update_self .., rfl, rfl, hendpoint⟩
  · exact ⟨rfl, Function.update_self .., rfl, rfl, hendpoint⟩

theorem disconnectedGateway_agrees (ha : Agrees s h) : ∃ n s',
    exec step s (.disconnectedGateway :: List.replicate n (.proceed true)) = some s' ∧
      Agrees s' h.disconnectedGateway.state := by
  rw [HubManager.disconnectedGateway]
  by_cases hc : h.connected = true
  · have hs : s.isConnected = true := ha.connected.trans hc
    refine ⟨4, ?_⟩
    rw [exec_cons (if_pos ha.call), if_pos hc]
    have hstep : step (s.goto .disconnect) (.proceed true) =
        some ((s.setConnected false).goto .clearUdp) :=
      congrArg some (if_pos hs)
    rw [show List.replicate 4 (Label.proceed true) = .proceed true :: List.replicate 3 (.proceed true)
      from rfl, exec_cons hstep]
    exact ⟨_, rfl, rfl, Function.update_self .., rfl, rfl, ha.internalEndpoint⟩
  · have hs : ¬ s.isConnected = true := by rwa [ha.connected]
    refine ⟨1, ?_⟩
    rw [exec_cons (if_pos ha.call), if_neg hc]
    have hstep : step (s.goto .disconnect) (.proceed true) = some (s.goto .disconnect).done :=
      congrArg some (if_neg hs)
    exact ⟨_, exec_cons hstep [], rfl, ha.connected, ha.udpListen, ha.tcpListen, ha.internalEndpoint⟩

end Blockcore.Hub.Listeners
