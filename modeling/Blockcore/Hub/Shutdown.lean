import Blockcore.Hub.Service

/-!
# How the service ends

What becomes of the threads of `Hub.Service` when the connection is gone.  Where it is lost, nobody
notices: the task does not try again, as `ConnectGateway` has returned `true`, and a
`DisconnectedGateway` throws before it clears a flag (`Lost`).  Where a listener told of a shutdown
finds it there, both flags are cleared for good (`Closed`), and each thread has only so many steps
left (`State.left`).
-/

namespace Blockcore.Hub.Service

open Lib

variable {s s' t : State}

/-! ### A connection that is lost -/

theorem task_late (hi : Inv s) (hstarted : s.hub.tcpThreads ≠ []) {ok : Bool} (h : TaskCase s ok s') :
    s'.hub.isConnected = s.hub.isConnected ∧ s'.hub.udpThreads = s.hub.udpThreads ∧
      s'.hub.tcpThreads = s.hub.tcpThreads ∧ s'.disconnecting = s.disconnecting ∧
      s'.published.count .gatewayShutdown = s.published.count .gatewayShutdown := by
  cases h with
  | @connectGateway pc htask =>
    have hlate : 5 ≤ progress pc := by
      rw [← reached_connectGateway htask]
      exact hi.tcpThreads_ne_nil.mp hstarted
    cases pc with
    | announce => exact ⟨rfl, rfl, rfl, rfl, rfl⟩
    | pause => exact ⟨rfl, rfl, rfl, rfl, rfl⟩
    | _ => exact absurd hlate (by decide)
  | startKeepAlive => exact ⟨rfl, rfl, rfl, rfl, rfl⟩
  | publish =>
    refine ⟨rfl, rfl, rfl, rfl, ?_⟩
    rw [List.count_append]
    rfl
  | goto => exact ⟨rfl, rfl, rfl, rfl, rfl⟩

/-- The connection is gone, and no `DisconnectedGateway` found it there. -/
structure Lost (s : State) : Prop where
  started : s.hub.tcpThreads ≠ []
  off : s.hub.isConnected = false
  asked : Asked s
  notShutdown : .gatewayShutdown ∉ s.published

theorem Moved.tcpThreads_ne_nil {hub hub' : Listeners.State} {ok : Bool} {l : Listener}
    (h : Moved hub ok l hub') (hne : hub.tcpThreads ≠ []) : hub'.tcpThreads ≠ [] := by
  cases h with
  | udp => exact hne
  | tcp =>
    rw [Ne, ← List.length_eq_zero_iff, List.length_set, List.length_eq_zero_iff]
    exact hne

theorem Moved.isConnected {hub hub' : Listeners.State} {ok : Bool} {l : Listener}
    (h : Moved hub ok l hub') : hub'.isConnected = hub.isConnected := by
  cases h with
  | udp => rfl
  | tcp => rfl

theorem Lost.step {a : Label} (hi : Inv s) (hl : Lost s) (h : step s a = some s') : Lost s' := by
  obtain ⟨hstarted, hoff, hasked, hpub⟩ := hl
  cases step_case h with
  | task htask =>
    obtain ⟨hconn, _, htcp, hdisc, hcount⟩ := task_late hi hstarted htask
    refine ⟨by rwa [htcp], hconn.trans hoff, fun l pc hl => ?_, ?_⟩
    · rw [hdisc] at hl
      exact hasked l pc hl
    · rw [← List.count_eq_zero, hcount]
      exact List.count_eq_zero.mpr hpub
  | shutdown _ _ hmoved =>
    refine ⟨hmoved.tcpThreads_ne_nil hstarted, hmoved.isConnected.trans hoff, fun l' pc hl' => ?_, hpub⟩
    rcases disconnecting_update hl' with ⟨_, hpc⟩ | ⟨_, hl'⟩
    · exact (Option.some.inj hpc).symm
    · exact hasked l' pc hl'
  | @disconnectedGateway l pc hpc =>
    obtain rfl := hasked l pc hpc
    rw [disconnectedGateway_throws hoff]
    refine ⟨hstarted, hoff, fun l' pc hl' => ?_, hpub⟩
    rcases disconnecting_update hl' with ⟨_, hnow⟩ | ⟨_, hl'⟩
    · cases hnow
    · exact hasked l' pc hl'
  | listener _ hmoved =>
    exact ⟨hmoved.tcpThreads_ne_nil hstarted, hmoved.isConnected.trans hoff, hasked, hpub⟩
  | @lose client => exact ⟨hstarted, lose_off hoff client, hasked, hpub⟩
  | keepAlive => exact ⟨hstarted, hoff, hasked, hpub⟩
  | cancel => exact ⟨hstarted, hoff, hasked, hpub⟩

theorem Lost.flags (hi : Inv s) (hl : Lost s) : s.hub.udpListen = true ∧ s.hub.tcpListen = true := by
  have hr := hi.tcpThreads_ne_nil.mp hl.started
  cases hi.phase with
  | opening hlt => omega
  | opened _ _ _ hudp htcp => exact ⟨hudp, htcp⟩
  | closing l pc _ hdisc hpc =>
    obtain rfl := hl.asked l pc hdisc
    simp at hpc
  | closed _ _ hpub =>
    rw [List.count_eq_zero.mpr hl.notShutdown] at hpub
    cases hpub

/-- **A hub that loses its connection never connects again**, and its listeners never end, whatever it
is told then. -/
theorem lost_for_good {before after : List Label} (h : Run step start before t)
    (hstarted : t.hub.tcpThreads ≠ []) (hoff : t.hub.isConnected = false) (hasked : Asked t)
    (hpub : .gatewayShutdown ∉ t.published) (hafter : Run step t after s) :
    s.hub.isConnected = false ∧ .gatewayShutdown ∉ s.published ∧
      (s.hub.udpListen = true ∧ ∀ pc ∈ s.hub.udpThreads, pc ≠ .ended) ∧
      (s.hub.tcpListen = true ∧ ∀ pc ∈ s.hub.tcpThreads, pc ≠ .ended) := by
  have hall : Inv s ∧ Lost s := by
    refine Reaches.inv (P := fun _ s => Inv s ∧ Lost s) ⟨inv_run h, ⟨hstarted, hoff, hasked, hpub⟩⟩
      (fun _ _ _ _ hp _ hs => ?_) hafter
    exact ⟨hp.1.step hs, hp.2.step hp.1 hs⟩
  obtain ⟨hi, hl⟩ := hall
  obtain ⟨hudp, htcp⟩ := hl.flags hi
  exact ⟨hl.off, hl.notShutdown, ⟨hudp, hi.started.udpLive hudp⟩, ⟨htcp, hi.started.tcpLive htcp⟩⟩

/-- A hub that is told of a shutdown after its connection was lost. -/
def toldTooLate : List Label :=
  List.replicate 3 (.listener (.udp 0) true) ++ [.shutdown (.udp 0), .disconnectedGateway (.udp 0)] ++
    List.replicate 2 (.task true)

theorem lost_for_good_told : ∃ t s, Run step start (List.replicate 12 (.task true) ++ [.lose 1]) t ∧
    Run step t toldTooLate s ∧ s.hub.udpListen = true := by
  have hexec : (exec step start (List.replicate 12 (.task true) ++ [.lose 1])).any (fun t =>
      decide (t.hub.tcpThreads ≠ [] ∧ t.hub.isConnected = false ∧ .gatewayShutdown ∉ t.published) &&
        (exec step t toldTooLate).isSome) = true := by
    decide
  obtain ⟨t, ht, hlost⟩ := (Option.any_eq_true _ _).mp hexec
  obtain ⟨hlost, htold⟩ := Bool.and_eq_true_iff.mp hlost
  obtain ⟨hstarted, hoff, hpub⟩ := of_decide_eq_true hlost
  obtain ⟨s, hs⟩ := Option.isSome_iff_exists.mp htold
  have hrun := run_of_exec ht
  have hasked : Asked t := by
    obtain rfl := Option.some.inj ht
    intro l pc hl
    cases hl
  exact ⟨t, s, hrun, run_of_exec hs,
    (lost_for_good hrun hstarted hoff hasked hpub (run_of_exec hs)).2.2.1.1⟩

/-! ### After a shutdown -/

/-- How many steps a listener has left once its flag is cleared; with a message in hand it may be told
of another shutdown. -/
def udpLeft : Listeners.UdpPc → Nat
  | .test => 1
  | .endpoint => 5
  | .receive => 4
  | .process => 3
  | .ended => 0

def tcpLeft : Listeners.TcpPc → Nat
  | .test => 1
  | .stream => 2
  | .receive _ => 4
  | .process => 3
  | .ended => 0

def keepAliveLeft : KeepAlivePc → Nat
  | .test => 1
  | .sleep => 2
  | .ended => 0

def Listener.left (hub : Listeners.State) : Listener → Nat
  | .udp t => (hub.udpThreads[t]?.map udpLeft).getD 0
  | .tcp t => (hub.tcpThreads[t]?.map tcpLeft).getD 0

/-- In `DisconnectedGateway` it has that to finish, too. -/
def State.left (s : State) (l : Listener) : Nat :=
  l.left s.hub + if (s.disconnecting l).isSome then 1 else 0

/-- The thread of the keep-alives may not have been started. -/
def State.keepAliveLeft (s : State) (k : Nat) : Nat := (s.keepAlives[k]?.map Service.keepAliveLeft).getD 2

def Label.moves (l : Listener) : Label → Bool
  | .shutdown l' => l' = l
  | .disconnectedGateway l' => l' = l
  | .listener l' _ => l' = l
  | _ => false

theorem Listener.left_le (hub : Listeners.State) (l : Listener) : l.left hub ≤ 5 := by
  cases l with
  | udp t =>
    rw [Listener.left]
    cases hub.udpThreads[t]? with
    | none => exact Nat.zero_le _
    | some pc => cases pc <;> decide
  | tcp t =>
    rw [Listener.left]
    cases hub.tcpThreads[t]? with
    | none => exact Nat.zero_le _
    | some pc => cases pc <;> simp [tcpLeft]

def Listener.testing (hub : Listeners.State) : Listener → Bool
  | .udp t => hub.udpThreads[t]? = some .test
  | .tcp t => hub.tcpThreads[t]? = some .test

theorem Listener.left_testing {hub : Listeners.State} {l : Listener} (h : l.testing hub = true) :
    l.left hub = 1 := by
  cases l with
  | udp t => rw [Listener.left, of_decide_eq_true h]; rfl
  | tcp t => rw [Listener.left, of_decide_eq_true h]; rfl

theorem Listener.left_processing {hub : Listeners.State} {l : Listener} (h : l.processing hub = true) :
    l.left hub = 3 := by
  cases l with
  | udp t => rw [Listener.left, of_decide_eq_true h]; rfl
  | tcp t => rw [Listener.left, of_decide_eq_true h]; rfl

theorem Moved.testing {hub hub' : Listeners.State} {ok : Bool} {l : Listener} (h : Moved hub ok l hub')
    (hl : l.processing hub = true) : l.testing hub' = true := by
  cases h with
  | udp hpc hnext =>
    obtain rfl := Option.some.inj (hpc.symm.trans (of_decide_eq_true hl))
    cases hnext
    exact decide_eq_true (List.getElem?_set_self (List.getElem?_eq_some_iff.mp hpc).1)
  | tcp hpc hnext =>
    obtain rfl := Option.some.inj (hpc.symm.trans (of_decide_eq_true hl))
    cases hnext
    exact decide_eq_true (List.getElem?_set_self (List.getElem?_eq_some_iff.mp hpc).1)

theorem Moved.testing_other {hub hub' : Listeners.State} {ok : Bool} {l l' : Listener} (h : Moved hub ok l hub')
    (hne : l' ≠ l) : l'.testing hub' = l'.testing hub := by
  cases h with
  | @udp t =>
    cases l' with
    | udp t' =>
      have hne' : t ≠ t' := fun heq => hne (congrArg Listener.udp heq.symm)
      rw [Listener.testing, Listener.testing, List.getElem?_set_ne hne']
    | tcp t' => rfl
  | @tcp t =>
    cases l' with
    | udp t' => rfl
    | tcp t' =>
      have hne' : t ≠ t' := fun heq => hne (congrArg Listener.tcp heq.symm)
      rw [Listener.testing, Listener.testing, List.getElem?_set_ne hne']

theorem Listener.testing_proceed {hub : Listeners.State} {l : Listener} (h : l.testing hub = true) (ok : Bool)
    (pc : Listeners.CallPc) : l.testing { Listeners.proceed hub ok pc with call := none } = true := by
  cases l with
  | udp t =>
    have ht := of_decide_eq_true h
    have hlt := (List.getElem?_eq_some_iff.mp ht).1
    rw [Listener.testing, Listeners.proceed_udpThreads, decide_eq_true_eq]
    split
    · rw [List.getElem?_append_left hlt, ht]
    · exact ht
  | tcp t =>
    have ht := of_decide_eq_true h
    have hlt := (List.getElem?_eq_some_iff.mp ht).1
    rw [Listener.testing, Listeners.proceed_tcpThreads, decide_eq_true_eq]
    split
    · rw [List.getElem?_append_left hlt, ht]
    · exact ht

/-- A listener that is in `DisconnectedGateway` has nothing else in hand. -/
def Waiting (s : State) : Prop := ∀ l, (s.disconnecting l).isSome = true → l.testing s.hub = true

theorem left_le (hw : Waiting s) (l : Listener) : s.left l ≤ 5 := by
  rw [State.left]
  split
  · next hsome =>
    rw [Listener.left_testing (hw l hsome)]
    decide
  · exact l.left_le s.hub

theorem Waiting.step {a : Label} (hw : Waiting s) (h : step s a = some s') : Waiting s' := by
  intro l hl
  cases step_case h with
  | @task ok _ htask =>
    cases htask with
    | @connectGateway pc _ =>
      rw [(connectGateway_rest ..).1] at hl
      have htesting := Listener.testing_proceed (hw l hl) ok pc
      rw [State.connectGateway]
      split
      · exact htesting
      · split
        · exact htesting
        · exact htesting
    | startKeepAlive => exact hw l hl
    | publish => exact hw l hl
    | goto => exact hw l hl
  | @shutdown l' hub hprocessing hnone hmoved =>
    by_cases heq : l = l'
    · subst heq
      exact hmoved.testing hprocessing
    · simp only [Function.update_of_ne heq] at hl
      exact (hmoved.testing_other heq).trans (hw l hl)
  | @disconnectedGateway l' pc hpc =>
    refine Listener.testing_proceed (hw l ?_) true pc
    by_cases heq : l = l'
    · rw [heq, hpc]
      rfl
    · simp only [State.disconnectedGateway, Function.update_of_ne heq] at hl
      exact hl
  | @listener l' ok hub hnone hmoved =>
    have hne : l ≠ l' := by
      rintro rfl
      change (s.disconnecting l).isSome = true at hl
      rw [hnone] at hl
      cases hl
    exact (hmoved.testing_other hne).trans (hw l hl)
  | lose => exact hw l hl
  | keepAlive => exact hw l hl
  | cancel => exact hw l hl

theorem waiting_run {ls : List Label} (h : Run step start ls s) : Waiting s :=
  h.inv (P := fun _ s => Waiting s) (fun l hl => by cases hl) fun _ _ _ _ hw _ hs => hw.step hs

theorem keepAliveLeft_le (s : State) (k : Nat) : s.keepAliveLeft k ≤ 2 := by
  rw [State.keepAliveLeft]
  cases s.keepAlives[k]? with
  | none => exact Nat.le_refl _
  | some pc => cases pc <;> decide

structure Closed (s : State) : Prop where
  started : s.hub.tcpThreads ≠ []
  off : s.hub.isConnected = false
  udp : s.hub.udpListen = false
  tcp : s.hub.tcpListen = false
  asked : Asked s

theorem Inv.closed (hi : Inv s) (hpub : .gatewayShutdown ∈ s.published) : Closed s := by
  have hpos := List.count_pos_iff.mpr hpub
  cases hi.phase with
  | opening _ _ hzero => omega
  | opened _ _ hzero => omega
  | closing _ _ _ _ _ _ hzero => omega
  | closed hr hasked _ hoff hudp htcp => exact ⟨hi.tcpThreads_ne_nil.mpr hr, hoff, hudp, htcp, hasked⟩

theorem published_step {a : Label} (h : step s a = some s') : s.published <+: s'.published := by
  cases step_case h with
  | task htask =>
    cases htask with
    | connectGateway =>
      rw [State.connectGateway]
      split
      · exact List.prefix_refl _
      · split
        · exact List.prefix_refl _
        · exact List.prefix_append ..
    | startKeepAlive => exact List.prefix_refl _
    | publish => exact List.prefix_append ..
    | goto => exact List.prefix_refl _
  | disconnectedGateway =>
    simp only [State.disconnectedGateway]
    split
    · exact List.prefix_append ..
    · exact List.prefix_refl _
  | _ => exact List.prefix_refl _

theorem udpLeft_next {hub : Listeners.State} {ok : Bool} {pc pc' : Listeners.UdpPc}
    (hflag : hub.udpListen = false) (h : Listeners.udpNext hub ok pc = some pc') :
    udpLeft pc' + 1 ≤ udpLeft pc := by
  cases pc with
  | test =>
    rw [Listeners.udpNext, hflag] at h
    cases h
    decide
  | endpoint =>
    rw [Listeners.udpNext] at h
    split at h
    · cases h; decide
    · cases h; decide
  | receive =>
    rw [Listeners.udpNext] at h
    split at h
    · cases h; decide
    · cases h; decide
  | process => cases h; decide
  | ended => cases h

theorem tcpLeft_next {hub : Listeners.State} {ok : Bool} {pc pc' : Listeners.TcpPc}
    (hflag : hub.tcpListen = false) (hoff : hub.isConnected = false)
    (h : Listeners.tcpNext hub ok pc = some pc') : tcpLeft pc' + 1 ≤ tcpLeft pc := by
  cases pc with
  | test =>
    rw [Listeners.tcpNext, hflag] at h
    cases h
    decide
  | stream =>
    rw [Listeners.tcpNext, hoff] at h
    cases h
    exact Nat.le_refl 2
  | receive client =>
    rw [Listeners.tcpNext] at h
    split at h
    · split at h
      · cases h; simp [tcpLeft]
      · cases h
    · cases h; simp [tcpLeft]
  | process => cases h; decide
  | ended => cases h

theorem Moved.left {l' : Listener} {ok : Bool} {hub : Listeners.State} (hm : Moved s.hub ok l' hub)
    (hc : Closed s) (l : Listener) : (if l' = l then 1 else 0) + l.left hub ≤ l.left s.hub := by
  cases hm with
  | @udp t pc pc' hpc hnext =>
    have hlt := (List.getElem?_eq_some_iff.mp hpc).1
    have hless := udpLeft_next hc.udp hnext
    cases l with
    | udp t' =>
      by_cases heq : t = t'
      · subst heq
        simp only [Listener.left, List.getElem?_set_self hlt, hpc, Option.map_some, Option.getD_some, if_true]
        omega
      · simp only [Listener.left, List.getElem?_set_ne heq, Listener.udp.injEq, heq, if_false, Nat.zero_add,
          Nat.le_refl]
    | tcp t' => simp only [Listener.left, reduceCtorEq, if_false, Nat.zero_add, Nat.le_refl]
  | @tcp t pc pc' hpc hnext =>
    have hlt := (List.getElem?_eq_some_iff.mp hpc).1
    have hless := tcpLeft_next hc.tcp hc.off hnext
    cases l with
    | udp t' => simp only [Listener.left, reduceCtorEq, if_false, Nat.zero_add, Nat.le_refl]
    | tcp t' =>
      by_cases heq : t = t'
      · subst heq
        simp only [Listener.left, List.getElem?_set_self hlt, hpc, Option.map_some, Option.getD_some, if_true]
        omega
      · simp only [Listener.left, List.getElem?_set_ne heq, Listener.tcp.injEq, heq, if_false, Nat.zero_add,
          Nat.le_refl]

/-- **One step**, of whoever it is. -/
theorem left_step {a : Label} (hi : Inv s) (hc : Closed s) (h : step s a = some s') (l : Listener) :
    (if a.moves l then 1 else 0) + s'.left l ≤ s.left l := by
  cases step_case h with
  | task htask =>
    obtain ⟨_, hudp, htcp, hdisc, _⟩ := task_late hi hc.started htask
    refine (Nat.zero_add _).trans_le (Nat.le_of_eq ?_)
    rw [State.left, State.left, hdisc]
    cases l with
    | udp t => rw [Listener.left, Listener.left, hudp]
    | tcp t => rw [Listener.left, Listener.left, htcp]
  | @shutdown l' hub hl hnone hmoved =>
    by_cases heq : l' = l
    · subst heq
      have hbefore := Listener.left_processing hl
      have hafter := Listener.left_testing (hmoved.testing hl)
      simp [State.left, Label.moves, hbefore, hafter]
    · have hmove := hmoved.left hc l
      rw [if_neg heq] at hmove
      simp only [State.left, Label.moves, decide_eq_false heq, Function.update_of_ne (Ne.symm heq)]
      simp only [Bool.false_eq_true, if_false]
      omega
  | @disconnectedGateway l' pc hpc =>
    obtain rfl := hc.asked l' pc hpc
    rw [disconnectedGateway_throws hc.off]
    by_cases heq : l' = l
    · subst heq
      simp only [State.left, Label.moves, hpc, Function.update_self, decide_true, if_true, Option.isSome_some,
        Option.isSome_none, Bool.false_eq_true, if_false]
      exact (Nat.add_comm ..).le
    · simp only [State.left, Label.moves, decide_eq_false heq, Function.update_of_ne (Ne.symm heq)]
      exact (Nat.zero_add _).le
  | @listener l' ok hub hnone hmoved =>
    have hmove := hmoved.left hc l
    simp only [State.left, Label.moves, decide_eq_true_eq]
    omega
  | _ => exact (Nat.zero_add _).le

theorem keepAliveLeft_next {pc pc' : KeepAlivePc} (hoff : s.hub.isConnected = false)
    (h : s.keepAliveNext pc = some pc') : keepAliveLeft pc' + 1 ≤ keepAliveLeft pc := by
  cases pc with
  | test =>
    rw [State.keepAliveNext, hoff] at h
    cases h
    decide
  | sleep => cases h; decide
  | ended => cases h

theorem keepAliveLeft_step {a : Label} (hoff : s.hub.isConnected = false) (h : step s a = some s') (k : Nat) :
    (if a = .keepAlive k then 1 else 0) + s'.keepAliveLeft k ≤ s.keepAliveLeft k := by
  cases step_case h with
  | task htask =>
    rw [if_neg (fun h => by cases h), Nat.zero_add]
    cases htask with
    | connectGateway => rw [State.keepAliveLeft, (connectGateway_rest ..).2.2.1, State.keepAliveLeft]
    | startKeepAlive =>
      rw [State.keepAliveLeft, State.keepAliveLeft]
      rcases Nat.lt_trichotomy k s.keepAlives.length with hlt | rfl | hgt
      · rw [List.getElem?_append_left hlt]
      · rw [List.getElem?_concat_length, List.getElem?_eq_none (Nat.le_refl _)]
        decide
      · rw [List.getElem?_eq_none (by simp; omega), List.getElem?_eq_none (by omega)]
    | publish => exact Nat.le_refl _
    | goto => exact Nat.le_refl _
  | @keepAlive t pc pc' hpc hnext =>
    have hlt := (List.getElem?_eq_some_iff.mp hpc).1
    have hless := keepAliveLeft_next hoff hnext
    by_cases heq : t = k
    · subst heq
      simp only [State.keepAliveLeft, List.getElem?_set_self hlt, hpc, Option.map_some, Option.getD_some,
        if_true]
      omega
    · simp only [State.keepAliveLeft, List.getElem?_set_ne heq, Label.keepAlive.injEq, heq, if_false,
        Nat.zero_add, Nat.le_refl]
  | disconnectedGateway =>
    rw [if_neg (fun h => by cases h), Nat.zero_add]
    exact Nat.le_refl _
  | _ =>
    rw [if_neg (fun h => by cases h), Nat.zero_add]
    exact Nat.le_refl _

/-- **A shutdown ends all threads**: once it is published the hub never connects again, no flag is set,
no listener takes more than five steps, also such in `DisconnectedGateway`, and no thread of the
keep-alives more than two. -/
theorem closed_for_good {before after : List Label} (h : Run step start before t)
    (hpub : .gatewayShutdown ∈ t.published) (hafter : Run step t after s) :
    s.hub.isConnected = false ∧ s.hub.udpListen = false ∧ s.hub.tcpListen = false ∧
      (∀ l : Listener, after.countP (·.moves l) ≤ 5) ∧ ∀ k, after.count (.keepAlive k) ≤ 2 := by
  have hall : Inv s ∧ .gatewayShutdown ∈ s.published ∧
      (∀ l, after.countP (·.moves l) + s.left l ≤ t.left l) ∧
      ∀ k, after.count (.keepAlive k) + s.keepAliveLeft k ≤ t.keepAliveLeft k := by
    refine Reaches.inv (P := fun after s => Inv s ∧ .gatewayShutdown ∈ s.published ∧
      (∀ l, after.countP (·.moves l) + s.left l ≤ t.left l) ∧
      ∀ k, after.count (.keepAlive k) + s.keepAliveLeft k ≤ t.keepAliveLeft k)
      ⟨inv_run h, hpub, fun l => (Nat.zero_add _).le, fun k => (Nat.zero_add _).le⟩
      (fun after s a s' hp _ hs => ?_) hafter
    obtain ⟨hi, hmem, hleft, hkeep⟩ := hp
    have hc := hi.closed hmem
    refine ⟨hi.step hs, (published_step hs).subset hmem, fun l => ?_, fun k => ?_⟩
    · have hbefore := hleft l
      have hone := left_step hi hc hs l
      rw [List.countP_append, List.countP_singleton]
      omega
    · have hbefore := hkeep k
      have hone := keepAliveLeft_step hc.off hs k
      rw [List.count_append, List.count_singleton]
      simp only [beq_iff_eq]
      omega
  obtain ⟨hi, hmem, hleft, hkeep⟩ := hall
  have hc := hi.closed hmem
  refine ⟨hc.off, hc.udp, hc.tcp, fun l => ?_, fun k => ?_⟩
  · exact (Nat.le_add_right _ _).trans ((hleft l).trans (left_le (waiting_run h) l))
  · exact (Nat.le_add_right _ _).trans ((hkeep k).trans (keepAliveLeft_le t k))

/-- The rest of `ConnectGateway`, and the threads that end; one is told of another shutdown before. -/
def ending : List Label :=
  List.replicate 2 (.task true) ++ [.keepAlive 0, .listener (.tcp 0) true, .listener (.udp 0) true,
    .listener (.udp 0) true, .shutdown (.udp 0), .disconnectedGateway (.udp 0), .listener (.udp 0) true]

theorem closed_for_good_shutdownEarly : ∃ t s, Run step start shutdownEarly t ∧
    Run step t ending s ∧ s.hub.tcpListen = false := by
  have hexec : (exec step start shutdownEarly).any (fun t => decide (.gatewayShutdown ∈ t.published) &&
      (exec step t ending).isSome) = true := by
    decide
  obtain ⟨t, ht, hclosed⟩ := (Option.any_eq_true _ _).mp hexec
  obtain ⟨hpub, hafter⟩ := Bool.and_eq_true_iff.mp hclosed
  obtain ⟨s, hs⟩ := Option.isSome_iff_exists.mp hafter
  have hrun := run_of_exec ht
  exact ⟨t, s, hrun, run_of_exec hs, (closed_for_good hrun (of_decide_eq_true hpub) (run_of_exec hs)).2.2.1⟩

end Blockcore.Hub.Service
