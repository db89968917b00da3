import Blockcore.Network.Work

/-!
# What there is to do, all in all

`work` counts what is under way, the gateway's entries and what the hubs have to do by themselves, level by
level.  A message that is taken is one less at its level (`work_takeUp` and the like); a hub or the
gateway that goes on makes what it sends, and changes what it has to do by itself (`work_setHub`,
`work_setGateway`).
-/

namespace Blockcore.Network.Links.Load

open Lib Networking Gateway Hub
open Work

/-! ### Levels -/

/-- The level of a message to the gateway. Nothing is done with a keep-alive. -/
def upLevel : BaseMessage → Option Level
  | .info _ => some .infoUp
  | .req _ => some .reqUp
  | .keepAlive _ => none
  | _ => some .otherUp

def downLevel : BaseMessage → Level
  | .req _ => .reqDown
  | .notification _ => .notification
  | _ => .down

def airLevel (server : IPEndPoint) (d : Datagram) : Level :=
  match d.message with
  | .info _ => if d.target = server then .infoUp else .down
  | .ack msg => if msg.response then .reply else .probe
  | _ => .down

/-- The level of a datagram the gateway has received. -/
def takenLevel : BaseMessage → Level
  | .info _ => .infoTaken
  | _ => .taken

section

variable {server : IPEndPoint}

theorem down_le_downLevel (m : BaseMessage) : .down ≤ downLevel m := by
  cases m with
  | req _ => exact (by decide : Level.down ≤ .reqDown)
  | notification _ => exact (by decide : Level.down ≤ .notification)
  | _ => exact le_refl Level.down

theorem airLevel_ack (source target : IPEndPoint) (msg : AckMessage) :
    airLevel server ⟨source, target, .ack msg⟩ = .reply ∨ airLevel server ⟨source, target, .ack msg⟩ =
        .probe := by
  cases hresponse : msg.response with
  | true => exact Or.inl (if_pos hresponse)
  | false => exact Or.inr (if_neg (by simp [hresponse]))

theorem down_le_airLevel {source target : IPEndPoint} (htarget : target ≠ server) (m : BaseMessage) :
    .down ≤ airLevel server ⟨source, target, m⟩ := by
  cases m with
  | info _ =>
    rw [airLevel, if_neg htarget]
  | ack msg =>
    rcases @airLevel_ack server source target msg with h | h
    · rw [h]
      decide
    · rw [h]
      decide
  | _ => exact le_refl Level.down

theorem airLevel_lt_takenLevel (source : IPEndPoint) (m : BaseMessage) :
    airLevel server ⟨source, server, m⟩ < takenLevel m := by
  cases m with
  | info _ =>
    rw [airLevel, if_pos rfl]
    exact (by decide : Level.infoUp < .infoTaken)
  | ack msg =>
    rcases @airLevel_ack server source server msg with h | h
    · rw [h]
      exact (by decide : Level.reply < .taken)
    · rw [h]
      exact (by decide : Level.probe < .taken)
  | _ => exact (by decide : Level.down < .taken)

end

section

variable {ι : Type}

def onClients (s : State ι) (v : Level) : Nat :=
  ∑ c ∈ Finset.range s.opened.length,
    ((s.toGateway c).countP (upLevel · = some v) + (s.toHub c).countP (downLevel · = v))

/-- What is under way in datagrams, or received. -/
def inAir (server : IPEndPoint) (s : State ι) (v : Level) : Nat :=
  s.datagrams.countP (airLevel server · = v) + s.taken.toList.countP (takenLevel · = v)

def entries (g : GatewayManager) : Level → Nat
  | .entry => g.connections.length
  | _ => 0

variable [Fintype ι] (fmt : TextFormat) (name : ι → Option String) (address : ι → IPEndPoint)
  (server : IPEndPoint)

/-- What there is to do at a level. -/
def work (s : State ι) (v : Level) : Nat :=
  onClients s v + inAir server s v + entries s.gateway v + ∑ i, todo fmt name address (s.hub i) v

end

section

variable {ι : Type} {s s' : State ι} {v : Level}

theorem entries_eq_zero {g : GatewayManager} (hv : v ≠ .entry) : entries g v = 0 := by
  cases v with
  | entry => exact absurd rfl hv
  | _ => rfl

theorem onClients_mono (hopened : s'.opened = s.opened)
    (hup : ∀ c, (s'.toGateway c).countP (upLevel · = some v) ≤ (s.toGateway c).countP (upLevel · = some v))
    (hdown : ∀ c, (s'.toHub c).countP (downLevel · = v) ≤ (s.toHub c).countP (downLevel · = v)) :
    onClients s' v ≤ onClients s v := by
  rw [onClients, onClients, hopened]
  exact Finset.sum_le_sum fun c _ => Nat.add_le_add (hup c) (hdown c)

theorem sum_take {α : Type} [DecidableEq α] {l : Finset α} {c : α} {f f' : α → Nat} {k : Nat} (hc : c ∈ l)
    (hself : f' c + k = f c) (hothers : ∀ d, d ≠ c → f' d = f d) : ∑ d ∈ l, f' d + k = ∑ d ∈ l, f d := by
  have hrest : ∑ d ∈ l.erase c, f' d = ∑ d ∈ l.erase c, f d :=
    Finset.sum_congr rfl fun d hd => hothers d (Finset.ne_of_mem_erase hd)
  rw [← Finset.add_sum_erase _ f' hc, ← Finset.add_sum_erase _ f hc, hrest]
  omega

theorem onClients_up {c : TcpClient} {message : BaseMessage} {rest : List BaseMessage}
    (hc : c < s.opened.length) (hq : s.toGateway c = message :: rest) (v : Level) :
    onClients { s with toGateway := Function.update s.toGateway c rest } v +
      (if upLevel message = some v then 1 else 0) = onClients s v := by
  refine sum_take (Finset.mem_range.mpr hc) ?_ fun d hd => ?_
  · simp only [Function.update_self, hq, List.countP_cons, decide_eq_true_eq]
    omega
  · simp only [Function.update_of_ne hd]

theorem onClients_down {c : TcpClient} {message : BaseMessage} {rest : List BaseMessage}
    (hc : c < s.opened.length) (hq : s.toHub c = message :: rest) (v : Level) :
    onClients { s with toHub := Function.update s.toHub c rest } v +
      (if downLevel message = v then 1 else 0) = onClients s v := by
  refine sum_take (Finset.mem_range.mpr hc) ?_ fun d hd => ?_
  · simp only [Function.update_self, hq, List.countP_cons, decide_eq_true_eq]
    omega
  · simp only [Function.update_of_ne hd]

theorem countP_append_of_ne {α β : Type} [DecidableEq β] {level : α → β} {b : β} {l new : List α}
    (hnew : ∀ m ∈ new, level m ≠ b) : (l ++ new).countP (level · = b) = l.countP (level · = b) := by
  have hnone : new.countP (level · = b) = 0 :=
    List.countP_eq_zero.mpr fun m hm => by simpa using hnew m hm
  rw [List.countP_append, hnone, Nat.add_zero]

variable [Fintype ι] {fmt : TextFormat} {name : ι → Option String} {address : ι → IPEndPoint}
  {server : IPEndPoint}

/-- **The gateway goes on**, and sends nothing of this level. -/
theorem work_setGateway {g : GatewayManager}
    (hdown : ∀ c m, .tcp c m ∈ g.sent.drop s.gateway.sent.length → downLevel m ≠ v)
    (hair : ∀ e m, .udp e m ∈ g.sent.drop s.gateway.sent.length → airLevel server ⟨server, e, m⟩ ≠ v) :
    work fmt name address server (s.setGateway server g) v + entries s.gateway v ≤
      work fmt name address server s v + entries g v := by
  have hclients : onClients (s.setGateway server g) v ≤ onClients s v := by
    refine onClients_mono rfl (fun c => Nat.le_refl _) fun c => ?_
    show (s.toHub c ++ sentTo (g.sent.drop s.gateway.sent.length) c).countP _ ≤ _
    rw [countP_append_of_ne fun m hm => hdown c m (mem_sentTo.mp hm)]
  have hdatagrams : inAir server (s.setGateway server g) v = inAir server s v := by
    rw [inAir, inAir]
    show (s.datagrams ++ gatewayDatagrams server (g.sent.drop s.gateway.sent.length)).countP _ + _ = _
    rw [countP_append_of_ne fun d hd => ?_]
    · rfl
    · obtain ⟨source, target, message⟩ := d
      obtain ⟨hsource, hmem⟩ := mem_gatewayDatagrams.mp hd
      obtain rfl : source = server := hsource
      exact hair target message hmem
  rw [work, work, hdatagrams]
  show _ + _ + entries g v + _ + _ ≤ _
  have hhubs : ∑ i, todo fmt name address ((s.setGateway server g).hub i) v =
      ∑ i, todo fmt name address (s.hub i) v := rfl
  omega

theorem work_setGateway_silent {g : GatewayManager} (hsent : g.sent = s.gateway.sent)
    (hconnections : g.connections = s.gateway.connections) (v : Level) :
    work fmt name address server (s.setGateway server g) v ≤ work fmt name address server s v := by
  have hentries : entries g v = entries s.gateway v := by
    cases v with
    | entry => rw [entries, entries, hconnections]
    | _ => rfl
  have hnone : ∀ x, x ∉ g.sent.drop s.gateway.sent.length := by
    intro x hx
    rw [hsent, List.drop_length] at hx
    cases hx
  refine Nat.le_of_add_le_add_right ((work_setGateway (fun c m hm => ?_) fun e m hm => ?_).trans
    (Nat.add_le_add_left hentries.le _))
  · exact absurd hm (hnone _)
  · exact absurd hm (hnone _)

theorem work_takeUp {c : TcpClient} {message : BaseMessage} {rest : List BaseMessage}
    (hc : c < s.opened.length) (hq : s.toGateway c = message :: rest) (v : Level) :
    work fmt name address server { s with toGateway := Function.update s.toGateway c rest } v +
      (if upLevel message = some v then 1 else 0) = work fmt name address server s v := by
  rw [work, work, ← onClients_up hc hq v]
  show _ + inAir server s v + entries s.gateway v + ∑ i, todo fmt name address (s.hub i) v + _ = _
  omega

theorem work_takeDown {c : TcpClient} {message : BaseMessage} {rest : List BaseMessage}
    (hc : c < s.opened.length) (hq : s.toHub c = message :: rest) (v : Level) :
    work fmt name address server { s with toHub := Function.update s.toHub c rest } v +
      (if downLevel message = v then 1 else 0) = work fmt name address server s v := by
  rw [work, work, ← onClients_down hc hq v]
  show _ + inAir server s v + entries s.gateway v + ∑ i, todo fmt name address (s.hub i) v + _ = _
  omega

theorem work_takeAir {k : Nat} {d : Datagram} (hd : s.datagrams[k]? = some d) (v : Level) :
    work fmt name address server { s with datagrams := s.datagrams.eraseIdx k } v +
      (if airLevel server d = v then 1 else 0) = work fmt name address server s v := by
  have hcount := countP_eraseIdx hd (airLevel server · = v)
  simp only [decide_eq_true_eq] at hcount
  rw [work, work, inAir, inAir, ← hcount]
  show onClients s v + ((s.datagrams.eraseIdx k).countP (airLevel server · = v) +
    s.taken.toList.countP (takenLevel · = v)) + entries s.gateway v +
      ∑ i, todo fmt name address (s.hub i) v + _ = _
  omega

theorem work_takeTaken {message : BaseMessage} (ht : s.taken = some message) (v : Level) :
    work fmt name address server { s with taken := none } v + (if takenLevel message = v then 1 else 0) =
      work fmt name address server s v := by
  rw [work, work, inAir, inAir, ht]
  simp only [Option.toList_some, Option.toList_none, List.countP_cons, List.countP_nil, decide_eq_true_eq]
  show onClients s v + _ + entries s.gateway v + ∑ i, todo fmt name address (s.hub i) v + _ = _
  omega

variable [DecidableEq ι]

/-- **A hub goes on**, and sends nothing of this level. -/
theorem work_setHub {i : ι} {h : HubManager} (hup : ∀ m ∈ sentTCP (reaction (s.hub i) h), upLevel m ≠ some v)
    (hair : ∀ d ∈ hubDatagrams (address i) (reaction (s.hub i) h), airLevel server d ≠ v) :
    work fmt name address server (s.setHub address i h) v + todo fmt name address (s.hub i) v ≤
      work fmt name address server s v + todo fmt name address h v := by
  have hclients : onClients (s.setHub address i h) v ≤ onClients s v := by
    refine onClients_mono rfl (fun c => ?_) fun c => Nat.le_refl _
    show (if s.link i = some c then s.toGateway c ++ sentTCP (reaction (s.hub i) h)
      else s.toGateway c).countP _ ≤ _
    split
    · rw [countP_append_of_ne hup]
    · exact Nat.le_refl _
  have hdatagrams : inAir server (s.setHub address i h) v = inAir server s v := by
    rw [inAir, inAir]
    show (s.datagrams ++ hubDatagrams (address i) (reaction (s.hub i) h)).countP _ + _ = _
    rw [countP_append_of_ne hair]
    rfl
  have hhubs : ∑ k, todo fmt name address (Function.update s.hub i h k) v +
      todo fmt name address (s.hub i) v =
      ∑ k, todo fmt name address (s.hub k) v + todo fmt name address h v := by
    have hrest : ∑ k ∈ Finset.univ.erase i, todo fmt name address (Function.update s.hub i h k) v =
        ∑ k ∈ Finset.univ.erase i, todo fmt name address (s.hub k) v :=
      Finset.sum_congr rfl fun k hk => by rw [Function.update_of_ne (Finset.ne_of_mem_erase hk)]
    rw [← Finset.add_sum_erase _ _ (Finset.mem_univ i), hrest, Function.update_self,
      ← Finset.add_sum_erase _ (fun k => todo fmt name address (s.hub k) v) (Finset.mem_univ i)]
    omega
  rw [work, work, hdatagrams]
  show _ + _ + entries s.gateway v + ∑ k, todo fmt name address (Function.update s.hub i h k) v + _ ≤ _
  omega

theorem work_setHub_le {i : ι} {h : HubManager}
    (hup : ∀ m ∈ sentTCP (reaction (s.hub i) h), upLevel m ≠ some v)
    (hair : ∀ d ∈ hubDatagrams (address i) (reaction (s.hub i) h), airLevel server d ≠ v)
    (htodo : todo fmt name address h v ≤ todo fmt name address (s.hub i) v) :
    work fmt name address server (s.setHub address i h) v ≤ work fmt name address server s v :=
  Nat.le_of_add_le_add_right ((work_setHub hup hair).trans (Nat.add_le_add_left htodo _))

end

end Blockcore.Network.Links.Load
