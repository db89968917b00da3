import Blockcore.Lib.Runs
import Mathlib.Data.DFinsupp.WellFounded

/-!
# Systems that come to rest

Some steps a system takes by itself, in whatever order, and some of them are busy, the others idle.
`Ends` says that from a state on only finitely many are busy, however the steps go on.

To show it, count what there is to do, level by level.  A busy step may make more to do, but only at later
levels than one at which it leaves less (`Less`); an idle one makes none.  If every step from a state
with an invariant is so and keeps the invariant, the busy ones end (`ends_of_less`).  So of the steps of
a run that goes on forever, all are idle from some time on (`Ends.eventually`).
-/

namespace Blockcore.Lib

section

variable {κ : Type} [LinearOrder κ]

/-- At one level there is less to do, and at no level before it more. -/
def Less (work' work : κ → Nat) : Prop := ∃ k, work' k < work k ∧ ∀ j < k, work' j ≤ work j

theorem Less.lex [Finite κ] {work' work : κ → Nat} (h : Less work' work) :
    Pi.Lex (· < ·) (fun {_} => (· < ·)) work' work := by
  obtain ⟨k, hk, hle⟩ := h
  obtain ⟨i, hi, hfirst⟩ := (Finite.to_wellFoundedLT (α := κ)).wf.has_min {j | work' j ≠ work j} ⟨k, hk.ne⟩
  have heq : ∀ j < i, work' j = work j := by
    intro j hj
    by_contra hne
    exact hfirst j hne hj
  refine ⟨i, heq, ?_⟩
  have hik : i ≤ k := not_lt.mp (hfirst k hk.ne)
  rcases hik.lt_or_eq with hlt | rfl
  · exact lt_of_le_of_ne (hle i hlt) hi
  · exact hk

theorem Less.le {work'' work' work : κ → Nat} (h : Less work'' work') (hle : ∀ k, work' k ≤ work k) :
    Less work'' work := by
  obtain ⟨k, hk, hbefore⟩ := h
  exact ⟨k, hk.trans_le (hle k), fun j hj => (hbefore j hj).trans (hle j)⟩

theorem less_of_takes {work'' work' work : κ → Nat} {a : κ}
    (htake : ∀ k, work' k + (if a = k then 1 else 0) = work k) (hrest : ∀ k ≤ a, work'' k ≤ work' k) :
    Less work'' work := by
  refine ⟨a, ?_, fun j hj => (hrest j hj.le).trans ?_⟩
  · have hself := htake a
    rw [if_pos rfl] at hself
    have := hrest a le_rfl
    omega
  · rw [← htake j]
    exact Nat.le_add_right ..

theorem wellFounded_less [Finite κ] : WellFounded (Less : (κ → Nat) → (κ → Nat) → Prop) :=
  Subrelation.wf Less.lex (Pi.Lex.wellFounded (· < ·) fun _ => wellFounded_lt)

end

section

variable {σ l : Type} {step : σ → l → Option σ} {busy idle : σ → l → Prop} {s : σ}

def Next (step : σ → l → Option σ) (busy idle : σ → l → Prop) (s s' : σ) : Prop :=
  ∃ ls t a, Reaches step idle s ls t ∧ busy t a ∧ step t a = some s'

/-- However the steps go on, only finitely many are busy. -/
def Ends (step : σ → l → Option σ) (busy idle : σ → l → Prop) (s : σ) : Prop :=
  Acc (fun s' s => Next step busy idle s s') s

theorem ends_of_less {κ : Type} [LinearOrder κ] [Finite κ] (work : σ → κ → Nat) {P : σ → Prop}
    (hbusy : ∀ s a s', P s → busy s a → step s a = some s' → P s' ∧ Less (work s') (work s))
    (hidle : ∀ s a s', P s → idle s a → step s a = some s' → P s' ∧ ∀ k, work s' k ≤ work s k) (hs : P s) :
    Ends step busy idle s := by
  have hwf := InvImage.wf work (wellFounded_less (κ := κ))
  induction s using hwf.induction with
  | _ s ih =>
    constructor
    rintro s' ⟨ls, t, a, hrun, ha, hs'⟩
    obtain ⟨hPt, hle⟩ := hrun.inv (P := fun _ t => P t ∧ ∀ k, work t k ≤ work s k) ⟨hs, fun _ => le_rfl⟩
      fun _ t a t' ⟨hPt, hle⟩ hm ht' => ⟨(hidle t a t' hPt hm ht').1,
        fun k => ((hidle t a t' hPt hm ht').2 k).trans (hle k)⟩
    obtain ⟨hP, hless⟩ := hbusy t a s' hPt ha hs'
    exact ih s' (hless.le hle) hP

/-- The labels lead from each of the states to the next, and each is busy or idle. -/
structure Forever (step : σ → l → Option σ) (busy idle : σ → l → Prop) (f : Nat → σ) (a : Nat → l) :
    Prop where
  step : ∀ n, step (f n) (a n) = some (f (n + 1))
  either : ∀ n, busy (f n) (a n) ∨ idle (f n) (a n)

theorem Forever.later {f : Nat → σ} {a : Nat → l} (h : Forever step busy idle f a) (k : Nat) :
    Forever step busy idle (fun n => f (n + k)) fun n => a (n + k) where
  step n := by
    have := h.step (n + k)
    rwa [Nat.add_right_comm] at this
  either n := h.either (n + k)

theorem Forever.reaches {f : Nat → σ} {a : Nat → l} (h : Forever step busy idle f a) {m : Nat}
    (hm : ∀ n < m, ¬ busy (f n) (a n)) : ∃ ls, Reaches step idle (f 0) ls (f m) := by
  induction m with
  | zero => exact ⟨[], .start⟩
  | succ m ih =>
    obtain ⟨ls, hls⟩ := ih fun n hn => hm n (by omega)
    have hidle := (h.either m).resolve_left (hm m (by omega))
    exact ⟨ls ++ [a m], hls.step hidle (h.step m)⟩

theorem Ends.eventually {f : Nat → σ} {a : Nat → l} (hs : Ends step busy idle (f 0))
    (h : Forever step busy idle f a) : ∃ n, ∀ m, n ≤ m → ¬ busy (f m) (a m) := by
  classical
  generalize hf : f 0 = s at hs
  induction hs generalizing f a with
  | intro s _ ih =>
    subst hf
    by_cases hbusy : ∃ m, busy (f m) (a m)
    · have hfirst := Nat.find_spec hbusy
      obtain ⟨ls, hls⟩ := h.reaches fun n hn => Nat.find_min hbusy hn
      obtain ⟨n, hn⟩ := ih _ ⟨ls, _, _, hls, hfirst, h.step _⟩ (h.later (Nat.find hbusy + 1))
        (by rw [Nat.zero_add])
      refine ⟨n + (Nat.find hbusy + 1), fun m hm => ?_⟩
      have := hn (m - (Nat.find hbusy + 1)) (by omega)
      rwa [Nat.sub_add_cancel (by omega)] at this
    · push Not at hbusy
      exact ⟨0, fun m _ => hbusy m⟩

theorem exec_forever {ls : List l} {s t : σ} {b : l} (hls : exec step s ls = some t)
    (hb : step t b = some t) : ∃ f : Nat → σ, f 0 = s ∧
      ∀ n, step (f n) (ls.getD n b) = some (f (n + 1)) := by
  induction ls generalizing s with
  | nil =>
    obtain rfl := Option.some.inj hls
    exact ⟨fun _ => s, rfl, fun _ => hb⟩
  | cons a ls ih =>
    obtain ⟨u, hu, hmore⟩ := Option.bind_eq_some_iff.mp hls
    obtain ⟨f, hf, hstep⟩ := ih hmore
    refine ⟨fun n => n.casesOn s f, rfl, fun n => ?_⟩
    cases n with
    | zero =>
      rw [List.getD_cons_zero]
      show step s a = some (f 0)
      rw [hf]
      exact hu
    | succ n =>
      rw [List.getD_cons_succ]
      exact hstep n

end

end Blockcore.Lib
