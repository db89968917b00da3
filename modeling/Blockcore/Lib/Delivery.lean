import Mathlib.Data.List.Perm.Subperm
import Mathlib.Logic.Relation

/-!
# Delivery

Things are asked for, wait in one of several queues, are passed on from the head of one into an
inbox, and are taken from the head of that.  On the way any of them may be lost, also all
that are in the inbox.

`Delivery.Kept` says that nothing is made up and nothing is there twice: what was taken, with
what is still on its way, is among what was asked for.  Where only one queue is used,
`Delivery.InOrder` says the same of the order, and `Delivery.Whole`, where nothing is lost, that
it is all that was asked for.
-/

namespace Blockcore.Lib

open Relation

structure Delivery (α : Type) where
  asked : List α
  queues : List (List α)
  inbox : List α
  taken : List α

namespace Delivery

variable {α : Type}

/-- What can happen; only queues that `via` allows are put into, and only if `loses` is something
lost. -/
inductive Step (via : Nat → Prop) (loses : Prop) : Delivery α → Delivery α → Prop where
  | opened (m : Delivery α) : Step via loses m { m with queues := m.queues ++ [[]] }
  | lost (m : Delivery α) (a : α) (hloses : loses) : Step via loses m { m with asked := m.asked ++ [a] }
  | queued {m : Delivery α} {k : Nat} {q : List α} (a : α) (hk : via k) (hq : m.queues[k]? = some q) :
    Step via loses m { m with asked := m.asked ++ [a], queues := m.queues.set k (q ++ [a]) }
  | dropped {m : Delivery α} {k : Nat} {a : α} {q : List α} (hq : m.queues[k]? = some (a :: q))
      (hloses : loses) :
    Step via loses m { m with queues := m.queues.set k q }
  | passed {m : Delivery α} {k : Nat} {a : α} {q : List α} (hq : m.queues[k]? = some (a :: q)) :
    Step via loses m { m with queues := m.queues.set k q, inbox := m.inbox ++ [a] }
  | taken {m : Delivery α} {a : α} {rest : List α} (ha : m.inbox = a :: rest) :
    Step via loses m { m with inbox := rest, taken := m.taken ++ [a] }
  | cleared (m : Delivery α) (hloses : loses) : Step via loses m { m with inbox := [] }

abbrev Steps (via : Nat → Prop) (loses : Prop) : Delivery α → Delivery α → Prop :=
  ReflTransGen (Step via loses)

variable {via via' : Nat → Prop} {loses : Prop} {m m' : Delivery α}

theorem Step.mono (hvia : ∀ k, via k → via' k) (hs : Step via loses m m') : Step via' loses m m' := by
  cases hs with
  | opened => exact .opened m
  | lost a hloses => exact .lost m a hloses
  | queued a hk hq => exact .queued a (hvia _ hk) hq
  | dropped hq hloses => exact .dropped hq hloses
  | passed hq => exact .passed hq
  | taken ha => exact .taken ha
  | cleared hloses => exact .cleared m hloses

theorem Steps.mono (hvia : ∀ k, via k → via' k) (hs : Steps via loses m m') : Steps via' loses m m' := by
  induction hs with
  | refl => exact .refl
  | tail _ hs ih => exact ih.tail (hs.mono hvia)

def all (m : Delivery α) : List α := m.taken ++ m.inbox ++ m.queues.flatten

/-- **Nothing is made up, and nothing is there twice.** -/
def Kept (m : Delivery α) : Prop := m.all.Subperm m.asked

/-- Only queues that are allowed have something in them. -/
def Only (via : Nat → Prop) (m : Delivery α) : Prop := ∀ k a q, m.queues[k]? = some (a :: q) → via k

/-- **Nothing is out of order, either.** -/
structure InOrder (via : Nat → Prop) (m : Delivery α) : Prop where
  sub : m.all.Sublist m.asked
  only : Only via m

/-- **Nothing is lost, either.** -/
structure Whole (via : Nat → Prop) (m : Delivery α) : Prop where
  all : m.all = m.asked
  only : Only via m

theorem cut_of_getElem? {qs : List (List α)} {k : Nat} {q : List α} (hq : qs[k]? = some q) :
    ∃ as bs, qs = as ++ q :: bs ∧ as.length = k ∧ ∀ q', qs.set k q' = as ++ q' :: bs := by
  obtain ⟨hk, rfl⟩ := List.getElem?_eq_some_iff.mp hq
  have hlen := List.length_take_of_le (Nat.le_of_lt hk)
  refine ⟨qs.take k, qs.drop (k + 1), ?_, hlen, fun q' => List.set_eq_take_append_cons_drop.trans (if_pos hk)⟩
  rw [List.getElem_cons_drop hk, List.take_append_drop]

theorem Kept.sublist (hm : Kept m) (hall : m'.all.Sublist m.all) (hasked : m'.asked = m.asked) :
    Kept m' := by
  rw [Kept, hasked]
  exact hall.subperm.trans hm

theorem flatten_dropped {qs : List (List α)} {k : Nat} {a : α} {q : List α}
    (hq : qs[k]? = some (a :: q)) : (qs.set k q).flatten.Sublist qs.flatten := by
  obtain ⟨as, bs, hqs, _, hset⟩ := cut_of_getElem? hq
  rw [hset, hqs, List.flatten_append, List.flatten_append, List.flatten_cons, List.flatten_cons,
    List.cons_append]
  exact (List.sublist_cons_self ..).append_left _

/-- **One step** makes nothing up. -/
theorem Kept.step (hm : Kept m) (hs : Step via loses m m') : Kept m' := by
  cases hs with
  | opened => exact hm.sublist (by simp [Delivery.all]) rfl
  | lost a => exact hm.trans (List.sublist_append_left ..).subperm
  | @queued k q a _ hq =>
    obtain ⟨as, bs, hqs, _, hset⟩ := cut_of_getElem? hq
    have hperm : (m.taken ++ m.inbox ++ (as ++ (q ++ [a]) :: bs).flatten).Perm (m.all ++ [a]) := by
      rw [Delivery.all, hqs, List.append_assoc _ _ [a]]
      refine List.Perm.append_left _ ?_
      rw [List.flatten_append, List.flatten_append, List.flatten_cons, List.flatten_cons, List.append_assoc,
        List.append_assoc, List.append_assoc]
      exact (List.perm_append_comm.append_left q).append_left _
    rw [Kept, Delivery.all, hset]
    exact hperm.subperm.trans ((List.subperm_append_right [a]).mpr hm)
  | dropped hq => exact hm.sublist ((flatten_dropped hq).append_left _) rfl
  | @passed k a q hq =>
    obtain ⟨as, bs, hqs, _, hset⟩ := cut_of_getElem? hq
    have hperm : (m.taken ++ (m.inbox ++ [a]) ++ (as ++ q :: bs).flatten).Perm m.all := by
      rw [Delivery.all, hqs, List.append_assoc, List.append_assoc, List.append_assoc]
      refine (List.Perm.append_left _ ?_).append_left _
      rw [List.flatten_append, List.flatten_append, List.flatten_cons, List.flatten_cons, List.cons_append,
        List.nil_append, List.cons_append]
      exact List.perm_middle.symm
    rw [Kept, Delivery.all, hset]
    exact hperm.subperm.trans hm
  | taken ha => exact hm.sublist (by simp [Delivery.all, ha]) rfl
  | cleared =>
    refine hm.sublist ?_ rfl
    simp [Delivery.all]

/-- **Nothing is made up or there twice, whatever happens.** -/
theorem Kept.steps (hm : Kept m) (hs : Steps via loses m m') : Kept m' := by
  induction hs with
  | refl => exact hm
  | tail _ hs ih => exact ih.step hs

/-! ### One queue -/

theorem Only.set (ho : Only via m) {k : Nat} {q : List α} (hover : q ≠ [] → via k)
    (k' : Nat) (a : α) (r : List α) (hr : (m.queues.set k q)[k']? = some (a :: r)) : via k' := by
  rw [List.getElem?_set] at hr
  split at hr
  · next hk =>
    subst hk
    split at hr
    · refine hover ?_
      rw [Option.some.inj hr]
      exact List.cons_ne_nil a r
    · cases hr
  · exact ho k' a r hr

theorem Only.step (ho : Only via m) (hs : Step via loses m m') : Only via m' := by
  cases hs with
  | opened =>
    intro k a q hq
    rw [List.getElem?_append] at hq
    split at hq
    · exact ho k a q hq
    · simp [List.getElem?_singleton] at hq
  | queued a hk hq => exact ho.set fun _ => hk
  | dropped hq => exact ho.set fun _ => ho _ _ _ hq
  | passed hq => exact ho.set fun _ => ho _ _ _ hq
  | _ => exact ho

theorem Only.steps (ho : Only via m) (hs : Steps via loses m m') : Only via m' := by
  induction hs with
  | refl => exact ho
  | tail _ hs ih => exact ih.step hs

theorem Only.alone (hone : ∀ k k', via k → via k' → k = k') (ho : Only via m) {k : Nat} {q : List α}
    (hk : via k) (hq : m.queues[k]? = some q) :
    m.all = m.taken ++ m.inbox ++ q ∧ ∀ q', (m.queues.set k q').flatten = q' := by
  obtain ⟨as, bs, hqs, hlen, hset⟩ := cut_of_getElem? hq
  have hempty : ∀ n r, m.queues[n]? = some r → n ≠ k → r = [] := by
    intro n r hr hne
    cases r with
    | nil => rfl
    | cons a r => exact absurd (hone n k (ho n a r hr) hk) hne
  have has : as.flatten = [] := by
    refine List.flatten_eq_nil_iff.mpr fun r hr => ?_
    obtain ⟨n, hn, rfl⟩ := List.getElem_of_mem hr
    refine hempty n _ ?_ (by omega)
    rw [hqs, List.getElem?_append_left hn, List.getElem?_eq_getElem hn]
  have hbs : bs.flatten = [] := by
    refine List.flatten_eq_nil_iff.mpr fun r hr => ?_
    obtain ⟨n, hn, rfl⟩ := List.getElem_of_mem hr
    refine hempty (k + (n + 1)) _ ?_ (by omega)
    rw [hqs, ← hlen, List.getElem?_append_right (Nat.le_add_right ..), Nat.add_sub_cancel_left,
      List.getElem?_cons_succ, List.getElem?_eq_getElem hn]
  refine ⟨?_, fun q' => ?_⟩
  · rw [Delivery.all, hqs, List.flatten_append, List.flatten_cons, has, hbs, List.nil_append, List.append_nil]
  · rw [hset, List.flatten_append, List.flatten_cons, has, hbs, List.nil_append, List.append_nil]

/-- **One step where only one queue is used**: what there is grows by what is asked for, or
something is lost. -/
theorem Only.all_step (hone : ∀ k k', via k → via k' → k = k') (ho : Only via m) (hs : Step via loses m m') :
    (∃ new, m'.asked = m.asked ++ new ∧ m'.all = m.all ++ new) ∨
      loses ∧ m'.all.Sublist m.all ∧ m.asked.Sublist m'.asked := by
  cases hs with
  | opened => exact Or.inl ⟨[], by simp, by simp [Delivery.all]⟩
  | lost a hloses => exact Or.inr ⟨hloses, .refl _, List.sublist_append_left ..⟩
  | @queued k q a hk hq =>
    obtain ⟨hall, hset⟩ := ho.alone hone hk hq
    refine Or.inl ⟨[a], rfl, ?_⟩
    rw [hall, Delivery.all, hset, ← List.append_assoc]
  | dropped hq hloses => exact Or.inr ⟨hloses, (flatten_dropped hq).append_left _, .refl _⟩
  | @passed k a q hq =>
    obtain ⟨hall, hset⟩ := ho.alone hone (ho _ _ _ hq) hq
    refine Or.inl ⟨[], by simp, ?_⟩
    rw [hall, Delivery.all, hset]
    simp
  | taken ha => exact Or.inl ⟨[], by simp, by simp [Delivery.all, ha]⟩
  | cleared hloses => exact Or.inr ⟨hloses, by simp [Delivery.all], .refl _⟩

/-- **One step** keeps the order, where only one queue may be used. -/
theorem InOrder.step (hone : ∀ k k', via k → via k' → k = k') (hm : InOrder via m)
    (hs : Step via loses m m') : InOrder via m' := by
  refine ⟨?_, hm.only.step hs⟩
  rcases hm.only.all_step hone hs with ⟨new, hasked, hall⟩ | ⟨_, hall, hasked⟩
  · rw [hall, hasked]
    exact hm.sub.append_right new
  · exact (hall.trans hm.sub).trans hasked

/-- **Nothing is out of order where only one queue is used.** -/
theorem InOrder.steps (hone : ∀ k k', via k → via k' → k = k') (hm : InOrder via m)
    (hs : Steps via loses m m') : InOrder via m' := by
  induction hs with
  | refl => exact hm
  | tail _ hs ih => exact ih.step hone hs

/-- **One step** that loses nothing leaves all there. -/
theorem Whole.step (hone : ∀ k k', via k → via k' → k = k') (hloses : ¬ loses) (hm : Whole via m)
    (hs : Step via loses m m') : Whole via m' := by
  refine ⟨?_, hm.only.step hs⟩
  rcases hm.only.all_step hone hs with ⟨new, hasked, hall⟩ | ⟨h, _⟩
  · rw [hall, hasked, hm.all]
  · exact absurd h hloses

theorem Whole.steps (hone : ∀ k k', via k → via k' → k = k') (hloses : ¬ loses) (hm : Whole via m)
    (hs : Steps via loses m m') : Whole via m' := by
  induction hs with
  | refl => exact hm
  | tail _ hs ih => exact ih.step hone hloses hs

def empty : Delivery α := ⟨[], [], [], []⟩

theorem kept_empty : Kept (empty : Delivery α) := .refl []

theorem only_empty : Only via (empty : Delivery α) := fun k a q hq => by cases hq

theorem inOrder_empty : InOrder via (empty : Delivery α) := ⟨.refl [], only_empty⟩

theorem Kept.taken (hm : Kept m) : m.taken.Subperm m.asked := by
  have hsub : m.taken.Sublist m.all := by
    rw [Delivery.all, List.append_assoc]
    exact List.sublist_append_left ..
  exact hsub.subperm.trans hm

theorem InOrder.taken (hm : InOrder via m) : m.taken.Sublist m.asked := by
  refine List.Sublist.trans ?_ hm.sub
  rw [Delivery.all, List.append_assoc]
  exact List.sublist_append_left ..

end Delivery

end Blockcore.Lib
