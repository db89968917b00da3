import Mathlib.Data.List.Basic
import Mathlib.Data.List.Perm.Basic
import Mathlib.Data.List.TakeWhile
import Mathlib.Tactic

/-!
# Lists of objects found by a key

A list of objects in which the first match wins.  Where one party runs alone a
reference to an object is its place in the list: `firstMatch` returns both, and
`firstMatch_eq_some_iff` cuts the list there, which turns an assignment to the
object (`set`) and its removal (`eraseIdx`) into a change at the cut.
-/

namespace Blockcore.Lib

variable {α β : Type} {p : α → Bool}

/-- The first object that passes, with its place. -/
def firstMatch (p : α → Bool) (l : List α) : Option (α × Nat) := l.zipIdx.find? (fun x => p x.1)

theorem firstMatch_eq_some_iff {l : List α} {a : α} {i : Nat} : firstMatch p l = some (a, i) ↔
    ∃ as bs, l = as ++ a :: bs ∧ as.length = i ∧ p a = true ∧ ∀ x ∈ as, p x = false := by
  rw [firstMatch, List.find?_eq_some_iff_append]
  refine ⟨?_, ?_⟩
  · rintro ⟨ha, xs, ys, hl, hxs⟩
    obtain ⟨as, cs, rfl, rfl, hcs⟩ := List.zipIdx_eq_append_iff.mp hl
    obtain ⟨b, bs, rfl, hb, rfl⟩ := List.zipIdx_eq_cons_iff.mp hcs.symm
    obtain ⟨rfl, rfl⟩ := Prod.mk.inj hb
    refine ⟨as, bs, rfl, by omega, ha, fun x hx => ?_⟩
    obtain ⟨j, hj, rfl⟩ := List.getElem_of_mem hx
    simpa using hxs (as[j], j) (by rw [List.mem_zipIdx_iff_getElem?]; simp [hj])
  · rintro ⟨as, bs, rfl, rfl, ha, has⟩
    refine ⟨ha, as.zipIdx, bs.zipIdx (as.length + 1), ?_, ?_⟩
    · rw [List.zipIdx_append, List.zipIdx_cons, Nat.zero_add]
    · rintro ⟨x, j⟩ hx
      simpa using has x (List.fst_mem_of_mem_zipIdx hx)

theorem firstMatch_eq_none_iff {l : List α} : firstMatch p l = none ↔ ∀ x ∈ l, p x = false := by
  rw [firstMatch, List.find?_eq_none]
  refine ⟨?_, ?_⟩
  · intro h x hx
    obtain ⟨j, hj, rfl⟩ := List.getElem_of_mem hx
    simpa using h (l[j], j) (by rw [List.mem_zipIdx_iff_getElem?]; simp [hj])
  · rintro h ⟨x, j⟩ hx
    simpa using h x (List.fst_mem_of_mem_zipIdx hx)

theorem set_cut (as bs : List α) (a b : α) : (as ++ a :: bs).set as.length b = as ++ b :: bs := by
  simp

theorem eraseIdx_cut (as bs : List α) (a : α) : (as ++ a :: bs).eraseIdx as.length = as ++ bs := by
  rw [List.eraseIdx_append_of_length_le (Nat.le_refl _), Nat.sub_self, List.eraseIdx_cons_zero]

theorem countP_eraseIdx {l : List α} {k : Nat} {a : α} (ha : l[k]? = some a) (p : α → Bool) :
    (l.eraseIdx k).countP p + (if p a then 1 else 0) = l.countP p := by
  obtain ⟨hk, rfl⟩ := List.getElem?_eq_some_iff.mp ha
  rw [← (List.getElem_cons_eraseIdx_perm hk).countP_eq p, List.countP_cons]

theorem exists_of_forall₂ {β : Type} {R : α → β → Prop} {l : List α} {l' : List β}
    (h : List.Forall₂ R l l') {b : β} (hb : b ∈ l') : ∃ a ∈ l, R a b := by
  induction h with
  | nil => cases hb
  | cons hab _ ih =>
    rcases List.mem_cons.mp hb with rfl | hb
    · exact ⟨_, List.mem_cons_self .., hab⟩
    · obtain ⟨a, ha, hr⟩ := ih hb
      exact ⟨a, List.mem_cons_of_mem _ ha, hr⟩

/-- The list cut where the first match is, or would be added: `found` is the
match, if there is one, and then nothing follows. -/
structure CutAt (p : α → Bool) (l : List α) (before : List α) (found : Option α) (after : List α) :
    Prop where
  eq : l = before ++ (found.toList ++ after)
  matches_found : ∀ a ∈ found, p a = true
  not_before : ∀ a ∈ before, p a = false
  at_end : found = none → after = []

theorem cutAt_of_some {l : List α} {a : α} {i : Nat} (h : firstMatch p l = some (a, i)) :
    ∃ as bs, CutAt p l as (some a) bs ∧ as.length = i := by
  obtain ⟨as, bs, hl, hi, ha, has⟩ := firstMatch_eq_some_iff.mp h
  exact ⟨as, bs, ⟨hl, by simpa using ha, has, by simp⟩, hi⟩

theorem cutAt_of_none {l : List α} (h : firstMatch p l = none) : CutAt p l l none [] :=
  ⟨by simp, by simp, firstMatch_eq_none_iff.mp h, fun _ => rfl⟩

variable {l before after : List α} {found : Option α}

theorem CutAt.firstMatch_eq (h : CutAt p l before found after) :
    firstMatch p l = found.map (fun a => (a, before.length)) := by
  cases found with
  | none =>
    have hl : l = before := by rw [h.eq, h.at_end rfl]; simp
    rw [hl]
    exact firstMatch_eq_none_iff.mpr h.not_before
  | some a =>
    exact firstMatch_eq_some_iff.mpr ⟨before, after, h.eq, rfl, h.matches_found a rfl, h.not_before⟩

theorem CutAt.sublist (h : CutAt p l before found after) : (before ++ after).Sublist l := by
  rw [h.eq]
  exact (List.Sublist.refl before).append (List.sublist_append_right found.toList after)

theorem CutAt.mem_of_before (h : CutAt p l before found after) {a : α} (ha : a ∈ before) : a ∈ l :=
  h.sublist.subset (List.mem_append_left after ha)

theorem CutAt.mem_of_after (h : CutAt p l before found after) {a : α} (ha : a ∈ after) : a ∈ l :=
  h.sublist.subset (List.mem_append_right before ha)

theorem CutAt.mem_of_found (h : CutAt p l before found after) {a : α} (ha : a ∈ found) : a ∈ l := by
  rw [h.eq]
  exact List.mem_append_right before (List.mem_append_left after (Option.mem_toList.mpr ha))

theorem CutAt.unique {before' after' : List α} {found' : Option α} (h : CutAt p l before found after)
    (h' : CutAt p l before' found' after') : before' = before ∧ found' = found ∧ after' = after := by
  have hf := h.firstMatch_eq.symm.trans h'.firstMatch_eq
  have heq := h.eq.symm.trans h'.eq
  cases found with
  | none =>
    cases found' with
    | none =>
      rw [h.at_end rfl, h'.at_end rfl] at heq ⊢
      exact ⟨by simpa using heq.symm, rfl, rfl⟩
    | some a' => cases hf
  | some a =>
    cases found' with
    | none => cases hf
    | some a' =>
      obtain ⟨ha, hlen⟩ := Prod.mk.inj (Option.some.inj hf)
      obtain ⟨hbefore, hrest⟩ := List.append_inj heq hlen
      exact ⟨hbefore.symm, congrArg some ha.symm, (List.cons.inj hrest).2.symm⟩

theorem CutAt.key_found {κ : Type} [BEq κ] [LawfulBEq κ] {f : α → κ} {k : κ}
    (h : CutAt (fun x => f x == k) l before found after) : ∀ a ∈ found, f a = k :=
  fun a ha => beq_iff_eq.mp (h.matches_found a ha)

theorem CutAt.nodup {κ : Type} [BEq κ] [LawfulBEq κ] {f : α → κ} {k : κ}
    (h : CutAt (fun x => f x == k) l before found after) {a : α} (ha : f a = k)
    (hl : (l.map f).Nodup) : ((before ++ a :: after).map f).Nodup := by
  rw [h.eq] at hl
  cases found with
  | some b =>
    have hb : f b = k := h.key_found b rfl
    simpa [ha, hb] using hl
  | none =>
    rw [h.at_end rfl] at hl ⊢
    have hbefore : ∀ x ∈ before, f x ≠ k := fun x hx => by simpa using h.not_before x hx
    rw [List.map_append, List.nodup_append]
    refine ⟨by simpa using hl, by simp, fun i hi j hj hij => ?_⟩
    obtain ⟨x, hx, rfl⟩ := List.mem_map.mp hi
    exact hbefore x hx ((hij.trans (List.mem_singleton.mp hj)).trans ha)

end Blockcore.Lib
