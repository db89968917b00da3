import Mathlib.Data.List.Basic
import Mathlib.Tactic

/-!
# Runs of a step function

A step function takes a state and a label and is undefined where the label
cannot happen.  `Reaches step meets s₀ ls s` says that the labels `ls` lead from
`s₀` to `s`, and that each of them met a condition in the state it happened in;
where no condition is asked for, `Run` is the same with none.

`Reaches.inv` is the rule for invariants.  The invariant may speak of the labels
so far, and a step may use the condition it met.  `run_all_iff` says when a property
holds all along a run; where every step is defined, so do `prefixes_all_iff`,
`foldl_all_iff` and `allSteps_iff`.  Two systems that take the same labels are compared
step by step (`Matches`), and then run by run.
-/

namespace Blockcore.Lib

variable {σ l : Type}

/-- The labels lead from `s₀` to the state, each meeting the condition. -/
inductive Reaches (step : σ → l → Option σ) (meets : σ → l → Prop) (s₀ : σ) : List l → σ → Prop where
  | start : Reaches step meets s₀ [] s₀
  | step {ls : List l} {s s' : σ} {a : l} : Reaches step meets s₀ ls s → meets s a →
      step s a = some s' → Reaches step meets s₀ (ls ++ [a]) s'

/-- The labels lead from one state to the other. -/
def Run (step : σ → l → Option σ) (s₀ : σ) : List l → σ → Prop := Reaches step (fun _ _ => True) s₀

section

variable {step : σ → l → Option σ} {meets : σ → l → Prop} {s₀ : σ}

/-- **An invariant that every step keeps holds in every state reached.** -/
theorem Reaches.inv {P : List l → σ → Prop} (h0 : P [] s₀)
    (hstep : ∀ ls s a s', P ls s → meets s a → step s a = some s' → P (ls ++ [a]) s') {ls : List l}
    {s : σ} (h : Reaches step meets s₀ ls s) : P ls s := by
  induction h with
  | start => exact h0
  | step _ hm hs ih => exact hstep _ _ _ _ ih hm hs

theorem Reaches.mono_mem {meets' : σ → l → Prop} {ls : List l} {s : σ}
    (h : Reaches step meets s₀ ls s) (hmono : ∀ s, ∀ a ∈ ls, meets s a → meets' s a) :
    Reaches step meets' s₀ ls s := by
  induction h with
  | start => exact .start
  | step _ hm hs ih =>
    have hlast := hmono _ _ (List.mem_append_right _ (List.mem_singleton_self _)) hm
    exact .step (ih fun s a ha => hmono s a (List.mem_append_left _ ha)) hlast hs

theorem Reaches.mono {meets' : σ → l → Prop} (hmono : ∀ s a, meets s a → meets' s a) {ls : List l}
    {s : σ} (h : Reaches step meets s₀ ls s) : Reaches step meets' s₀ ls s :=
  h.mono_mem fun s a _ => hmono s a

end

theorem Reaches.concat_inv {step : σ → l → Option σ} {meets : σ → l → Prop} {s₀ s : σ} {ls : List l}
    {a : l} (h : Reaches step meets s₀ (ls ++ [a]) s) :
    ∃ t, Reaches step meets s₀ ls t ∧ meets t a ∧ step t a = some s := by
  generalize hls : ls ++ [a] = ls' at h
  cases h with
  | start => simp at hls
  | step ht hm hs =>
    obtain ⟨rfl, heq⟩ := List.append_inj' hls rfl
    cases heq
    exact ⟨_, ht, hm, hs⟩

theorem Reaches.split {step : σ → l → Option σ} {meets : σ → l → Prop} {s₀ s : σ} {ls more : List l}
    (h : Reaches step meets s₀ (ls ++ more) s) :
    ∃ t, Reaches step meets s₀ ls t ∧ Reaches step meets t more s := by
  induction more using List.reverseRecOn generalizing s with
  | nil =>
    rw [List.append_nil] at h
    exact ⟨s, h, .start⟩
  | append_singleton more a ih =>
    rw [← List.append_assoc] at h
    obtain ⟨u, hu, hm, hs⟩ := h.concat_inv
    obtain ⟨t, ht, hmore⟩ := ih hu
    exact ⟨t, ht, .step hmore hm hs⟩

theorem Reaches.unique {step : σ → l → Option σ} {meets meets' : σ → l → Prop} {s₀ s t : σ}
    {ls : List l} (hs : Reaches step meets s₀ ls s) (ht : Reaches step meets' s₀ ls t) : s = t := by
  induction hs generalizing t with
  | start =>
    generalize hls : ([] : List l) = ls' at ht
    cases ht with
    | start => rfl
    | step => simp at hls
  | step _ _ hs ih =>
    obtain ⟨t', ht', _, hst⟩ := ht.concat_inv
    rw [← ih ht', hs] at hst
    exact Option.some.inj hst

theorem Run.nil_inv {step : σ → l → Option σ} {s₀ s : σ} (h : Run step s₀ [] s) : s = s₀ :=
  h.unique (.start : Run step s₀ [] s₀)

/-- The condition is met in every state that the first of the labels lead to. -/
def Along (step : σ → l → Option σ) (meets : σ → l → Prop) (s₀ : σ) (ls : List l) : Prop :=
  ∀ done a s, done ++ [a] <+: ls → Run step s₀ done s → meets s a

theorem Along.init {step : σ → l → Option σ} {meets : σ → l → Prop} {s₀ : σ} {ls : List l} {a : l}
    (h : Along step meets s₀ (ls ++ [a])) : Along step meets s₀ ls :=
  fun done b s hpre => h done b s (hpre.trans (List.prefix_append ..))

theorem Along.last {step : σ → l → Option σ} {meets : σ → l → Prop} {s₀ s : σ} {ls : List l} {a : l}
    (h : Along step meets s₀ (ls ++ [a])) (hs : Run step s₀ ls s) : meets s a :=
  h ls a s (List.prefix_refl _) hs

theorem Reaches.along {step : σ → l → Option σ} {meets : σ → l → Prop} {s₀ s : σ} {ls : List l}
    (h : Reaches step meets s₀ ls s) : Along step meets s₀ ls := by
  rintro done a t ⟨after, rfl⟩ ht
  obtain ⟨u, hu, _⟩ := h.split
  obtain ⟨v, hv, hm, _⟩ := hu.concat_inv
  rw [ht.unique hv]
  exact hm

/-- **A property that each step keeps exactly if it meets a condition** holds in every
state of a run exactly if every step of it meets the condition. -/
theorem run_all_iff {step : σ → l → Option σ} {meets : σ → l → Prop} {Q : σ → Prop} {s₀ : σ}
    (hQ : ∀ s a s', Q s → step s a = some s' → (Q s' ↔ meets s a)) (hQ₀ : Q s₀) {ls : List l}
    {s : σ} (h : Run step s₀ ls s) :
    (∀ done t, done <+: ls → Run step s₀ done t → Q t) ↔ Reaches step meets s₀ ls s := by
  unfold Run at h
  induction h with
  | start =>
    refine ⟨fun _ => .start, fun _ done t hpre ht => ?_⟩
    obtain rfl := List.prefix_nil.mp hpre
    rw [Run.nil_inv ht]
    exact hQ₀
  | @step ls s s' a hs _ hstep ih =>
    have hrun' : Run step s₀ (ls ++ [a]) s' := .step hs trivial hstep
    refine ⟨?_, ?_⟩
    · intro hall
      have hall' : ∀ done t, done <+: ls → Run step s₀ done t → Q t :=
        fun done t hpre => hall done t (hpre.trans (List.prefix_append ..))
      have hm := (hQ s a s' (hall' ls s (List.prefix_refl ls) hs) hstep).mp
        (hall _ s' (List.prefix_refl _) hrun')
      exact (ih.mp hall').step hm hstep
    · intro hreaches done t hpre ht
      obtain ⟨t', ht', hm, _⟩ := hreaches.concat_inv
      obtain rfl := ht'.unique hs
      have hall := ih.mpr ht'
      rcases List.prefix_concat_iff.mp hpre with rfl | hpre
      · rw [ht.unique hrun']
        exact (hQ _ a s' (hall ls _ (List.prefix_refl ls) hs) hstep).mpr hm
      · exact hall done t hpre ht

/-- **A property that a step leaves there exactly if it was there and the step meets a
condition** holds after a run exactly if every step of it met the condition. -/
theorem run_iff_reaches {step : σ → l → Option σ} {meets : σ → l → Prop} {Q : σ → Prop} {s₀ : σ}
    (hQ : ∀ s a s', step s a = some s' → (Q s' ↔ Q s ∧ meets s a)) (hQ₀ : Q s₀) {ls : List l}
    {s : σ} (h : Run step s₀ ls s) : Q s ↔ Reaches step meets s₀ ls s := by
  refine Iff.trans ⟨fun hq => ?_, fun hall => hall ls s (List.prefix_refl ls) h⟩
    (run_all_iff (fun s a s' hq hs => (hQ s a s' hs).trans (and_iff_right hq)) hQ₀ h)
  unfold Run at h
  induction h with
  | start =>
    intro done t hpre ht
    obtain rfl := List.prefix_nil.mp hpre
    rw [Run.nil_inv ht]
    exact hQ₀
  | @step ls s s' a hs _ hstep ih =>
    intro done t hpre ht
    rcases List.prefix_concat_iff.mp hpre with rfl | hpre
    · rw [ht.unique (.step hs trivial hstep : Run step s₀ _ _)]
      exact hq
    · exact ih ((hQ s a s' hstep).mp hq).1 done t hpre ht

theorem concat_prefix_iff {P : List l → l → Prop} {ls : List l} :
    (∀ done a, done ++ [a] <+: ls → P done a) ↔ ∀ k (hk : k < ls.length), P (ls.take k) ls[k] := by
  refine ⟨?_, ?_⟩
  · intro h k hk
    refine h _ _ ?_
    rw [List.take_concat_get' ls k hk]
    exact List.take_prefix ..
  · rintro h done a ⟨after, rfl⟩
    have hk := h done.length (by simp)
    simpa using hk

/-- **A property of what has happened that each step keeps exactly if it meets a
condition** holds all along exactly if every step meets it.  The invariant holds anyway. -/
theorem prefixes_all_iff {I Q : List l → Prop} (arises : List l → l → Prop) {meets : List l → l → Prop}
    (hI : ∀ done a, arises done a → I done → I (done ++ [a]))
    (hQ : ∀ done a, arises done a → I done → Q done → (Q (done ++ [a]) ↔ meets done a))
    (hI₀ : I []) (hQ₀ : Q []) {ls : List l} (harises : ∀ done a, done ++ [a] <+: ls → arises done a) :
    (∀ done, done <+: ls → Q done) ↔ ∀ done a, done ++ [a] <+: ls → meets done a := by
  have hearlier : ∀ {done : List l} {a : l}, done ++ [a] <+: ls → done <+: ls :=
    fun h => (List.prefix_append ..).trans h
  have hinv : ∀ done, done <+: ls → I done := by
    intro done
    induction done using List.reverseRecOn with
    | nil => exact fun _ => hI₀
    | append_singleton done a ih => exact fun hpre => hI done a (harises _ _ hpre) (ih (hearlier hpre))
  have hstep : ∀ done a, done ++ [a] <+: ls → Q done → (Q (done ++ [a]) ↔ meets done a) :=
    fun done a hpre => hQ done a (harises _ _ hpre) (hinv _ (hearlier hpre))
  refine ⟨?_, ?_⟩
  · intro h done a hpre
    exact (hstep done a hpre (h done (hearlier hpre))).mp (h _ hpre)
  · intro h done
    induction done using List.reverseRecOn with
    | nil => exact fun _ => hQ₀
    | append_singleton done a ih =>
      intro hpre
      exact (hstep done a hpre (ih (hearlier hpre))).mpr (h done a hpre)

/-- **A property that each step keeps exactly if it meets a condition** holds all along
a run exactly if every step meets it. -/
theorem foldl_all_iff {step : σ → l → σ} {I Q : σ → Prop} {meets : σ → l → Prop}
    (hI : ∀ s a, I s → I (step s a)) (hQ : ∀ s a, I s → Q s → (Q (step s a) ↔ meets s a)) {s₀ : σ}
    (hI₀ : I s₀) (hQ₀ : Q s₀) (ls : List l) :
    (∀ done, done <+: ls → Q (done.foldl step s₀)) ↔
      ∀ done a, done ++ [a] <+: ls → meets (done.foldl step s₀) a := by
  refine prefixes_all_iff (I := fun done => I (done.foldl step s₀)) (fun _ _ => True)
    (fun done a _ h => ?_) (fun done a _ h hq => ?_) hI₀ hQ₀ (fun _ _ _ => trivial)
  · rw [List.foldl_concat]
    exact hI _ a h
  · rw [List.foldl_concat]
    exact hQ _ a h hq

/-- What is seen along the labels, of each in the state it happens in. -/
def trace {o : Type} (step : σ → l → Option σ) (observe : σ → l → List o) : σ → List l → List o
  | _, [] => []
  | s, a :: ls =>
    match step s a with
    | none => []
    | some s' => observe s a ++ trace step observe s' ls

theorem trace_append {o : Type} {step : σ → l → Option σ} (observe : σ → l → List o) {s₀ s : σ}
    {ls : List l} (h : Run step s₀ ls s) (more : List l) :
    trace step observe s₀ (ls ++ more) = trace step observe s₀ ls ++ trace step observe s more := by
  unfold Run at h
  induction h generalizing more with
  | start => rfl
  | @step ls s s' a _ _ hs ih =>
    have hone : ∀ more, trace step observe s (a :: more) = observe s a ++ trace step observe s' more := by
      intro more
      rw [trace, hs]
    rw [List.append_assoc, ih, ih [a], List.singleton_append, hone, hone, trace, List.append_nil,
      List.append_assoc]

theorem trace_concat {o : Type} {step : σ → l → Option σ} (observe : σ → l → List o) {s₀ s s' : σ}
    {ls : List l} {a : l} (h : Run step s₀ ls s) (hs : step s a = some s') :
    trace step observe s₀ (ls ++ [a]) = trace step observe s₀ ls ++ observe s a := by
  rw [trace_append observe h, trace, hs]
  exact congrArg _ (List.append_nil _)

def AllSteps (step : σ → l → σ) (P : σ → l → Prop) : σ → List l → Prop
  | _, [] => True
  | s, a :: ls => P s a ∧ AllSteps step P (step s a) ls

/-- **A property of steps and the condition for it**, where the invariant that makes the
one follow from the other is itself kept by the steps that meet the condition. -/
theorem allSteps_iff {step : σ → l → σ} {I : σ → Prop} {arises holds meets : σ → l → Prop}
    (hiff : ∀ s a, I s → arises s a → (holds s a ↔ meets s a))
    (hI : ∀ s a, I s → arises s a → meets s a → I (step s a)) :
    ∀ {ls : List l} {s : σ}, I s → AllSteps step arises s ls →
      (AllSteps step holds s ls ↔ AllSteps step meets s ls) := by
  intro ls
  induction ls with
  | nil => exact fun _ _ => Iff.rfl
  | cons a ls ih =>
    intro s hs harises
    obtain ⟨ha, hrest⟩ := harises
    have hlater : meets s a → (AllSteps step holds (step s a) ls ↔ AllSteps step meets (step s a) ls) :=
      fun hm => ih (hI s a hs ha hm) hrest
    refine ⟨?_, ?_⟩
    · rintro ⟨hh, hall⟩
      have hm := (hiff s a hs ha).mp hh
      exact ⟨hm, (hlater hm).mp hall⟩
    · rintro ⟨hm, hall⟩
      exact ⟨(hiff s a hs ha).mpr hm, (hlater hm).mpr hall⟩

/-- The state after the labels, if they can happen one after another. -/
def exec (step : σ → l → Option σ) : σ → List l → Option σ
  | s, [] => some s
  | s, a :: ls => (step s a).bind fun s => exec step s ls

theorem exec_cons {step : σ → l → Option σ} {s s' : σ} {a : l} (h : step s a = some s')
    (ls : List l) : exec step s (a :: ls) = exec step s' ls := by
  rw [exec, h, Option.bind_some]

theorem exec_append (step : σ → l → Option σ) (s : σ) (ls more : List l) :
    exec step s (ls ++ more) = (exec step s ls).bind fun s' => exec step s' more := by
  induction ls generalizing s with
  | nil => rfl
  | cons a ls ih =>
    rw [List.cons_append, exec, exec, Option.bind_assoc]
    exact congrArg _ (funext ih)

theorem reaches_of_exec {step : σ → l → Option σ} {meets : σ → l → Prop}
    [∀ s a, Decidable (meets s a)] {s₀ s : σ} {ls : List l}
    (h : exec (fun s a => if meets s a then step s a else none) s₀ ls = some s) :
    Reaches step meets s₀ ls s := by
  suffices key : ∀ ls' done t, Reaches step meets s₀ done t →
      exec (fun s a => if meets s a then step s a else none) t ls' = some s →
      Reaches step meets s₀ (done ++ ls') s from key ls [] s₀ .start h
  intro ls'
  induction ls' with
  | nil =>
    intro done t hrun ht
    rw [List.append_nil]
    exact Option.some.inj ht ▸ hrun
  | cons a ls' ih =>
    intro done t hrun ht
    rw [exec] at ht
    by_cases hm : meets t a
    · rw [if_pos hm] at ht
      obtain ⟨t', hs, ht⟩ := Option.bind_eq_some_iff.mp ht
      have := ih (done ++ [a]) t' (.step hrun hm hs) ht
      rwa [List.append_assoc] at this
    · rw [if_neg hm] at ht
      cases ht

theorem run_of_exec {step : σ → l → Option σ} {s₀ s : σ} {ls : List l}
    (h : exec step s₀ ls = some s) : Run step s₀ ls s := by
  refine reaches_of_exec ?_
  simpa using h

/-! ### Two systems, step by step -/

section

variable {τ : Type} {R : σ → τ → Prop} {beyond : τ → Prop} {step : σ → l → Option σ}
  {step' : τ → l → Option τ} {meets : σ → l → Prop} {s₀ : σ} {t₀ : τ} {ls : List l}

/-- What one label does to two related systems: neither takes it; or both do, and stay related; or
only the second does, and comes to a state that is beyond the first. -/
inductive Matches (R : σ → τ → Prop) (beyond : τ → Prop) : Option σ → Option τ → Prop where
  | neither : Matches R beyond none none
  | both {s : σ} {t : τ} (h : R s t) : Matches R beyond (some s) (some t)
  | beyond {t : τ} (h : beyond t) : Matches R beyond none (some t)

/-- **A run of the first system is one of the second**, and stays within its reach. -/
theorem Reaches.matched (hstep : ∀ s t a, R s t → meets s a → Matches R beyond (step s a) (step' t a))
    (h₀ : R s₀ t₀) {s : σ} (h : Reaches step meets s₀ ls s) :
    ∃ t, Reaches step' (fun t a => ∀ t', step' t a = some t' → ∃ s, R s t') t₀ ls t ∧ R s t := by
  induction h with
  | start => exact ⟨t₀, .start, h₀⟩
  | @step ls s s' a _ hm hs ih =>
    obtain ⟨t, ht, hR⟩ := ih
    have hmatch := hstep s t a hR hm
    rw [hs] at hmatch
    generalize htt : step' t a = o at hmatch
    cases hmatch with
    | @both _ t' hR' =>
      refine ⟨t', .step ht (fun u hu => ?_) htt, hR'⟩
      rw [htt] at hu
      exact ⟨s', Option.some.inj hu ▸ hR'⟩

/-- **A run of the second system is one of the first**, if it stays within its reach, and all along
meets what the first asks for. -/
theorem Reaches.matching {fits : σ → l → Prop} (meets' : τ → l → Prop)
    (hstep : ∀ s t a, R s t → meets s a → Matches R beyond (step s a) (step' t a))
    (hmeets : ∀ s t a, R s t → meets' t a → fits s a → meets s a) (h₀ : R s₀ t₀) {t : τ}
    (h : Reaches step' (fun t a => meets' t a ∧ ∀ t', step' t a = some t' → ¬ beyond t') t₀ ls t)
    (hfits : Along step fits s₀ ls) : ∃ s, Reaches step meets s₀ ls s ∧ R s t := by
  induction h with
  | start => exact ⟨s₀, .start, h₀⟩
  | @step ls t t' a _ hm ht ih =>
    obtain ⟨s, hs, hR⟩ := ih hfits.init
    have hmeet := hmeets s t a hR hm.1 (hfits.last (hs.mono fun _ _ _ => trivial))
    have hmatch := hstep s t a hR hmeet
    rw [ht] at hmatch
    generalize hss : step s a = o at hmatch
    cases hmatch with
    | both hR' => exact ⟨_, .step hs hmeet hss, hR'⟩
    | beyond hb => exact absurd hb (hm.2 _ ht)

end

end Blockcore.Lib
