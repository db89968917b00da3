import Blockcore.Lib.Registry
import Blockcore.Lib.Runs

/-!
# Polling

`ExplorerComponent` downloads the info and the latest blocks whenever the chain is set, and each of
the two again 15 seconds after it was answered, whether the download failed or not.  It remembers
the timer it set last for each, and clears the two when it is destroyed.

`alive_run` counts: each is polled once for every time the chain was set, all at the same time.  So
`polling_ends_iff` says when polling ends with the component: if the chain was set once, and nothing was
being downloaded just then.  Otherwise it never does.

What is shown of the answers is left out.
-/

namespace Blockcore.ClientApp.Polling

open Lib

inductive Feed where
  | info
  | blocks
  deriving DecidableEq

/-- A download under way: of `updateInfo`, which `updateBlocks` comes after where the chain was set,
or of `updateBlocks`. -/
inductive Download where
  | chainInfo
  | info
  | blocks
  deriving DecidableEq

/-- `ExplorerComponent`: whether it is subscribed to the chain, its downloads, and the timers that
are set, with the two it remembers. -/
structure ExplorerComponent where
  subscribed : Bool
  downloads : List Download
  timers : List (Nat × Feed)
  nextTimer : Nat
  timerInfo : Option Nat
  timerBlocks : Option Nat

/-- What happens: the chain is set; a download is answered, or fails; a timer fires; the component is
destroyed. -/
inductive Label where
  | chain
  | answer (k : Nat)
  | fire (k : Nat)
  | destroy
  deriving DecidableEq

namespace ExplorerComponent

/-- `setTimeout`, of either. -/
def setTimeout (feed : Feed) (c : ExplorerComponent) : ExplorerComponent :=
  let timer := c.nextTimer
  let c := { c with timers := c.timers ++ [(timer, feed)], nextTimer := timer + 1 }
  match feed with
  | .info => { c with timerInfo := some timer }
  | .blocks => { c with timerBlocks := some timer }

/-- `clearTimeout`; there may be no such timer. -/
def clearTimeout (timer : Option Nat) (c : ExplorerComponent) : ExplorerComponent :=
  { c with timers := c.timers.filter fun t => some t.1 != timer }

/-- `updateInfo` or `updateBlocks`, up to its download. -/
def update (download : Download) (c : ExplorerComponent) : ExplorerComponent :=
  { c with downloads := c.downloads ++ [download] }

def updated (download : Download) (c : ExplorerComponent) : ExplorerComponent :=
  match download with
  | .chainInfo => (c.setTimeout .info).update .blocks
  | .info => c.setTimeout .info
  | .blocks => c.setTimeout .blocks

/-- `ngOnDestroy`. -/
def ngOnDestroy (c : ExplorerComponent) : ExplorerComponent :=
  { (c.clearTimeout c.timerInfo).clearTimeout c.timerBlocks with subscribed := false }

/-- The constructor subscribes to a subject that has a chain. -/
def start : ExplorerComponent := update .chainInfo ⟨true, [], [], 0, none, none⟩

end ExplorerComponent

def Feed.download : Feed → Download
  | .info => .info
  | .blocks => .blocks

def step (c : ExplorerComponent) : Label → Option ExplorerComponent
  | .chain => if c.subscribed then some (c.update .chainInfo) else none
  | .answer k =>
    match c.downloads[k]? with
    | none => none
    | some download => some ({ c with downloads := c.downloads.eraseIdx k }.updated download)
  | .fire k =>
    match c.timers[k]? with
    | none => none
    | some timer => some ({ c with timers := c.timers.eraseIdx k }.update timer.2.download)
  | .destroy => if c.subscribed then some c.ngOnDestroy else none

/-! ### How often each is polled -/

/-- The download is the feed's, or leads to one. -/
def Download.polls (feed : Feed) : Download → Bool
  | .chainInfo => true
  | .info => feed == .info
  | .blocks => feed == .blocks

def ExplorerComponent.polls (c : ExplorerComponent) (feed : Feed) : Nat :=
  c.downloads.countP (·.polls feed) + c.timers.countP (·.2 == feed)

variable {c c' : ExplorerComponent} {ls : List Label}

theorem polls_update (download : Download) (c : ExplorerComponent) (feed : Feed) :
    (c.update download).polls feed = c.polls feed + if download.polls feed then 1 else 0 := by
  simp only [ExplorerComponent.polls, ExplorerComponent.update, List.countP_append, List.countP_singleton]
  omega

theorem polls_setTimeout (feed' : Feed) (c : ExplorerComponent) (feed : Feed) :
    (c.setTimeout feed').polls feed = c.polls feed + if feed' = feed then 1 else 0 := by
  cases feed' <;> cases feed <;>
    simp [ExplorerComponent.polls, ExplorerComponent.setTimeout, List.countP_append] <;> omega

theorem polls_updated (download : Download) (c : ExplorerComponent) (feed : Feed) :
    (c.updated download).polls feed = c.polls feed + if download.polls feed then 1 else 0 := by
  cases download <;> cases feed <;>
    simp [ExplorerComponent.updated, polls_update, polls_setTimeout, Download.polls]

/-- **Neither an answer nor a timer** makes a feed polled more or less often. -/
theorem step_polls {l : Label} (hchain : l ≠ .chain) (hdestroy : l ≠ .destroy) (h : step c l = some c')
    (feed : Feed) : c'.polls feed = c.polls feed := by
  cases l with
  | chain => exact absurd rfl hchain
  | destroy => exact absurd rfl hdestroy
  | answer k =>
    rw [step] at h
    cases hd : c.downloads[k]? with
    | none => rw [hd] at h; cases h
    | some download =>
      rw [hd] at h
      obtain rfl := Option.some.inj h
      have hcount := countP_eraseIdx hd (·.polls feed)
      rw [polls_updated]
      simp only [ExplorerComponent.polls]
      omega
  | fire k =>
    rw [step] at h
    cases ht : c.timers[k]? with
    | none => rw [ht] at h; cases h
    | some timer =>
      rw [ht] at h
      obtain rfl := Option.some.inj h
      have hcount := countP_eraseIdx ht (·.2 == feed)
      have hsame : timer.2.download.polls feed = (timer.2 == feed) := by
        cases timer.2 <;> cases feed <;> rfl
      rw [polls_update, hsame]
      simp only [ExplorerComponent.polls]
      omega

theorem step_chain (h : step c .chain = some c') : c' = c.update .chainInfo := by
  rw [step] at h
  split at h
  · exact (Option.some.inj h).symm
  · cases h

theorem step_destroy (h : step c .destroy = some c') : c.subscribed = true ∧ c' = c.ngOnDestroy := by
  rw [step] at h
  split at h
  · next hsub => exact ⟨hsub, (Option.some.inj h).symm⟩
  · cases h

theorem run_destroy (h : Run step c [.destroy] c') : c.subscribed = true ∧ c' = c.ngOnDestroy := by
  have h : Run step c ([] ++ [Label.destroy]) c' := h
  obtain ⟨u, hu, _, hs⟩ := h.concat_inv
  obtain rfl := Run.nil_inv hu
  exact step_destroy hs

/-! ### Before it is destroyed -/

def ExplorerComponent.last (c : ExplorerComponent) : Feed → Option Nat
  | .info => c.timerInfo
  | .blocks => c.timerBlocks

/-- Timers are numbered as they are set. -/
structure Numbered (c : ExplorerComponent) : Prop where
  older : ∀ t ∈ c.timers, t.1 < c.nextTimer
  nodup : (c.timers.map Prod.fst).Nodup

theorem Numbered.sublist (hc : Numbered c) (hsub : c'.timers.Sublist c.timers)
    (hnext : c'.nextTimer = c.nextTimer) : Numbered c' := by
  refine ⟨fun t ht => ?_, hc.nodup.sublist (hsub.map _)⟩
  rw [hnext]
  exact hc.older t (hsub.subset ht)

theorem setTimeout_timers (feed : Feed) (c : ExplorerComponent) :
    (c.setTimeout feed).timers = c.timers ++ [(c.nextTimer, feed)] := by
  cases feed <;> rfl

theorem Numbered.setTimeout (hc : Numbered c) (feed : Feed) : Numbered (c.setTimeout feed) := by
  have hnext : (c.setTimeout feed).nextTimer = c.nextTimer + 1 := by cases feed <;> rfl
  refine ⟨fun t ht => ?_, ?_⟩
  · rw [hnext]
    rw [setTimeout_timers] at ht
    rcases List.mem_append.mp ht with ht | ht
    · exact Nat.lt_succ_of_lt (hc.older t ht)
    · rw [List.mem_singleton.mp ht]
      exact Nat.lt_succ_self _
  · rw [setTimeout_timers, List.map_append, List.nodup_append]
    refine ⟨hc.nodup, List.nodup_singleton _, fun i hi j hj => ?_⟩
    obtain ⟨t, ht, rfl⟩ := List.mem_map.mp hi
    have hold := hc.older t ht
    rw [List.map_singleton, List.mem_singleton] at hj
    omega

theorem Numbered.updated (hc : Numbered c) (download : Download) : Numbered (c.updated download) := by
  cases download with
  | chainInfo => exact ⟨(hc.setTimeout .info).older, (hc.setTimeout .info).nodup⟩
  | info => exact hc.setTimeout .info
  | blocks => exact hc.setTimeout .blocks

/-- The feed whose timer is set when the download was answered. -/
def Download.feed : Download → Feed
  | .chainInfo => .info
  | .info => .info
  | .blocks => .blocks

/-- A component that is not destroyed, after the chain was set `n` times more. -/
structure Alive (n : Nat) (c : ExplorerComponent) : Prop where
  polls : ∀ feed, c.polls feed = 1 + n
  numbered : Numbered c
  last : n = 0 → ∀ t ∈ c.timers, c.last t.2 = some t.1

theorem alive_start : Alive 0 .start := by
  refine ⟨fun feed => ?_, ⟨fun t ht => ?_, List.nodup_nil⟩, fun _ t ht => ?_⟩
  · cases feed <;> rfl
  · cases ht
  · cases ht

theorem Alive.no_timer (ha : Alive 0 c) {k : Nat} {download : Download} (hd : c.downloads[k]? = some download) :
    ∀ t ∈ c.timers, t.2 ≠ download.feed := by
  intro t ht hfeed
  have hpolls := ha.polls download.feed
  have hdownload : 0 < c.downloads.countP (·.polls download.feed) :=
    List.countP_pos_iff.mpr ⟨download, List.mem_of_getElem? hd, by cases download <;> rfl⟩
  have htimer : 0 < c.timers.countP (·.2 == download.feed) :=
    List.countP_pos_iff.mpr ⟨t, ht, by rw [hfeed]; exact beq_self_eq_true _⟩
  rw [ExplorerComponent.polls] at hpolls
  omega

theorem last_updated (download : Download) (c : ExplorerComponent) {feed : Feed} :
    (c.updated download).last feed = if feed = download.feed then some c.nextTimer else c.last feed := by
  cases download <;> cases feed <;> rfl

theorem updated_timers (download : Download) (c : ExplorerComponent) :
    (c.updated download).timers = c.timers ++ [(c.nextTimer, download.feed)] := by
  cases download <;> rfl

theorem Alive.step {n : Nat} {l : Label} (ha : Alive n c) (hdestroy : l ≠ .destroy)
    (h : Polling.step c l = some c') : Alive (n + [l].count .chain) c' := by
  cases l with
  | destroy => exact absurd rfl hdestroy
  | chain =>
    obtain rfl := step_chain h
    refine ⟨fun feed => ?_, ha.numbered.sublist (List.Sublist.refl _) rfl, fun hn => ?_⟩
    · rw [polls_update, ha.polls feed]
      rfl
    · cases hn
  | answer k =>
    have hpolls := step_polls (by simp) (by simp) h
    rw [Polling.step] at h
    cases hd : c.downloads[k]? with
    | none => rw [hd] at h; cases h
    | some download =>
      rw [hd] at h
      obtain rfl := Option.some.inj h
      have hnumbered : Numbered { c with downloads := c.downloads.eraseIdx k } :=
        ⟨ha.numbered.older, ha.numbered.nodup⟩
      refine ⟨fun feed => (hpolls feed).trans (ha.polls feed), hnumbered.updated download, fun hn t ht => ?_⟩
      obtain rfl : n = 0 := hn
      rw [updated_timers] at ht
      rw [last_updated]
      rcases List.mem_append.mp ht with ht | ht
      · rw [if_neg (ha.no_timer hd t ht)]
        exact ha.last rfl t ht
      · rw [List.mem_singleton.mp ht, if_pos rfl]
  | fire k =>
    have hpolls := step_polls (by simp) (by simp) h
    rw [Polling.step] at h
    cases ht : c.timers[k]? with
    | none => rw [ht] at h; cases h
    | some timer =>
      rw [ht] at h
      obtain rfl := Option.some.inj h
      refine ⟨fun feed => (hpolls feed).trans (ha.polls feed), ?_, fun hn t hmem => ?_⟩
      · exact ha.numbered.sublist (List.eraseIdx_sublist ..) rfl
      · exact ha.last hn t (List.mem_of_mem_eraseIdx hmem)

/-- **Each feed is polled once for every time the chain was set**, until the component is destroyed. -/
theorem alive_run (h : Run step .start ls c) (hls : .destroy ∉ ls) : Alive (ls.count .chain) c := by
  refine Reaches.inv (P := fun ls c => .destroy ∉ ls → Alive (ls.count .chain) c) (fun _ => alive_start)
    (fun ls c l c' ha _ hs hls => ?_) h hls
  rw [List.count_append]
  exact (ha fun hmem => hls (List.mem_append_left _ hmem)).step
    (fun hl => hls (List.mem_append_right _ (by rw [hl]; exact List.mem_singleton_self _))) hs

/-! ### When it is destroyed -/

/-- Nothing is downloaded, and nothing will be. -/
def Idle (c : ExplorerComponent) : Prop := c.downloads = [] ∧ c.timers = []

theorem idle_iff_polls : Idle c ↔ ∀ feed, c.polls feed = 0 := by
  refine ⟨?_, fun h => ⟨?_, ?_⟩⟩
  · rintro ⟨hdownloads, htimers⟩ feed
    rw [ExplorerComponent.polls, hdownloads, htimers]
    rfl
  · refine List.eq_nil_iff_forall_not_mem.mpr fun download hmem => ?_
    have hcount : 0 < c.downloads.countP (·.polls download.feed) :=
      List.countP_pos_iff.mpr ⟨download, hmem, by cases download <;> rfl⟩
    have hnone := h download.feed
    rw [ExplorerComponent.polls] at hnone
    omega
  · refine List.eq_nil_iff_forall_not_mem.mpr fun t hmem => ?_
    have hcount : 0 < c.timers.countP (·.2 == t.2) :=
      List.countP_pos_iff.mpr ⟨t, hmem, beq_self_eq_true _⟩
    have hnone := h t.2
    rw [ExplorerComponent.polls] at hnone
    omega

theorem mem_ngOnDestroy {t : Nat × Feed} : t ∈ c.ngOnDestroy.timers ↔
    t ∈ c.timers ∧ some t.1 ≠ c.timerInfo ∧ some t.1 ≠ c.timerBlocks := by
  simp only [ExplorerComponent.ngOnDestroy, ExplorerComponent.clearTimeout, List.mem_filter, bne_iff_ne]
  exact and_assoc

theorem timers_length_le (hc : Numbered c) (h : c.ngOnDestroy.timers = []) : c.timers.length ≤ 2 := by
  have hsub : c.timers.map (fun t => some t.1) ⊆ [c.timerInfo, c.timerBlocks] := by
    intro i hi
    obtain ⟨t, ht, rfl⟩ := List.mem_map.mp hi
    by_contra hne
    have hmem : t ∈ c.ngOnDestroy.timers := mem_ngOnDestroy.mpr ⟨ht, by simpa using hne⟩
    rw [h] at hmem
    cases hmem
  have hnodup : (c.timers.map fun t => some t.1).Nodup := by
    have hmap : c.timers.map (fun t => some t.1) = (c.timers.map Prod.fst).map some := by simp
    rw [hmap]
    exact hc.nodup.map (Option.some_injective _)
  simpa using (hnodup.subperm hsub).length_le

theorem timers_length (c : ExplorerComponent) :
    c.timers.length = c.timers.countP (·.2 == .info) + c.timers.countP (·.2 == .blocks) := by
  rw [List.length_eq_countP_add_countP (·.2 == .info)]
  congr 1
  refine List.countP_congr fun t _ => ?_
  cases t.2 <;> simp

/-- **Destroying it** ends the polling exactly if the chain was set once and nothing was being
downloaded. -/
theorem Alive.idle_ngOnDestroy_iff {n : Nat} (ha : Alive n c) :
    Idle c.ngOnDestroy ↔ n = 0 ∧ c.downloads = [] := by
  refine ⟨?_, ?_⟩
  · rintro ⟨hdownloads, htimers⟩
    have hnone : c.downloads = [] := hdownloads
    have htwo := timers_length_le ha.numbered htimers
    have hinfo := ha.polls .info
    have hblocks := ha.polls .blocks
    rw [ExplorerComponent.polls, hnone, List.countP_nil] at hinfo hblocks
    rw [timers_length] at htwo
    exact ⟨by omega, hnone⟩
  · rintro ⟨rfl, hnone⟩
    refine ⟨hnone, List.eq_nil_iff_forall_not_mem.mpr fun t ht => ?_⟩
    obtain ⟨hmem, hinfo, hblocks⟩ := mem_ngOnDestroy.mp ht
    have hlast := (ha.last rfl t hmem).symm
    cases hfeed : t.2 with
    | info => exact hinfo (by rw [hlast, hfeed]; rfl)
    | blocks => exact hblocks (by rw [hlast, hfeed]; rfl)

theorem destroyed_run {c₀ : ExplorerComponent} (hc : c₀.subscribed = false) (h : Run step c₀ ls c) :
    c.subscribed = false ∧ ∀ feed, c.polls feed = c₀.polls feed := by
  refine Reaches.inv (P := fun _ c => c.subscribed = false ∧ ∀ feed, c.polls feed = c₀.polls feed)
    ⟨hc, fun _ => rfl⟩ (fun _ c l c' hp _ hs => ?_) h
  obtain ⟨hsub, hpolls⟩ := hp
  have hchain : l ≠ .chain := by
    rintro rfl
    rw [step, hsub] at hs
    cases hs
  have hdestroy : l ≠ .destroy := by
    rintro rfl
    rw [step, hsub] at hs
    cases hs
  refine ⟨?_, fun feed => (step_polls hchain hdestroy hs feed).trans (hpolls feed)⟩
  cases l with
  | chain => exact absurd rfl hchain
  | destroy => exact absurd rfl hdestroy
  | answer k =>
    rw [step] at hs
    split at hs
    · cases hs
    · next download _ =>
      rw [← Option.some.inj hs]
      cases download <;> exact hsub
  | fire k =>
    rw [step] at hs
    split at hs
    · cases hs
    · rw [← Option.some.inj hs]
      exact hsub

theorem destroy_notMem {before : List Label} (h : Run step .start before c) (hsub : c.subscribed = true) :
    Label.destroy ∉ before := by
  intro hmem
  obtain ⟨earlier, later, rfl⟩ := List.append_of_mem hmem
  obtain ⟨t, _, hrest⟩ := h.split
  have hrest : Run step t ([Label.destroy] ++ later) c := hrest
  obtain ⟨t', ht', hlater⟩ := hrest.split
  have hdone : t'.subscribed = false := by
    rw [(run_destroy ht').2]
    rfl
  rw [(destroyed_run hdone hlater).1] at hsub
  cases hsub

/-- **Polling ends with the component** exactly if the chain was set once, and nothing was being
downloaded when it was destroyed.  Otherwise it never ends. -/
theorem polling_ends_iff {before after : List Label}
    (h : Run step .start (before ++ Label.destroy :: after) c) :
    Idle c ↔ Label.chain ∉ before ∧ ∃ t, Run step .start before t ∧ t.downloads = [] := by
  obtain ⟨t, ht, hrest⟩ := h.split
  have hrest : Run step t ([Label.destroy] ++ after) c := hrest
  obtain ⟨t', ht', hafter⟩ := hrest.split
  obtain ⟨hsub, rfl⟩ := run_destroy ht'
  have halive := alive_run ht (destroy_notMem ht hsub)
  have hidle : Idle c ↔ Idle t.ngOnDestroy := by
    rw [idle_iff_polls, idle_iff_polls]
    exact forall_congr' fun feed => by rw [(destroyed_run rfl hafter).2 feed]
  rw [hidle, halive.idle_ngOnDestroy_iff, List.count_eq_zero]
  refine and_congr_right fun _ => ⟨fun hnone => ⟨t, ht, hnone⟩, ?_⟩
  rintro ⟨u, hu, hnone⟩
  rw [← hu.unique ht]
  exact hnone

/-- Both timers are set when the component is destroyed: nothing is polled any more. -/
theorem polling_ends_iff_answered :
    ∃ c, Run step .start [.answer 0, .answer 0, .fire 0, .answer 0, .destroy] c ∧ Idle c := by
  have halive : Run step .start [.answer 0, .answer 0, .fire 0, .answer 0] _ := run_of_exec rfl
  have hrun : Run step .start ([.answer 0, .answer 0, .fire 0, .answer 0] ++ [Label.destroy]) _ :=
    halive.step trivial rfl
  exact ⟨_, hrun, (polling_ends_iff hrun).mpr ⟨by decide, _, halive, rfl⟩⟩

end Blockcore.ClientApp.Polling
