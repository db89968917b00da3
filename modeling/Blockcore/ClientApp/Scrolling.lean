import Blockcore.ClientApp.Pager

/-!
# Scrolling that disturbs nothing

What a component shows while no request disturbs another.  `Fits` says what can be under
way then, and how it fits the list and the link: behind the list come the pages whose
bodies are waited for, behind those the page whose headers are, and behind that the page
that `link` names.  Every undisturbed step keeps this (`inv_step`), so that what is shown
is always an initial run of the pages of the last navigation (`initial_run`).
-/

namespace Blockcore.ClientApp.Pager

open Lib JsString

/-! ### The invariant -/

section

variable {Id Details Item : Type} {c : Component Id Details Item} {first : Id → JsString}

def requests (pending : List (Task Id Item)) : List (Task Id Item) := pending.filter fun t => !t.isTimer

def bodies (lists : List (List Item × Bool)) : List (Task Id Item) := lists.map fun p => .body p.1 p.2

/-- The list stands in the pages of the last navigation: behind it come the pages whose bodies are
waited for, and then the rest. -/
structure Stands (c : Component Id Details Item) (first : Id → JsString) (last : Option Id)
    (v : View Details Item) (id : Id) (lists : List (List Item × Bool)) (rest : List (List Item)) :
    Prop where
  last : last = some id
  baseUrl : v.baseUrl = c.baseUrl id
  pages : ∃ run, v.items.getD [] = run.flatten ∧
    PagesOf c first id (run ++ (lists.map (fun p => c.order p.1) ++ rest))

/-- What is under way fits what there is: nothing; a download of the last navigation; or bodies of
pages, and perhaps the headers of the one after them. -/
inductive Fits (hleads : Leads c first) (last : Option Id) (v : View Details Item) :
    List (Task Id Item) → Prop where
  | blank (hitems : v.items = none) : Fits hleads last v []
  | download {id : Id} {k : Nat} (hlast : last = some id) (hitems : v.items = none)
    (hbase : v.baseUrl = c.baseUrl id) (hprepared : hleads.prepared id k v.details) :
    Fits hleads last v [.download id k]
  | waiting {id : Id} {lists : List (List Item × Bool)} {rest : List (List Item)}
    (hstands : Stands c first last v id lists rest)
    (hlink : Ahead (content c (c.baseUrl id)) (next c (c.baseUrl id)) v.link.nonempty rest) :
    Fits hleads last v (bodies lists)
  | asked {id : Id} {lists : List (List Item × Bool)} {rest : List (List Item)} {path : JsString}
    {scroll : Bool} (hstands : Stands c first last v id lists rest)
    (hpath : Pages c (c.baseUrl id) path rest)
    (hlink : v.link.nonempty = some path ∨ v.items = none ∧ lists = []) :
    Fits hleads last v (bodies lists ++ [.headers (fullUrl (c.baseUrl id) path) scroll])

variable {hleads : Leads c first} {last : Option Id} {v : View Details Item}

theorem Stands.showsRun {id : Id} {lists : List (List Item × Bool)} {rest : List (List Item)}
    (h : Stands c first last v id lists rest) : ShowsRun c first last v.items := by
  intro xs hxs
  obtain ⟨run, hrun, hpages⟩ := h.pages
  rw [hxs] at hrun
  exact ⟨id, _, run, h.last, hpages, List.prefix_append run _, hrun⟩

theorem Fits.showsRun {tasks : List (Task Id Item)} (h : Fits hleads last v tasks) :
    ShowsRun c first last v.items := by
  cases h with
  | blank hitems =>
    intro xs hxs
    rw [hitems] at hxs
    cases hxs
  | download _ hitems =>
    intro xs hxs
    rw [hitems] at hxs
    cases hxs
  | waiting hstands => exact hstands.showsRun
  | asked hstands => exact hstands.showsRun

/-! ### The tasks -/

theorem requests_append (as bs : List (Task Id Item)) :
    requests (as ++ bs) = requests as ++ requests bs := List.filter_append ..

theorem requests_of_all_isTimer {pending : List (Task Id Item)} (h : pending.all Task.isTimer = true) :
    requests pending = [] := by
  rw [requests, List.filter_eq_nil_iff]
  intro task htask
  rw [List.all_eq_true.mp h task htask]
  decide

theorem requests_cons {task : Task Id Item} (htask : task.isTimer = false) (bs : List (Task Id Item)) :
    requests (task :: bs) = task :: requests bs := by
  rw [requests, List.filter_cons, htask]
  rfl

theorem requests_push {s : State Id Details Item} {task : Task Id Item} (htask : task.isTimer = false) :
    requests (s.push task).pending = requests s.pending ++ [task] := by
  rw [State.push, requests_append, requests_cons htask]
  rfl

theorem cut_at_task {pending : List (Task Id Item)} {n : Nat} {task : Task Id Item}
    (h : pending[n]? = some task) :
    ∃ as bs, pending = as ++ task :: bs ∧ pending.eraseIdx n = as ++ bs ∧ pending.take n = as := by
  obtain ⟨hn, rfl⟩ := List.getElem?_eq_some_iff.mp h
  have hcut : pending = pending.take n ++ pending[n] :: pending.drop (n + 1) := by
    rw [← List.drop_eq_getElem_cons hn, List.take_append_drop]
  refine ⟨pending.take n, pending.drop (n + 1), hcut, ?_, rfl⟩
  rw [List.eraseIdx_eq_take_drop_succ]

theorem mem_bodies {task : Task Id Item} {lists : List (List Item × Bool)} (h : task ∈ bodies lists) :
    ∃ list scroll, task = .body list scroll := by
  obtain ⟨p, _, rfl⟩ := List.mem_map.mp h
  exact ⟨p.1, p.2, rfl⟩

theorem eq_of_append_singleton {α : Type} {xs ys zs : List α} {a b : α} (ha : a ∉ zs)
    (h : xs ++ a :: ys = zs ++ [b]) : xs = zs ∧ a = b ∧ ys = [] := by
  cases ys using List.reverseRecOn with
  | nil =>
    obtain ⟨hxs, hab⟩ := List.append_inj' h rfl
    exact ⟨hxs, (List.cons.inj hab).1, rfl⟩
  | append_singleton ys y =>
    have hmore : (xs ++ a :: ys) ++ [y] = zs ++ [b] := by
      rw [← h, List.append_assoc, List.cons_append]
    have hzs : xs ++ a :: ys = zs := (List.append_inj' hmore rfl).1
    exact absurd (hzs ▸ by simp) ha

section

variable {xs ys : List (Task Id Item)} {id : Id} {k : Nat} {url : JsString} {list : List Item}
  {scroll : Bool}

theorem Fits.of_download (h : Fits hleads last v (xs ++ .download id k :: ys)) :
    xs ++ ys = [] ∧ last = some id ∧ v.items = none ∧ v.baseUrl = c.baseUrl id ∧
      hleads.prepared id k v.details := by
  have hmem : Task.download id k ∈ xs ++ .download id k :: ys := by simp
  generalize htasks : xs ++ .download id k :: ys = tasks at h hmem
  cases h with
  | blank => cases hmem
  | download hlast hitems hbase hprepared =>
    obtain ⟨rfl, heq, rfl⟩ := eq_of_append_singleton (List.not_mem_nil) htasks
    cases heq
    exact ⟨rfl, hlast, hitems, hbase, hprepared⟩
  | waiting =>
    obtain ⟨_, _, heq⟩ := mem_bodies hmem
    cases heq
  | asked =>
    rcases List.mem_append.mp hmem with hmem | hmem
    · obtain ⟨_, _, heq⟩ := mem_bodies hmem
      cases heq
    · cases List.mem_singleton.mp hmem

theorem Fits.of_headers (h : Fits hleads last v (xs ++ .headers url scroll :: ys)) :
    ys = [] ∧ ∃ id lists rest path, xs = bodies lists ∧ url = fullUrl (c.baseUrl id) path ∧
      Stands c first last v id lists rest ∧ Pages c (c.baseUrl id) path rest ∧
        (v.link.nonempty = some path ∨ v.items = none ∧ lists = []) := by
  have hmem : Task.headers url scroll ∈ xs ++ .headers url scroll :: ys := by simp
  generalize htasks : xs ++ .headers url scroll :: ys = tasks at h hmem
  cases h with
  | blank => cases hmem
  | download => cases List.mem_singleton.mp hmem
  | waiting =>
    obtain ⟨_, _, heq⟩ := mem_bodies hmem
    cases heq
  | @asked id lists rest path scroll' hstands hpath hlink =>
    have hnot : Task.headers url scroll ∉ (bodies lists : List (Task Id Item)) := by
      intro hin
      obtain ⟨_, _, heq⟩ := mem_bodies hin
      cases heq
    obtain ⟨rfl, heq, rfl⟩ := eq_of_append_singleton hnot htasks
    cases heq
    exact ⟨rfl, id, lists, rest, path, rfl, rfl, hstands, hpath, hlink⟩

theorem eq_nil_of_body {lists : List (List Item × Bool)} {tail : List (Task Id Item)}
    (hxs : xs.all (fun task => !task.isBody) = true)
    (h : xs ++ .body list scroll :: ys = bodies lists ++ tail)
    (htail : lists = [] → .body list scroll ∉ tail) :
    xs = [] ∧ ∃ lists', lists = (list, scroll) :: lists' ∧ ys = bodies lists' ++ tail := by
  cases lists with
  | nil =>
    refine absurd ?_ (htail rfl)
    have hall : xs ++ .body list scroll :: ys = tail := h
    rw [← hall]
    simp
  | cons p lists =>
    have hcons : xs ++ .body list scroll :: ys = .body p.1 p.2 :: (bodies lists ++ tail) := h
    cases xs with
    | nil =>
      obtain ⟨heq, hys⟩ := List.cons.inj hcons
      cases heq
      exact ⟨rfl, lists, rfl, hys⟩
    | cons x xs =>
      obtain ⟨rfl, _⟩ := List.cons.inj hcons
      simp [Task.isBody] at hxs

theorem Fits.of_body (hxs : xs.all (fun task => !task.isBody) = true)
    (h : Fits hleads last v (xs ++ .body list scroll :: ys)) :
    xs = [] ∧ ∃ id lists rest, Stands c first last v id ((list, scroll) :: lists) rest ∧
      (ys = bodies lists ∧ Ahead (content c (c.baseUrl id)) (next c (c.baseUrl id)) v.link.nonempty rest ∨
        ∃ path scroll', ys = bodies lists ++ [.headers (fullUrl (c.baseUrl id) path) scroll'] ∧
          Pages c (c.baseUrl id) path rest ∧ v.link.nonempty = some path) := by
  have hmem : Task.body list scroll ∈ xs ++ .body list scroll :: ys := by simp
  generalize htasks : xs ++ .body list scroll :: ys = tasks at h hmem
  cases h with
  | blank => cases hmem
  | download => cases List.mem_singleton.mp hmem
  | @waiting id lists rest hstands hlink =>
    have htasks' : xs ++ .body list scroll :: ys = bodies lists ++ [] := by rw [htasks, List.append_nil]
    obtain ⟨rfl, lists, rfl, rfl⟩ := eq_nil_of_body hxs htasks' fun _ => List.not_mem_nil
    rw [List.append_nil]
    exact ⟨rfl, id, lists, rest, hstands, .inl ⟨rfl, hlink⟩⟩
  | @asked id lists rest path scroll' hstands hpath hlink =>
    obtain ⟨rfl, lists, rfl, rfl⟩ := eq_nil_of_body hxs htasks fun _ hin => by
      cases List.mem_singleton.mp hin
    refine ⟨rfl, id, lists, rest, hstands, .inr ⟨path, scroll', rfl, hpath, ?_⟩⟩
    rcases hlink with hlink | ⟨_, hnil⟩
    · exact hlink
    · cases hnil

end

/-! ### One step -/

def Inv (hleads : Leads c first) (last : Option Id) (s : State Id Details Item) : Prop :=
  Fits hleads last s.toView (requests s.pending)

variable {s : State Id Details Item}

/-- **A navigation goes on** while nothing else is under way. -/
theorem inv_proceed {id : Id} {k : Nat} (hrequests : requests s.pending = []) (hlast : last = some id)
    (hitems : s.items = none) (hbase : s.baseUrl = c.baseUrl id)
    (hprepared : hleads.prepared id k s.details) (hpages : ∃ pages, PagesOf c first id pages) :
    Inv hleads last (proceed c id k s) := by
  rw [proceed, Inv]
  split
  · rw [requests_push rfl, hrequests]
    exact .download hlast hitems hbase hprepared
  · next hk =>
    rw [hleads.firstUrl id k s.details (by omega) hprepared]
    simp only [update, JsValue.nonempty_string (hleads.nonempty id)]
    rw [requests_push rfl, hrequests, hbase]
    obtain ⟨pages, hchain⟩ := hpages
    have hstands : Stands c first last s.toView id [] pages := by
      refine ⟨hlast, hbase, [], ?_, hchain⟩
      show s.items.getD [] = [].flatten
      rw [hitems]
      rfl
    exact .asked hstands hchain (.inr ⟨hitems, rfl⟩)

theorem isBody_of_linked (hlinked : s.linked = true) {task : Task Id Item}
    (h : task ∈ requests s.pending) : task.isBody = true := by
  obtain ⟨hmem, hrequest⟩ := List.mem_filter.mp h
  have hkind := List.all_eq_true.mp hlinked task hmem
  rw [Bool.or_eq_true] at hkind
  rcases hkind with htimer | hbody
  · rw [htimer] at hrequest
    cases hrequest
  · exact hbody

theorem idle_of_requests (h : requests s.pending = []) : s.idle = true := by
  rw [State.idle, List.all_eq_true]
  intro task htask
  have hnot := List.filter_eq_nil_iff.mp h task htask
  simpa using hnot

variable {as bs : List (Task Id Item)} {n : Nat}

/-- **A timer** requests the page behind those whose bodies are waited for, if there is one. -/
theorem inv_timer (hs : Inv hleads last s) (hturn : InTurn s n .timer)
    (hrequests : requests (as ++ bs) = requests s.pending) :
    Inv hleads last (resume c .timer { s with pending := as ++ bs }) := by
  rw [resume, update]
  cases hlink : s.link.nonempty with
  | none =>
    show Fits hleads last s.toView (requests (as ++ bs))
    rw [hrequests]
    exact hs
  | some path =>
    obtain ⟨hlinked, hlist⟩ := hturn (by rw [hlink]; rfl)
    have hbody : ∀ task ∈ requests s.pending, task.isBody = true :=
      fun task htask => isBody_of_linked hlinked htask
    have hidle : requests s.pending = [] → s.idle = true := idle_of_requests
    rw [Inv, requests_push rfl]
    show Fits hleads last s.toView (requests (as ++ bs) ++ [.headers (fullUrl s.baseUrl path) true])
    rw [Inv] at hs
    rw [hrequests]
    generalize requests s.pending = tasks at hs hbody hidle
    cases hs with
    | blank hitems =>
      rw [hidle rfl, hitems] at hlist
      cases hlist rfl
    | download => cases hbody _ (List.mem_singleton_self _)
    | waiting hstands hahead =>
      rw [hlink] at hahead
      rw [hstands.baseUrl]
      exact .asked hstands hahead (.inl hlink)
    | asked => cases hbody _ (List.mem_append_right _ (List.mem_singleton_self _))

/-- **The headers of a page** say which page is behind it, and its body is waited for. -/
theorem inv_headers {url : JsString} {scroll : Bool}
    (hs : Fits hleads last s.toView (requests as ++ .headers url scroll :: requests bs)) :
    Inv hleads last (resume c (.headers url scroll) { s with pending := as ++ bs }) ∧
      Fits hleads last s.toView (requests as ++ requests bs) := by
  obtain ⟨hbs, id, lists, rest, path, has, rfl, hstands, hpath, hlink⟩ := hs.of_headers
  have hrequests : requests as ++ requests bs = bodies lists := by rw [has, hbs, List.append_nil]
  -- as if they had not been asked for
  have hfail : Fits hleads last s.toView (bodies lists) := by
    rcases hlink with hlink | ⟨hitems, rfl⟩
    · exact .waiting hstands (by rw [hlink]; exact hpath)
    · exact .blank hitems
  refine ⟨?_, by rw [hrequests]; exact hfail⟩
  simp only [resume]
  cases hheader : (c.respond (fullUrl (c.baseUrl id) path)).link with
  | none =>
    show Fits hleads last s.toView (requests (as ++ bs))
    rw [requests_append, hrequests]
    exact hfail
  | some linkHeader =>
    obtain ⟨rest, rfl, hahead⟩ := hpath.first_rest
    rw [next, hheader] at hahead
    rw [Inv, requests_push rfl]
    show Fits hleads last { s.toView with
        link := (ApiService.parseLinkHeader linkHeader).get c.relation }
      (requests (as ++ bs) ++ [.body (c.respond (fullUrl (c.baseUrl id) path)).list scroll])
    have htasks : requests (as ++ bs) ++ [.body (c.respond (fullUrl (c.baseUrl id) path)).list scroll] =
        bodies (lists ++ [((c.respond (fullUrl (c.baseUrl id) path)).list, scroll)]) := by
      rw [requests_append, hrequests, bodies, bodies, List.map_append]
      rfl
    rw [htasks]
    obtain ⟨run, hrun, hpages⟩ := hstands.pages
    refine .waiting ⟨hstands.last, hstands.baseUrl, run, hrun, ?_⟩ hahead
    rw [List.map_append, List.append_assoc]
    exact hpages

/-- **A download** is followed by the next, or by the first page. -/
theorem inv_download {id : Id} {k : Nat}
    (hs : Fits hleads last s.toView (requests as ++ .download id k :: requests bs))
    (hpages : ∃ pages, PagesOf c first id pages) :
    Inv hleads last (resume c (.download id k) { s with pending := as ++ bs }) ∧
      Fits hleads last s.toView (requests as ++ requests bs) := by
  obtain ⟨hnil, hlast, hitems, hbase, hprepared⟩ := hs.of_download
  refine ⟨?_, ?_⟩
  · rw [resume]
    refine inv_proceed ?_ hlast hitems hbase (hleads.downloaded id k _ hprepared) hpages
    show requests (as ++ bs) = []
    rw [requests_append, hnil]
  · rw [hnil]
    exact .blank hitems

/-- **The body of a page** comes behind the list. -/
theorem inv_body {list : List Item} {scroll : Bool}
    (hs : Fits hleads last s.toView (requests as ++ .body list scroll :: requests bs))
    (has : (requests as).all (fun task => !task.isBody) = true) :
    Inv hleads last (resume c (.body list scroll) { s with pending := as ++ bs }) := by
  obtain ⟨hnil, id, lists, rest, hstands, hbs⟩ := hs.of_body has
  have hview : Inv hleads last (resume c (.body list scroll) { s with pending := as ++ bs }) ↔
      Fits hleads last { s.toView with items := some (s.items.getD [] ++ c.order list) }
        (requests bs) := by
    have hrequests : requests (as ++ bs) = requests bs := by rw [requests_append, hnil, List.nil_append]
    rw [← hrequests]
    cases scroll <;> exact Iff.rfl
  have hstands' : Stands c first last { s.toView with items := some (s.items.getD [] ++ c.order list) }
      id lists rest := by
    obtain ⟨run, hrun, hpages⟩ := hstands.pages
    refine ⟨hstands.last, hstands.baseUrl, run ++ [c.order list], ?_, ?_⟩
    · show s.items.getD [] ++ c.order list = _
      rw [hrun, List.flatten_append, List.flatten_singleton]
    · rw [List.append_assoc]
      exact hpages
  rw [hview]
  rcases hbs with ⟨hbs, hahead⟩ | ⟨path, scroll', hbs, hpath, hlink⟩
  · rw [hbs]
    exact .waiting hstands' hahead
  · rw [hbs]
    exact .asked hstands' hpath (.inl hlink)

theorem Inv.cut (hs : Inv hleads last s) {task : Task Id Item} (hcut : s.pending = as ++ task :: bs)
    (htask : task.isTimer = false) : Fits hleads last s.toView (requests as ++ task :: requests bs) := by
  rw [Inv, hcut, requests_append, requests_cons htask] at hs
  exact hs

/-- **What comes in turn** keeps what is under way fitting. -/
theorem inv_resume {task : Task Id Item} (hs : Inv hleads last s) (hcut : s.pending = as ++ task :: bs)
    (htake : s.pending.take n = as) (hturn : InTurn s n task)
    (hpages : ∀ id, last = some id → ∃ pages, PagesOf c first id pages) :
    Inv hleads last (resume c task { s with pending := as ++ bs }) := by
  cases task with
  | timer =>
    refine inv_timer hs hturn ?_
    rw [requests_append, hcut, requests_append]
    rfl
  | download id k =>
    have hs' := hs.cut hcut rfl
    exact (inv_download hs' (hpages id hs'.of_download.2.1)).1
  | headers url scroll => exact (inv_headers (hs.cut hcut rfl)).1
  | body list scroll =>
    refine inv_body (hs.cut hcut rfl) ?_
    have hall : as.all (fun task => !task.isBody) = true := htake ▸ hturn
    rw [List.all_eq_true] at hall ⊢
    exact fun task htask => hall task (List.mem_filter.mp htask).1

/-- **What fails alone** keeps what is under way fitting. -/
theorem inv_fail {s' : State Id Details Item} {task : Task Id Item} (hs : Inv hleads last s)
    (hcut : s.pending = as ++ task :: bs) (herase : s.pending.eraseIdx n = as ++ bs)
    (halone : FailsAlone c s n task) (hfail : fail c task { s with pending := as ++ bs } = some s')
    (hpages : ∀ id, last = some id → ∃ pages, PagesOf c first id pages) : Inv hleads last s' := by
  cases task with
  | timer => cases hfail
  | download id k =>
    have hs' := hs.cut hcut rfl
    have hfailed : c.failed k s.details = none := Option.isNone_iff_eq_none.mp halone
    simp only [fail, hfailed] at hfail
    obtain rfl := Option.some.inj hfail
    rw [Inv, requests_append]
    exact (inv_download hs' (hpages id hs'.of_download.2.1)).2
  | headers url scroll =>
    obtain rfl := Option.some.inj hfail
    rw [Inv, requests_append]
    exact (inv_headers (hs.cut hcut rfl)).2
  | body list scroll =>
    obtain rfl := Option.some.inj hfail
    obtain ⟨hitems, htimers⟩ := halone
    rw [herase] at htimers
    rw [Inv, requests_of_all_isTimer htimers]
    exact .blank (Option.isNone_iff_eq_none.mp hitems)

theorem step_resume {s' : State Id Details Item} (h : step c s (.resume n) = some s') :
    ∃ task as bs, s.pending[n]? = some task ∧ s.pending = as ++ task :: bs ∧ s.pending.take n = as ∧
      s' = resume c task { s with pending := as ++ bs } := by
  simp only [step] at h
  cases htask : s.pending[n]? with
  | none =>
    rw [htask] at h
    cases h
  | some task =>
    rw [htask] at h
    obtain ⟨as, bs, hcut, herase, htake⟩ := cut_at_task htask
    exact ⟨task, as, bs, rfl, hcut, htake, by rw [← herase]; exact (Option.some.inj h).symm⟩

theorem step_fail {s' : State Id Details Item} (h : step c s (.fail n) = some s') :
    ∃ task as bs, s.pending[n]? = some task ∧ s.pending = as ++ task :: bs ∧
      s.pending.eraseIdx n = as ++ bs ∧ fail c task { s with pending := as ++ bs } = some s' := by
  simp only [step] at h
  cases htask : s.pending[n]? with
  | none =>
    rw [htask] at h
    cases h
  | some task =>
    rw [htask] at h
    obtain ⟨as, bs, hcut, herase, _⟩ := cut_at_task htask
    exact ⟨task, as, bs, rfl, hcut, herase, by rw [← herase]; exact h⟩

/-- **A step that disturbs nothing** keeps what is under way fitting. -/
theorem inv_step {s' : State Id Details Item} {a : Label Id} (hs : Inv hleads last s)
    (hmeets : Undisturbed c s a) (hstep : step c s a = some s')
    (hpages : ∀ id, lastOf last a = some id → ∃ pages, PagesOf c first id pages) :
    Inv hleads (lastOf last a) s' := by
  cases a with
  | scroll isReachingBottom =>
    obtain rfl := Option.some.inj hstep
    cases isReachingBottom with
    | false => exact hs
    | true =>
      show Fits hleads last s.toView (requests (s.pending ++ [.timer]))
      rw [requests_append]
      exact (List.append_nil (requests s.pending)).symm ▸ hs
  | navigate id =>
    obtain rfl := Option.some.inj hstep
    obtain ⟨hidle, hlist⟩ := hmeets
    refine inv_proceed (requests_of_all_isTimer hidle) rfl ?_ rfl (hleads.entered id _) (hpages id rfl)
    show (if c.resets then none else s.items) = none
    rcases hlist with hresets | hnone
    · rw [hresets]
      rfl
    · rw [Option.isNone_iff_eq_none.mp hnone, ite_self]
  | resume n =>
    obtain ⟨task, as, bs, htask, hcut, htake, rfl⟩ := step_resume hstep
    exact inv_resume hs hcut htake (hmeets task htask) hpages
  | fail n =>
    obtain ⟨task, as, bs, htask, hcut, herase, hfail⟩ := step_fail hstep
    exact inv_fail hs hcut herase (hmeets task htask) hfail hpages

/-! ### Runs -/

theorem lastNavigated_concat (ls : List (Label Id)) (a : Label Id) :
    lastNavigated (ls ++ [a]) = lastOf (lastNavigated ls) a := List.foldl_concat ..

theorem navigate_mem {ls : List (Label Id)} {id : Id} (h : lastNavigated ls = some id) :
    .navigate id ∈ ls := by
  induction ls using List.reverseRecOn with
  | nil => cases h
  | append_singleton ls a ih =>
    rw [lastNavigated_concat] at h
    cases a with
    | navigate id' =>
      cases h
      simp
    | _ => exact List.mem_append_left _ (ih h)

/-- **A run that disturbs nothing** shows an initial run of the last navigation's pages. -/
theorem initial_run (hleads : Leads c first) : ShowsPagesOnce c first (Undisturbed c) := by
  intro details baseUrl ls s hrun hpages
  suffices hinv : (∀ id, .navigate id ∈ ls → ∃ pages, PagesOf c first id pages) →
      Inv hleads (lastNavigated ls) s from (hinv hpages).showsRun
  clear hpages
  have hstart : Inv hleads none (start details baseUrl) :=
    show Fits hleads none (start details baseUrl : State Id Details Item).toView [] from .blank rfl
  refine hrun.inv (P := fun ls s => (∀ id, .navigate id ∈ ls → ∃ pages, PagesOf c first id pages) →
    Inv hleads (lastNavigated ls) s) (fun _ => hstart) ?_
  intro ls s a s' ih hmeets hstep hpages
  rw [lastNavigated_concat]
  refine inv_step (ih fun id hid => hpages id (List.mem_append_left _ hid)) hmeets hstep ?_
  intro id hid
  exact hpages id (navigate_mem (by rw [lastNavigated_concat]; exact hid))

end

end Blockcore.ClientApp.Pager
