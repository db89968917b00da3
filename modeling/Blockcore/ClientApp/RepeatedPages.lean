import Blockcore.ClientApp.Pager

/-!
# Pages that are shown more than once

`loading` is set when a scroll begins and is never looked at, and `link` changes only when
headers come.  So whatever a component shows, scrolls that come before the first answer all
request the page that `link` names, and it is shown once for each of them
(`run_scrolls`), even if everything comes in the order in which it was asked for.
-/

namespace Blockcore.ClientApp.Pager

open Lib JsString

variable {Id Details Item : Type} {c : Component Id Details Item} {s : State Id Details Item}

def State.prepend (tasks : List (Task Id Item)) (s : State Id Details Item) : State Id Details Item :=
  { s with pending := tasks ++ s.pending }

theorem push_prepend (tasks : List (Task Id Item)) (task : Task Id Item) :
    (s.prepend tasks).push task = (s.push task).prepend tasks :=
  congrArg (fun pending : List (Task Id Item) => { s with pending := pending })
    (List.append_assoc tasks s.pending [task])

theorem update_prepend (tasks : List (Task Id Item)) (url : JsValue) (scroll : Bool) :
    update url scroll (s.prepend tasks) = (update url scroll s).prepend tasks := by
  rw [update, update]
  cases url.nonempty with
  | none => cases scroll <;> rfl
  | some path => exact push_prepend ..

theorem proceed_prepend (tasks : List (Task Id Item)) (id : Id) (k : Nat) :
    proceed c id k (s.prepend tasks) = (proceed c id k s).prepend tasks := by
  rw [proceed, proceed]
  split
  · exact push_prepend ..
  · have hdetails : (s.prepend tasks).details = s.details := rfl
    rw [hdetails]
    cases c.firstUrl id s.details with
    | none => rfl
    | some url => exact update_prepend ..

theorem resume_prepend (tasks : List (Task Id Item)) (task : Task Id Item) :
    resume c task (s.prepend tasks) = (resume c task s).prepend tasks := by
  cases task with
  | timer => exact update_prepend ..
  | download id k => exact proceed_prepend (s := { s with details := c.downloaded k id s.details }) ..
  | headers url scroll =>
    rw [resume, resume]
    cases (c.respond url).link with
    | none => rfl
    | some linkHeader =>
      exact push_prepend (s := { s with
        total := (c.respond url).total
        link := (ApiService.parseLinkHeader linkHeader).get c.relation }) ..
  | body list scroll => cases scroll <;> rfl

theorem exec_resumes (task : Task Id Item) (n : Nat) :
    exec (step c) (s.prepend (List.replicate n task)) (List.replicate n (.resume 0)) =
      some ((resume c task)^[n] s) := by
  induction n generalizing s with
  | zero => rfl
  | succ n ih =>
    have hstep : step c (s.prepend (List.replicate (n + 1) task)) (.resume 0) =
        some ((resume c task s).prepend (List.replicate n task)) :=
      congrArg some (resume_prepend (s := s) (List.replicate n task) task)
    rw [List.replicate_succ (a := Label.resume 0), exec_cons hstep, ih, Function.iterate_succ_apply]

theorem exec_resumes_all {task : Task Id Item} {n : Nat} (hpending : s.pending = List.replicate n task) :
    ∃ t : State Id Details Item, t.toView = s.toView ∧ t.pending = [] ∧
      exec (step c) s (List.replicate n (.resume 0)) = some ((resume c task)^[n] t) := by
  refine ⟨{ s with pending := [] }, rfl, rfl, ?_⟩
  rw [← exec_resumes, State.prepend, List.append_nil, ← hpending]

/-! ### What comes of the same task, again and again -/

theorem iterate_timer {path : JsString} (hlink : s.link.nonempty = some path) (n : Nat) :
    ((resume c .timer)^[n] s).toView = s.toView ∧
      ((resume c .timer)^[n] s).pending =
        s.pending ++ List.replicate n (.headers (fullUrl s.baseUrl path) true) := by
  induction n generalizing s with
  | zero => exact ⟨rfl, (List.append_nil s.pending).symm⟩
  | succ n ih =>
    have hresume : resume c .timer s = s.push (.headers (fullUrl s.baseUrl path) true) := by
      rw [resume, update, hlink]
      rfl
    rw [Function.iterate_succ_apply, hresume, List.replicate_succ]
    obtain ⟨hview, hpending⟩ := ih (s := s.push (.headers (fullUrl s.baseUrl path) true)) hlink
    exact ⟨hview, hpending.trans (List.append_assoc ..)⟩

theorem iterate_headers {url linkHeader : JsString} (hheader : (c.respond url).link = some linkHeader)
    (n : Nat) :
    ((resume c (.headers url true))^[n] s).items = s.items ∧
      ((resume c (.headers url true))^[n] s).pending =
        s.pending ++ List.replicate n (.body (c.respond url).list true) := by
  induction n generalizing s with
  | zero => exact ⟨rfl, (List.append_nil s.pending).symm⟩
  | succ n ih =>
    rw [Function.iterate_succ_apply]
    obtain ⟨hitems, hpending⟩ := ih (s := resume c (.headers url true) s)
    rw [hitems, hpending, List.replicate_succ, resume, hheader]
    exact ⟨rfl, List.append_assoc ..⟩

theorem iterate_body {list xs : List Item} (hitems : s.items = some xs) (n : Nat) :
    ((resume c (.body list true))^[n] s).items =
      some (xs ++ (List.replicate n (c.order list)).flatten) := by
  induction n generalizing s xs with
  | zero => rw [Function.iterate_zero_apply, hitems, List.replicate_zero, List.flatten_nil, List.append_nil]
  | succ n ih =>
    have hresume : (resume c (.body list true) s).items = some (xs ++ c.order list) := by
      rw [resume, hitems]
      rfl
    rw [Function.iterate_succ_apply, ih hresume, List.replicate_succ, List.flatten_cons, List.append_assoc]

/-! ### Scrolls before the first answer -/

/-- So many scrolls, and then everything in the order in which it was asked for. -/
def scrolls (n : Nat) : List (Label Id) :=
  let come := List.replicate n (Label.resume 0)
  List.replicate n (.scroll true) ++ (come ++ (come ++ come))

theorem exec_scroll (n : Nat) :
    ∃ s', exec (step c) s (List.replicate n (.scroll true)) = some s' ∧ s'.toView = s.toView ∧
      s'.pending = s.pending ++ List.replicate n .timer := by
  induction n generalizing s with
  | zero => exact ⟨s, rfl, rfl, (List.append_nil s.pending).symm⟩
  | succ n ih =>
    obtain ⟨s', hexec, hview, hpending⟩ := ih (s := onScroll true s)
    refine ⟨s', ?_, hview, ?_⟩
    · rw [List.replicate_succ, exec_cons (show step c s (.scroll true) = some (onScroll true s) from rfl),
        hexec]
    · rw [hpending, List.replicate_succ]
      exact List.append_assoc ..

/-- **Scrolls before the first answer** show the page that the link names once for each of them. -/
theorem run_scrolls {xs : List Item} {path linkHeader : JsString} (hpending : s.pending = [])
    (hitems : s.items = some xs) (hlink : s.link.nonempty = some path)
    (hheader : (c.respond (fullUrl s.baseUrl path)).link = some linkHeader) (n : Nat) :
    ∃ s', Run (step c) s (scrolls n) s' ∧
      s'.items = some (xs ++ (List.replicate n (content c s.baseUrl path)).flatten) := by
  obtain ⟨s₁, hscroll, hview₁, hpending₁⟩ := exec_scroll (c := c) (s := s) n
  rw [hpending, List.nil_append] at hpending₁
  -- every timer requests the page that the link names
  obtain ⟨t₁, ht₁, hnil₁, htimers⟩ := exec_resumes_all (c := c) hpending₁
  obtain ⟨hview₂, hpending₂⟩ := iterate_timer (c := c) (s := t₁) (by rw [ht₁, hview₁, hlink]) n
  rw [hnil₁, List.nil_append, ht₁, hview₁] at hpending₂
  -- the headers change the link, too late
  obtain ⟨t₂, ht₂, hnil₂, hheaders⟩ := exec_resumes_all (c := c) hpending₂
  obtain ⟨hitems₃, hpending₃⟩ := iterate_headers (s := t₂) hheader n
  rw [hnil₂, List.nil_append] at hpending₃
  -- the bodies are all of this page
  obtain ⟨t₃, ht₃, _, hbodies⟩ := exec_resumes_all (c := c) hpending₃
  have hitems₄ : t₃.items = some xs := by rw [ht₃, hitems₃, ht₂, hview₂, ht₁, hview₁, hitems]
  refine ⟨_, run_of_exec ?_, iterate_body hitems₄ n⟩
  rw [scrolls, exec_append, hscroll, Option.bind_some, exec_append, htimers, Option.bind_some,
    exec_append, hheaders, Option.bind_some, hbodies]

end Blockcore.ClientApp.Pager
