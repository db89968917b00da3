import Blockcore.ClientApp.ApiService
import Blockcore.Lib.Chains
import Blockcore.Lib.Runs

/-!
# Components that scroll through pages

Three components of the explorer show a list that comes in pages.  A navigation downloads
a few things and then the first page; a scroll to the bottom starts a timer, and the
timer requests the page that `link` names.  Each `await` ends what runs at once: what
remains to be done waits in `pending`, and any of it may go on next, in any order.

`link` is read when a request begins and assigned when its headers come.  `Undisturbed`
is the condition under which this does no harm: a scroll requests a page only while the
headers of no other are waited for, bodies come in the order of their requests, and a
navigation begins only while no request is under way.  `ShowsPagesOnce` says that what is
shown is always an initial run of the pages of the last navigation.
-/

namespace Blockcore.ClientApp.Pager

open Lib JsString

/-- A response with a page: two of its headers, and its body. -/
structure Response (Item : Type) where
  total : Option JsString
  link : Option JsString
  list : List Item

/-- What the components differ in: what a navigation does before its first page, and what is done
with a page.  A download that fails is caught (and leaves the component as it says), or not. -/
structure Component (Id Details Item : Type) where
  /-- The relation that is followed. -/
  relation : JsString
  /-- A navigation takes the list away. -/
  resets : Bool
  /-- How the items of a page are put. -/
  order : List Item → List Item
  /-- What a navigation assigns at once. -/
  entered : Id → Details → Details
  /-- So many downloads come before the first page. -/
  downloads : Nat
  downloaded : Nat → Id → Details → Details
  failed : Nat → Details → Option Details
  /-- Where the first page is; without, its computation throws. -/
  firstUrl : Id → Details → Option JsString
  /-- `api.baseUrl`. -/
  baseUrl : Id → JsString
  /-- The server. -/
  respond : JsString → Response Item

/-- What is waited for: the timer of a scroll; a download of a navigation; the headers, or the
body, of a page, which a scroll may have requested. -/
inductive Task (Id Item : Type) where
  | timer
  | download (id : Id) (k : Nat)
  | headers (url : JsString) (scroll : Bool)
  | body (list : List Item) (scroll : Bool)

namespace Task

variable {Id Item : Type}

def isTimer : Task Id Item → Bool
  | timer => true
  | _ => false

def isBody : Task Id Item → Bool
  | body .. => true
  | _ => false

end Task

/-- What requests read and change: the list, which may be null; the link; what was downloaded; and
the base of the URLs. -/
structure View (Details Item : Type) where
  items : Option (List Item)
  link : JsValue
  details : Details
  baseUrl : JsString

structure State (Id Details Item : Type) extends View Details Item where
  total : Option JsString
  count : Nat
  loading : Bool
  pending : List (Task Id Item)

/-- What happens: a scroll event; a navigation; something that is waited for comes, or fails. -/
inductive Label (Id : Type) where
  | scroll (isReachingBottom : Bool)
  | navigate (id : Id)
  | resume (n : Nat)
  | fail (n : Nat)

section

variable {Id Details Item : Type}

namespace State

def push (task : Task Id Item) (s : State Id Details Item) : State Id Details Item :=
  { s with pending := s.pending ++ [task] }

def idle (s : State Id Details Item) : Bool := s.pending.all Task.isTimer

/-- Of the requests under way only bodies are waited for. -/
def linked (s : State Id Details Item) : Bool := s.pending.all fun task => task.isTimer || task.isBody

end State

variable (c : Component Id Details Item)

/-- `updateTransactions`, or `updateBlocks`, up to its first `await`; after it a scroll sets
`loading`. -/
def update (url : JsValue) (scroll : Bool) (s : State Id Details Item) : State Id Details Item :=
  match url.nonempty with
  | none => if scroll then { s with loading := false } else s
  | some url => s.push (.headers (replace s.baseUrl (ofString "/api") [] ++ url) scroll)

/-- The next download of a navigation, or its first page. -/
def proceed (id : Id) (k : Nat) (s : State Id Details Item) : State Id Details Item :=
  if k < c.downloads then s.push (.download id k)
  else
    match c.firstUrl id s.details with
    | none => s
    | some url => update (.string url) false s

def navigate (id : Id) (s : State Id Details Item) : State Id Details Item :=
  proceed c id 0
    { s with
      items := if c.resets then none else s.items
      details := c.entered id s.details
      baseUrl := c.baseUrl id }

/-- `onScroll`. -/
def onScroll (isReachingBottom : Bool) (s : State Id Details Item) : State Id Details Item :=
  if isReachingBottom then { s with loading := true }.push .timer else s

def resume (task : Task Id Item) (s : State Id Details Item) : State Id Details Item :=
  match task with
  | .timer => update s.link true s
  | .download id k => proceed c id (k + 1) { s with details := c.downloaded k id s.details }
  | .headers url scroll =>
    let response := c.respond url
    let s := { s with total := response.total }
    match response.link with
    | none => s
    | some linkHeader =>
      { s with link := (ApiService.parseLinkHeader linkHeader).get c.relation }.push
        (.body response.list scroll)
  | .body list scroll =>
    let s := { s with items := some (s.items.getD [] ++ c.order list), count := s.count + 1 }
    if scroll then { s with loading := false } else s

/-- What is done where it fails; a timer does not. -/
def fail (task : Task Id Item) (s : State Id Details Item) : Option (State Id Details Item) :=
  match task with
  | .timer => none
  | .download id k =>
    match c.failed k s.details with
    | none => some s
    | some details => some (proceed c id (k + 1) { s with details := details })
  | .headers _ _ => some s
  | .body _ _ => some s

def step (s : State Id Details Item) : Label Id → Option (State Id Details Item)
  | .scroll isReachingBottom => some (onScroll isReachingBottom s)
  | .navigate id => some (navigate c id s)
  | .resume n =>
    match s.pending[n]? with
    | none => none
    | some task => some (resume c task { s with pending := s.pending.eraseIdx n })
  | .fail n =>
    match s.pending[n]? with
    | none => none
    | some task => fail c task { s with pending := s.pending.eraseIdx n }

end

/-! ### The condition -/

section

variable {Id Details Item : Type} (c : Component Id Details Item)

/-- What comes is in turn: a timer requests a page only while of the others just bodies are waited
for, and there is a list or will be; a body is the first that is waited for. -/
def InTurn (s : State Id Details Item) (n : Nat) : Task Id Item → Prop
  | .timer => s.link.nonempty.isSome = true → s.linked = true ∧ (s.items.isNone = true → s.idle = false)
  | .body .. => (s.pending.take n).all (fun task => !task.isBody) = true
  | _ => True

/-- What fails takes no page with it, and is no download that the component goes on without. -/
def FailsAlone (s : State Id Details Item) (n : Nat) : Task Id Item → Prop
  | .download _ k => (c.failed k s.details).isNone = true
  | .body .. => s.items.isNone = true ∧ (s.pending.eraseIdx n).all Task.isTimer = true
  | _ => True

/-- The step disturbs no request; a navigation does not, if none is under way and no list stays
there. -/
def Undisturbed (s : State Id Details Item) : Label Id → Prop
  | .scroll _ => True
  | .navigate _ => s.idle = true ∧ (c.resets = true ∨ s.items.isNone = true)
  | .resume n => ∀ task ∈ s.pending[n]?, InTurn s n task
  | .fail n => ∀ task ∈ s.pending[n]?, FailsAlone c s n task

instance (s : State Id Details Item) (n : Nat) (task : Task Id Item) : Decidable (InTurn s n task) := by
  cases task with
  | timer => exact inferInstanceAs (Decidable (_ → _))
  | body => exact inferInstanceAs (Decidable (_ = true))
  | _ => exact isTrue trivial

instance (s : State Id Details Item) (n : Nat) (task : Task Id Item) :
    Decidable (FailsAlone c s n task) := by
  cases task with
  | download => exact inferInstanceAs (Decidable (_ = true))
  | body => exact inferInstanceAs (Decidable (_ ∧ _))
  | _ => exact isTrue trivial

instance (s : State Id Details Item) (a : Label Id) : Decidable (Undisturbed c s a) := by
  cases a with
  | scroll b => exact isTrue trivial
  | navigate id => exact inferInstanceAs (Decidable (_ ∧ _))
  | resume n => exact inferInstanceAs (Decidable (∀ _ ∈ _, _))
  | fail n => exact inferInstanceAs (Decidable (∀ _ ∈ _, _))

def Arrives (_ : State Id Details Item) : Label Id → Prop
  | .fail _ => False
  | _ => True

instance (s : State Id Details Item) (a : Label Id) : Decidable (Arrives s a) := by
  cases a with
  | fail n => exact isFalse id
  | _ => exact isTrue trivial

/-! ### The pages -/

def fullUrl (baseUrl path : JsString) : JsString := replace baseUrl (ofString "/api") [] ++ path

def content (baseUrl path : JsString) : List Item := c.order (c.respond (fullUrl baseUrl path)).list

def next (baseUrl path : JsString) : Option JsString :=
  (c.respond (fullUrl baseUrl path)).link.bind fun linkHeader =>
    ((ApiService.parseLinkHeader linkHeader).get c.relation).nonempty

/-- The pages from a path on form a finite chain. -/
abbrev Pages (baseUrl path : JsString) : List (List Item) → Prop :=
  Chain (content c baseUrl) (next c baseUrl) path

/-- What a navigation downloads leads to where its pages begin. -/
structure Leads (first : Id → JsString) where
  prepared : Id → Nat → Details → Prop
  entered : ∀ id d, prepared id 0 (c.entered id d)
  downloaded : ∀ id k d, prepared id k d → prepared id (k + 1) (c.downloaded k id d)
  firstUrl : ∀ id k d, c.downloads ≤ k → prepared id k d → c.firstUrl id d = some (first id)
  nonempty : ∀ id, first id ≠ []

abbrev PagesOf (first : Id → JsString) (id : Id) : List (List Item) → Prop :=
  Pages c (c.baseUrl id) (first id)

/-- The navigation that was last, after one more label. -/
def lastOf (last : Option Id) : Label Id → Option Id
  | .navigate id => some id
  | _ => last

def lastNavigated (ls : List (Label Id)) : Option Id := ls.foldl lastOf none

def start (details : Details) (baseUrl : JsString) : State Id Details Item where
  items := none
  link := .undefined
  details := details
  baseUrl := baseUrl
  total := none
  count := 0
  loading := false
  pending := []

/-- What is shown is null, or an initial run of the pages of this navigation. -/
def ShowsRun (first : Id → JsString) (last : Option Id) (items : Option (List Item)) : Prop :=
  ∀ xs, items = some xs →
    ∃ id pages run, last = some id ∧ PagesOf c first id pages ∧ run <+: pages ∧ xs = run.flatten

/-- In a run whose steps meet the condition, whatever the pages, what is shown is null or an initial
run of those of the last navigation. -/
def ShowsPagesOnce (first : Id → JsString) (meets : State Id Details Item → Label Id → Prop) : Prop :=
  ∀ details baseUrl ls s, Reaches (step c) meets (start details baseUrl) ls s →
    (∀ id, .navigate id ∈ ls → ∃ pages, PagesOf c first id pages) →
      ShowsRun c first (lastNavigated ls) s.items

end

end Blockcore.ClientApp.Pager
