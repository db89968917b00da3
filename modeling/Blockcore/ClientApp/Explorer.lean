import Blockcore.ClientApp.Scrolling
import Blockcore.ClientApp.RepeatedPages
import Mathlib.Data.List.Sort

/-!
# A block, an address, and the blocks

`BlockComponent` and `AddressComponent` show the transactions of what was navigated to
last, `BlocksComponent` the blocks of the current chain.  Each is a component that scrolls
through pages, and where no request disturbs another each shows every page once
(`shows_pages_once`).  They do not take care that none does: two scrolls in a row already
show a page twice (`repeats_page`).
-/

namespace Blockcore.ClientApp.Explorer

open Lib JsString Pager

/-- A number, as it is put into a text. JavaScript numbers are whole up to `2 ^ 53`, and from
`10 ^ 21` on are written with an exponent; those are not modelled. -/
def decimal (n : Nat) : JsString := (Nat.toDigits 10 n).flatMap units

/-! ### The API -/

/-- The base URL that each chain sets up, what a download from an URL gives, and the response to a
request; and of a block its `blockIndex`. -/
structure Api (Json : Type) where
  baseUrl : JsString → JsString
  download : JsString → Json
  request : JsString → Response Json
  blockIndex : Json → Nat

variable {Json : Type} (api : Api Json) (chain : JsString)

namespace Api

def downloadRelative (path : JsString) : Json := api.download (api.baseUrl chain ++ path)

def getLastBlock : Json := downloadRelative api chain (ofString "/query/block/latest")

def getBlockByHeight (index : JsString) : Json :=
  downloadRelative api chain (ofString "/query/block/index/" ++ index)

def getBlockByHash (hash : JsString) : Json := downloadRelative api chain (ofString "/query/block/" ++ hash)

def getAddress (address : JsString) : Json :=
  downloadRelative api chain (ofString "/query/address/" ++ address)

end Api

/-! ### `BlockComponent` -/

/-- What a navigation to a block downloads, and whether there was an error. -/
structure BlockDetails (Json : Type) where
  block : Option Json
  lastBlockHeight : Option Nat
  error : Bool

def getBlock (id : JsString) : Json :=
  if id.length < 20 then api.getBlockByHeight chain id else api.getBlockByHash chain id

def blockTransactions (block : Json) : JsString :=
  ofString "/api/query/block/index/" ++ decimal (api.blockIndex block) ++
    ofString "/transactions?limit=" ++ decimal 20

/-- Where those of the block begin that was navigated to. -/
def blockUrl (id : JsString) : JsString := blockTransactions api (getBlock api chain id)

/-- `BlockComponent`: if the first download fails, the block that was there before remains. -/
def blockComponent : Component JsString (BlockDetails Json) Json where
  relation := ofString "next"
  resets := true
  order := id
  entered _ details := details
  downloads := 2
  downloaded k id details :=
    match k with
    | 0 => { details with block := some (getBlock api chain id), error := false }
    | _ => { details with lastBlockHeight := some (api.blockIndex (api.getLastBlock chain)) }
  failed k details :=
    match k with
    | 0 => some { details with error := true }
    | _ => none
  firstUrl _ details := details.block.map (blockTransactions api)
  baseUrl _ := api.baseUrl chain
  respond := api.request

/-! ### `AddressComponent` -/

structure AddressDetails (Json : Type) where
  address : JsString
  balance : Option Json

/-- Where the transactions of an address begin. -/
def addressTransactions (address : JsString) : JsString :=
  ofString "/api/query/address/" ++ address ++ ofString "/transactions?limit=" ++ decimal 10

/-- `AddressComponent`. -/
def addressComponent : Component JsString (AddressDetails Json) Json where
  relation := ofString "previous"
  resets := true
  order := id
  entered address details := { details with address }
  downloads := 1
  downloaded _ id details := { details with balance := some (api.getAddress chain id) }
  failed _ _ := none
  firstUrl id _ := some (addressTransactions id)
  baseUrl _ := api.baseUrl chain
  respond := api.request

/-! ### `BlocksComponent` -/

def blocksUrl : JsString := ofString "/api/query/block?limit=" ++ decimal 20

/-- `BlocksComponent`: it navigates when the chain is set, and then its list stays. -/
def blocksComponent : Component JsString Unit Json where
  relation := ofString "previous"
  resets := false
  order := List.insertionSort fun a b => api.blockIndex b ≤ api.blockIndex a
  entered _ details := details
  downloads := 0
  downloaded _ _ details := details
  failed _ _ := none
  firstUrl _ _ := some blocksUrl
  baseUrl := api.baseUrl
  respond := api.request

/-! ### Where their pages begin -/

/-- Once the block has been downloaded, its index says where. -/
def blockLeads : Leads (blockComponent api chain) (blockUrl api chain) where
  prepared id k details := 0 < k → details.block = some (getBlock api chain id)
  entered _ _ h := absurd h (by decide)
  downloaded id k details h _ := by
    cases k with
    | zero => rfl
    | succ k => exact h (Nat.succ_pos k)
  firstUrl id k details hk h := by
    have hblock : details.block = some (getBlock api chain id) := h (Nat.lt_of_lt_of_le Nat.zero_lt_two hk)
    show details.block.map (blockTransactions api) = _
    rw [hblock]
    rfl
  nonempty id := by
    rw [blockUrl, blockTransactions, List.append_assoc, List.append_assoc]
    exact List.append_ne_nil_of_left_ne_nil (by decide) _

def addressLeads : Leads (addressComponent api chain) addressTransactions where
  prepared _ _ _ := True
  entered _ _ := trivial
  downloaded _ _ _ _ := trivial
  firstUrl _ _ _ _ _ := rfl
  nonempty id := by
    rw [addressTransactions, List.append_assoc, List.append_assoc]
    exact List.append_ne_nil_of_left_ne_nil (by decide) _

def blocksLeads : Leads (blocksComponent api) fun _ => blocksUrl where
  prepared _ _ _ := True
  entered _ _ := trivial
  downloaded _ _ _ _ := trivial
  firstUrl _ _ _ _ _ := rfl
  nonempty _ := List.append_ne_nil_of_left_ne_nil (by decide) _

/-! ### Two pages -/

section

variable {Id Details Item : Type} {c : Component Id Details Item} {first : Id → JsString}

/-- A navigation to where nothing is under way, up to its first page. -/
def visit (c : Component Id Details Item) (id : Id) : List (Label Id) :=
  .navigate id :: List.replicate (c.downloads + 2) (.resume 0)

theorem reaches_items {meets : State Id Details Item → Label Id → Prop} [∀ s a, Decidable (meets s a)]
    {details : Details} {baseUrl : JsString} {ls : List (Label Id)} {items : Option (List Item)}
    (h : (exec (fun s a => if meets s a then step c s a else none) (start details baseUrl) ls).map
      (fun s => s.items) = some items) :
    ∃ s, Reaches (step c) meets (start details baseUrl) ls s ∧ s.items = items := by
  obtain ⟨s, hs, hitems⟩ := Option.map_eq_some_iff.mp h
  exact ⟨s, reaches_of_exec hs, hitems⟩

theorem navigate_mem_visit {id id' : Id} {n : Nat} (h : .navigate id' ∈ visit c id ++ scrolls n) :
    id' = id := by
  simpa [visit, scrolls] using h

variable {id : Id} {path : JsString}

/-- A second page is at this path, and no third. -/
structure HasTwo (c : Component Id Details Item) (first : Id → JsString) (id : Id) (path : JsString) :
    Prop where
  hnext : next c (c.baseUrl id) (first id) = some path
  hend : next c (c.baseUrl id) path = none

theorem HasTwo.pagesOf (h : HasTwo c first id path) :
    PagesOf c first id [content c (c.baseUrl id) (first id), content c (c.baseUrl id) path] :=
  .more h.hnext (.last h.hend)

theorem not_showsPagesOnce (htwo : HasTwo c first id path) (details : Details) (baseUrl : JsString)
    (hmore : content c (c.baseUrl id) path ≠ [])
    (hexec : (exec (fun s a => if Arrives s a then step c s a else none) (start details baseUrl)
      (visit c id ++ scrolls 2)).map (fun s => s.items) =
        some (some (content c (c.baseUrl id) (first id) ++ content c (c.baseUrl id) path ++
          content c (c.baseUrl id) path))) :
    ¬ ShowsPagesOnce c first Arrives := by
  intro hall
  obtain ⟨s, hreaches, hitems⟩ := reaches_items hexec
  have hpages : ∀ id', .navigate id' ∈ visit c id ++ scrolls 2 → ∃ pages, PagesOf c first id' pages := by
    intro id' hid'
    rw [navigate_mem_visit hid']
    exact ⟨_, htwo.pagesOf⟩
  obtain ⟨id', pages, run, hlast, hpages', ⟨more, rfl⟩, hrun⟩ :=
    hall details baseUrl _ s hreaches hpages _ hitems
  rw [navigate_mem_visit (navigate_mem hlast)] at hpages'
  -- what is shown is longer than the two pages together
  have hflatten := congrArg List.flatten (hpages'.unique htwo.pagesOf)
  rw [List.flatten_append, ← hrun] at hflatten
  have hlength := congrArg List.length hflatten
  have hpos := List.length_pos_iff.mpr hmore
  simp only [List.length_append, List.flatten_cons, List.flatten_nil, List.length_nil] at hlength
  omega

theorem showsRun_two (htwo : HasTwo c first id path) {details : Details} {baseUrl : JsString}
    {items : Option (List Item)} (hall : ShowsPagesOnce c first (Undisturbed c))
    (hexec : (exec (fun s a => if Undisturbed c s a then step c s a else none) (start details baseUrl)
      (visit c id ++ scrolls 1)).map (fun s => s.items) = some items) :
    ∃ s, Reaches (step c) (Undisturbed c) (start details baseUrl) (visit c id ++ scrolls 1) s ∧
      s.items = items ∧ ShowsRun c first (lastNavigated (visit c id ++ scrolls 1)) s.items := by
  obtain ⟨s, hreaches, hitems⟩ := reaches_items hexec
  refine ⟨s, hreaches, hitems, hall details baseUrl _ s hreaches ?_⟩
  intro id' hid'
  rw [navigate_mem_visit hid']
  exact ⟨_, htwo.pagesOf⟩

end

/-- A server of which every list has two pages. -/
def twoPages : Api Nat where
  baseUrl _ := ofString "https://i/api"
  download _ := 1
  request url :=
    if url = ofString "https://i/2" then ⟨none, some (ofString "</1>; rel=\"first\""), [2]⟩
    else ⟨none, some (ofString "</2>; rel=\"previous\", </2>; rel=\"next\""), [1]⟩
  blockIndex := id

theorem block_two :
    HasTwo (blockComponent twoPages []) (blockUrl twoPages []) (ofString "1") (ofString "/2") :=
  ⟨by decide +kernel, by decide +kernel⟩

theorem address_two :
    HasTwo (addressComponent twoPages []) addressTransactions (ofString "a") (ofString "/2") :=
  ⟨by decide +kernel, by decide +kernel⟩

theorem blocks_two : HasTwo (blocksComponent twoPages) (fun _ => blocksUrl) [] (ofString "/2") :=
  ⟨by decide +kernel, by decide +kernel⟩

/-- **Where no request disturbs another**, each component shows each page once. -/
theorem shows_pages_once :
    ShowsPagesOnce (blockComponent api chain) (blockUrl api chain) (Undisturbed (blockComponent api chain)) ∧
      ShowsPagesOnce (addressComponent api chain) addressTransactions
        (Undisturbed (addressComponent api chain)) ∧
      ShowsPagesOnce (blocksComponent api) (fun _ => blocksUrl) (Undisturbed (blocksComponent api)) :=
  ⟨initial_run (blockLeads api chain), initial_run (addressLeads api chain),
    initial_run (blocksLeads api)⟩

/-- Such runs are there: a navigation and a scroll show two pages, one after the other. -/
theorem shows_pages_once_twoPages :
    (∃ s, Reaches (step (blockComponent twoPages [])) (Undisturbed (blockComponent twoPages []))
        (start ⟨none, none, false⟩ []) (visit (blockComponent twoPages []) (ofString "1") ++ scrolls 1) s ∧
      s.items = some [1, 2] ∧
      ShowsRun (blockComponent twoPages []) (blockUrl twoPages [])
        (lastNavigated (visit (blockComponent twoPages []) (ofString "1") ++ scrolls 1)) s.items) ∧
    (∃ s, Reaches (step (addressComponent twoPages [])) (Undisturbed (addressComponent twoPages []))
        (start ⟨[], none⟩ []) (visit (addressComponent twoPages []) (ofString "a") ++ scrolls 1) s ∧
      s.items = some [1, 2] ∧
      ShowsRun (addressComponent twoPages []) addressTransactions
        (lastNavigated (visit (addressComponent twoPages []) (ofString "a") ++ scrolls 1)) s.items) ∧
    ∃ s, Reaches (step (blocksComponent twoPages)) (Undisturbed (blocksComponent twoPages))
        (start () []) (visit (blocksComponent twoPages) [] ++ scrolls 1) s ∧
      s.items = some [1, 2] ∧
      ShowsRun (blocksComponent twoPages) (fun _ => blocksUrl)
        (lastNavigated (visit (blocksComponent twoPages) [] ++ scrolls 1)) s.items := by
  obtain ⟨hblock, haddress, hblocks⟩ := shows_pages_once twoPages []
  refine ⟨showsRun_two block_two hblock ?_, showsRun_two address_two haddress ?_,
    showsRun_two blocks_two hblocks ?_⟩ <;> decide +kernel

/-- **Two scrolls before the first answer** show a page twice, in each of the components, though
nothing fails and everything comes in order. -/
theorem repeats_page :
    ¬ ShowsPagesOnce (blockComponent twoPages []) (blockUrl twoPages []) Arrives ∧
      ¬ ShowsPagesOnce (addressComponent twoPages []) addressTransactions Arrives ∧
      ¬ ShowsPagesOnce (blocksComponent twoPages) (fun _ => blocksUrl) Arrives := by
  refine ⟨?_, ?_, ?_⟩
  · exact not_showsPagesOnce block_two ⟨none, none, false⟩ [] (by decide +kernel) (by decide +kernel)
  · exact not_showsPagesOnce address_two ⟨[], none⟩ [] (by decide +kernel) (by decide +kernel)
  · exact not_showsPagesOnce blocks_two () [] (by decide +kernel) (by decide +kernel)

end Blockcore.ClientApp.Explorer
