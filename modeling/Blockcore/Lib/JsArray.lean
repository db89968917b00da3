import Blockcore.Lib.Registry

/-!
# Arrays of JavaScript

An `Array` is an object: its elements are the properties whose names are indices,
and any other name may be assigned to, too.  `findIndex` returns -1 where it finds
nothing, which is no index, and `splice` and an assignment each do something else
with it.

What the two do with what `findIndex` returned is said by cutting the elements at
the first match.
-/

namespace Blockcore.Lib

/-- An array; the one name that is no index and assigned to is `-1`. -/
structure JsArray (α : Type) where
  elements : List α
  minusOne : Option α := none
  deriving DecidableEq

namespace JsArray

variable {α : Type}

/-- `new Array()`. -/
def empty : JsArray α := { elements := [] }

/-- `push`. -/
def push (xs : JsArray α) (a : α) : JsArray α := { xs with elements := xs.elements ++ [a] }

/-- `findIndex`. -/
def findIndex (p : α → Bool) (xs : JsArray α) : Int :=
  match firstMatch p xs.elements with
  | none => -1
  | some (_, i) => i

/-- `splice(start)`, with one argument: it removes all from there on. A negative start
counts from the end. -/
def splice (start : Int) (xs : JsArray α) : JsArray α :=
  let length : Int := xs.elements.length
  let start := if start < 0 then max (length + start) 0 else min start length
  { xs with elements := xs.elements.take start.toNat }

/-- `xs[index] = a`, of an index there is, or of -1. -/
def assign (index : Int) (a : α) (xs : JsArray α) : JsArray α :=
  if index < 0 then { xs with minusOne := some a }
  else { xs with elements := xs.elements.set index.toNat a }

variable {p : α → Bool} {xs : JsArray α} {as bs : List α} {a : α}

theorem findIndex_of_none (h : ∀ x ∈ xs.elements, p x = false) : xs.findIndex p = -1 := by
  rw [findIndex, firstMatch_eq_none_iff.mpr h]

theorem findIndex_of_cut (hl : xs.elements = as ++ a :: bs) (ha : p a = true)
    (has : ∀ x ∈ as, p x = false) : xs.findIndex p = as.length := by
  have hfirst : firstMatch p xs.elements = some (a, as.length) :=
    firstMatch_eq_some_iff.mpr ⟨as, bs, hl, rfl, ha, has⟩
  rw [findIndex, hfirst]

/-- **Splicing at no match** takes the last element off. -/
theorem splice_of_none (h : ∀ x ∈ xs.elements, p x = false) :
    (xs.splice (xs.findIndex p)).elements = xs.elements.dropLast := by
  rw [findIndex_of_none h, splice, List.dropLast_eq_take]
  refine congrArg (List.take · xs.elements) ?_
  simp only [Int.reduceNeg, Int.reduceLT, if_true]
  omega

/-- **Splicing at a match** takes all behind it off, too. -/
theorem splice_of_cut (hl : xs.elements = as ++ a :: bs) (ha : p a = true)
    (has : ∀ x ∈ as, p x = false) : (xs.splice (xs.findIndex p)).elements = as := by
  rw [findIndex_of_cut hl ha has, splice, hl]
  simp only [List.length_append, List.length_cons]
  rw [if_neg (by omega), Int.min_eq_left (by omega), Int.toNat_natCast, List.take_left]

/-- **An assignment at no match** leaves the elements alone. -/
theorem assign_of_none (h : ∀ x ∈ xs.elements, p x = false) (b : α) :
    (xs.assign (xs.findIndex p) b).elements = xs.elements := by
  rw [findIndex_of_none h]
  rfl

/-- **An assignment at a match** is one to the match. -/
theorem assign_of_cut (hl : xs.elements = as ++ a :: bs) (ha : p a = true)
    (has : ∀ x ∈ as, p x = false) (b : α) :
    (xs.assign (xs.findIndex p) b).elements = as ++ b :: bs := by
  rw [findIndex_of_cut hl ha has, assign, if_neg (by omega), Int.toNat_natCast, hl, set_cut]

end JsArray

end Blockcore.Lib
