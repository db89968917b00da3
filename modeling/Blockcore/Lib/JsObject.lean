import Blockcore.Lib.JsString
import Mathlib.Logic.Function.Basic

/-!
# Objects of JavaScript

An object made by a literal has properties of its own and inherits those of
`Object.prototype`.  An assignment makes a property of its own, also where one of that
name is inherited, with one exception: `__proto__` is inherited with a setter, and the
setter ignores a string.
-/

namespace Blockcore.Lib

/-- What a property reads as. A member of `Object.prototype` is a function or an object. -/
inductive JsValue where
  | undefined
  | null
  | string (s : JsString)
  | inherited (name : JsString)
  deriving DecidableEq

/-- The string that `if (!value)` lets through; no function and no object is used as one. -/
def JsValue.nonempty : JsValue → Option JsString
  | .string s => if s = [] then none else some s
  | _ => none

theorem JsValue.nonempty_string {s : JsString} (h : s ≠ []) : (JsValue.string s).nonempty = some s :=
  if_neg h

/-- An object, by its own properties. -/
structure JsObject where
  own : JsString → Option JsValue

namespace JsObject

def proto : JsString := JsString.ofString "__proto__"

/-- The names of the members of `Object.prototype`. -/
def objectPrototype : List JsString :=
  proto :: ["constructor", "hasOwnProperty", "isPrototypeOf", "propertyIsEnumerable",
    "toLocaleString", "toString", "valueOf", "__defineGetter__", "__defineSetter__",
    "__lookupGetter__", "__lookupSetter__"].map JsString.ofString

/-- The literal that sets these properties to null. -/
def nulls (names : List JsString) : JsObject :=
  ⟨fun name => if name ∈ names then some .null else none⟩

/-- `o[name]`. -/
def get (o : JsObject) (name : JsString) : JsValue :=
  match o.own name with
  | some value => value
  | none => if name ∈ objectPrototype then .inherited name else .undefined

/-- `o[name] = value`, of a string. -/
def assign (o : JsObject) (name value : JsString) : JsObject :=
  if name = proto ∧ o.own name = none then o
  else ⟨Function.update o.own name (some (.string value))⟩

variable {o : JsObject} {name other : JsString}

theorem get_assign (hname : name ≠ proto) (value : JsString) :
    (o.assign name value).get name = .string value := by
  rw [assign, if_neg fun h => hname h.1, get]
  simp only [Function.update_self]

theorem get_assign_ne (hother : other ≠ name) (value : JsString) :
    (o.assign name value).get other = o.get other := by
  rw [assign]
  split
  · rfl
  · rw [get, get]
    simp only [Function.update_of_ne hother]

theorem own_assign_proto (ho : o.own proto = none) (name value : JsString) :
    (o.assign name value).own proto = none := by
  rw [assign]
  by_cases hname : name = proto
  · rw [if_pos ⟨hname, hname ▸ ho⟩]
    exact ho
  · rw [if_neg fun h => hname h.1]
    exact (Function.update_of_ne (fun h => hname h.symm) _ _).trans ho

theorem get_proto (ho : o.own proto = none) : o.get proto = .inherited proto := by
  rw [get, ho]
  exact if_pos (List.mem_cons_self ..)

theorem own_nulls {names : List JsString} (h : name ∉ names) : (nulls names).own name = none :=
  if_neg h

theorem get_nulls {names : List JsString} (h : name ∈ names) : (nulls names).get name = .null := by
  have hown : (nulls names).own name = some .null := if_pos h
  rw [get, hown]

def assignAll (o : JsObject) (pairs : List (JsString × JsString)) : JsObject :=
  pairs.foldl (fun o p => o.assign p.1 p.2) o

theorem get_assignAll_of_notMem {pairs : List (JsString × JsString)}
    (h : name ∉ pairs.map Prod.fst) : (o.assignAll pairs).get name = o.get name := by
  induction pairs generalizing o with
  | nil => rfl
  | cons p pairs ih =>
    rw [List.map_cons, List.mem_cons, not_or] at h
    exact (ih h.2).trans (get_assign_ne h.1 p.2)

theorem own_assignAll_proto (ho : o.own proto = none) (pairs : List (JsString × JsString)) :
    (o.assignAll pairs).own proto = none := by
  induction pairs generalizing o with
  | nil => exact ho
  | cons p pairs ih => exact ih (own_assign_proto ho p.1 p.2)

/-- **Assignments of distinct names** can all be read back, except one of `__proto__`. -/
theorem get_assignAll {pairs : List (JsString × JsString)} (hdistinct : (pairs.map Prod.fst).Nodup)
    {p : JsString × JsString} (hp : p ∈ pairs) (hname : p.1 ≠ proto) :
    (o.assignAll pairs).get p.1 = .string p.2 := by
  induction pairs generalizing o with
  | nil => cases hp
  | cons q pairs ih =>
    rw [List.map_cons, List.nodup_cons] at hdistinct
    rcases List.mem_cons.mp hp with rfl | hp
    · exact (get_assignAll_of_notMem hdistinct.1).trans (get_assign hname p.2)
    · exact ih hdistinct.2 hp

end JsObject

end Blockcore.Lib
