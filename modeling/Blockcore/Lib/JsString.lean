import Mathlib.Data.List.Infix
import Mathlib.Tactic

/-!
# Strings of JavaScript

A string is a list of units, 16 bits each.  `indexOf`, `substring`, `replace` and
`split` look for a text in it, each for the first occurrence; nothing in them depends on
what the units are.

`Avoids text a rest` says that no occurrence of the text begins within `a` where `rest`
follows.  `indexOf_append`, `replace_append` and `split_append` are what the methods do
at the first occurrence; `avoids_append`, `avoids_of_head` and `avoids_of_boundary` say
when it is the first.
-/

namespace Blockcore.Lib

abbrev JsString := List UInt16

namespace JsString

def units (c : Char) : JsString :=
  if c.toNat < 0x10000 then [UInt16.ofNat c.toNat]
  else
    let n := c.toNat - 0x10000
    [UInt16.ofNat (0xD800 + n / 0x400), UInt16.ofNat (0xDC00 + n % 0x400)]

def ofString (s : String) : JsString := s.toList.flatMap units

variable {α : Type} [DecidableEq α]

def find? (text : List α) : List α → Option Nat
  | [] => if text = [] then some 0 else none
  | c :: s => if text <+: c :: s then some 0 else (find? text s).map (· + 1)

/-- `s.indexOf(text)`. -/
def indexOf (s text : List α) : Int :=
  match find? text s with
  | none => -1
  | some n => n

def clamp (s : List α) (position : Int) : Nat := (min position s.length).toNat

/-- `s.substring(start, end)`: the lower position comes first, whichever it is. -/
def substring (s : List α) (start stop : Int) : List α :=
  let a := clamp s start
  let b := clamp s stop
  (s.take (max a b)).drop (min a b)

/-- `s.substring(start)`. -/
def substringFrom (s : List α) (start : Int) : List α := substring s start s.length

/-- `s.replace(text, by)`, of a text; only the first occurrence is replaced. -/
def replace (s text replacement : List α) : List α :=
  match find? text s with
  | none => s
  | some n => s.take n ++ replacement ++ s.drop (n + text.length)

/-- The sections that remain; so many units belong to a separator, and `part` is what
has been read of the first. -/
def splitAux (separator : List α) : List α → Nat → List α → List (List α)
  | part, _, [] => [part]
  | part, skip + 1, _ :: s => splitAux separator part skip s
  | part, 0, c :: s =>
    if separator <+: c :: s then part :: splitAux separator [] (separator.length - 1) s
    else splitAux separator (part ++ [c]) 0 s

/-- `s.split(separator)`, of a separator that is not empty. -/
def split (s separator : List α) : List (List α) := splitAux separator [] 0 s

/-- `sections.join(separator)`. -/
def join (sections : List (List α)) (separator : List α) : List α := separator.intercalate sections

/-! ### Where a text begins -/

/-- No occurrence of the text begins within `a`, where `rest` follows. -/
def Avoids (text a rest : List α) : Prop := ∀ k < a.length, ¬ text <+: (a ++ rest).drop k

variable {text separator a b rest : List α} {c : α}

omit [DecidableEq α] in
theorem avoids_nil : Avoids text [] rest := by
  intro k hk
  cases hk

omit [DecidableEq α] in
theorem avoids_cons : Avoids text (c :: a) rest ↔ ¬ text <+: c :: (a ++ rest) ∧ Avoids text a rest := by
  refine ⟨?_, ?_⟩
  · intro h
    refine ⟨h 0 (by simp), ?_⟩
    intro k hk
    exact h (k + 1) (by rw [List.length_cons]; omega)
  · rintro ⟨h0, h⟩ k hk
    cases k with
    | zero => exact h0
    | succ k => exact h k (by rw [List.length_cons] at hk; omega)

omit [DecidableEq α] in
theorem avoids_append : Avoids text (a ++ b) rest ↔ Avoids text a (b ++ rest) ∧ Avoids text b rest := by
  induction a with
  | nil => exact ⟨fun h => ⟨avoids_nil, h⟩, fun h => h.2⟩
  | cons c a ih => rw [List.cons_append, avoids_cons, avoids_cons, ih, List.append_assoc, and_assoc]

omit [DecidableEq α] in
theorem avoids_of_head (h : c ∉ a) : Avoids (c :: text) a rest := by
  induction a with
  | nil => exact avoids_nil
  | cons d a ih =>
    refine avoids_cons.mpr ⟨?_, ih fun hmem => h (List.mem_cons_of_mem d hmem)⟩
    intro hpre
    have hc : c = d := (List.cons_prefix_cons.mp hpre).1
    exact h (hc ▸ List.mem_cons_self ..)

omit [DecidableEq α] in
theorem avoids_of_boundary (ha : ¬ text <:+: a) (hc : c ∉ text) : Avoids text a (c :: rest) := by
  intro k hk hpre
  rw [List.drop_append_of_le_length (by omega)] at hpre
  by_cases hlen : text.length ≤ (a.drop k).length
  · have hin : text <+: a.drop k :=
      List.prefix_of_prefix_length_le hpre (List.prefix_append _ _) hlen
    exact ha (hin.isInfix.trans (List.drop_suffix k a).isInfix)
  · -- then the unit behind `a` is one of the text
    obtain ⟨more, hmore⟩ := hpre
    have hfront : a.drop k ++ [c] <+: a.drop k ++ c :: rest := ⟨rest, by simp⟩
    have hcut : a.drop k ++ [c] <+: text := by
      refine List.prefix_of_prefix_length_le hfront ⟨more, hmore⟩ ?_
      rw [List.length_append, List.length_singleton]
      omega
    exact hc (hcut.subset (by simp))

/-! ### The first occurrence -/

theorem find?_append (h : Avoids text a (text ++ rest)) :
    find? text (a ++ (text ++ rest)) = some a.length := by
  induction a with
  | nil =>
    rw [List.nil_append]
    cases hs : text ++ rest with
    | nil => exact if_pos (List.append_eq_nil_iff.mp hs).1
    | cons c s => exact if_pos (hs ▸ List.prefix_append text rest)
  | cons c a ih =>
    obtain ⟨h0, h⟩ := avoids_cons.mp h
    rw [List.cons_append, find?, if_neg h0, ih h]
    rfl

theorem indexOf_append (h : Avoids text a (text ++ rest)) :
    indexOf (a ++ (text ++ rest)) text = a.length := by
  rw [indexOf, find?_append h]

theorem replace_append (h : Avoids text a (text ++ rest)) (replacement : List α) :
    replace (a ++ (text ++ rest)) text replacement = a ++ replacement ++ rest := by
  simp only [replace, find?_append h]
  rw [List.take_left, ← List.append_assoc, List.drop_left' List.length_append]

omit [DecidableEq α] in
theorem clamp_natCast {s : List α} {n : Nat} (h : n ≤ s.length) : clamp s n = n := by
  rw [clamp]
  omega

omit [DecidableEq α] in
theorem substring_append {i j : Int} (hi : i = a.length) (hj : j = a.length + b.length) :
    substring (a ++ b ++ rest) i j = b := by
  have hlen : (a ++ b ++ rest).length = a.length + b.length + rest.length := by
    simp only [List.length_append]
  have hi' : clamp (a ++ b ++ rest) i = a.length := by
    rw [hi]
    exact clamp_natCast (by omega)
  have hj' : clamp (a ++ b ++ rest) j = a.length + b.length := by
    rw [hj, ← Nat.cast_add]
    exact clamp_natCast (by omega)
  simp only [substring, hi', hj']
  rw [Nat.max_eq_right (by omega), Nat.min_eq_left (by omega),
    List.take_left' List.length_append, List.drop_left]

omit [DecidableEq α] in
theorem substringFrom_append {i : Int} (hi : i = a.length) : substringFrom (a ++ b) i = b := by
  have hpart : substring (a ++ b ++ []) i (a.length + b.length) = b := substring_append hi rfl
  rw [List.append_nil] at hpart
  rw [substringFrom, List.length_append, Nat.cast_add]
  exact hpart

/-! ### Splitting -/

theorem splitAux_skip (separator part t s : List α) :
    splitAux separator part t.length (t ++ s) = splitAux separator part 0 s := by
  induction t with
  | nil => rfl
  | cons c t ih => exact ih

theorem splitAux_last (h : Avoids separator a []) (part : List α) :
    splitAux separator part 0 a = [part ++ a] := by
  induction a generalizing part with
  | nil => rw [splitAux, List.append_nil]
  | cons c a ih =>
    obtain ⟨h0, h⟩ := avoids_cons.mp h
    rw [List.append_nil] at h0
    rw [splitAux, if_neg h0, ih h, List.append_assoc, List.singleton_append]

theorem splitAux_append (hsep : separator ≠ []) (h : Avoids separator a (separator ++ rest))
    (part : List α) : splitAux separator part 0 (a ++ (separator ++ rest)) =
      (part ++ a) :: splitAux separator [] 0 rest := by
  induction a generalizing part with
  | nil =>
    cases separator with
    | nil => exact absurd rfl hsep
    | cons c t =>
      show splitAux (c :: t) part 0 (c :: (t ++ rest)) = _
      have hpre : c :: t <+: c :: (t ++ rest) := List.prefix_append (c :: t) rest
      rw [splitAux, if_pos hpre, List.length_cons, Nat.add_sub_cancel, splitAux_skip, List.append_nil]
  | cons c a ih =>
    obtain ⟨h0, h⟩ := avoids_cons.mp h
    rw [List.cons_append, splitAux, if_neg h0, ih h, List.append_assoc, List.singleton_append]

/-- **Splitting inverts joining** where no separator begins within a section, whatever follows
the section. -/
theorem split_join (hsep : separator ≠ []) {sections : List (List α)} (hne : sections ≠ [])
    (h : ∀ a ∈ sections, Avoids separator a [] ∧ ∀ rest, Avoids separator a (separator ++ rest)) :
    split (join sections separator) separator = sections := by
  induction sections with
  | nil => exact absurd rfl hne
  | cons a sections ih =>
    obtain ⟨hlast, hmore⟩ := h a (List.mem_cons_self ..)
    cases sections with
    | nil =>
      rw [join, List.intercalate_singleton, split, splitAux_last hlast, List.nil_append]
    | cons b sections =>
      have hrest := ih (by simp) fun x hx => h x (List.mem_cons_of_mem a hx)
      rw [join, List.intercalate_cons_cons, List.append_assoc, split, splitAux_append hsep (hmore _),
        List.nil_append]
      exact congrArg (a :: ·) hrest

end JsString

end Blockcore.Lib
