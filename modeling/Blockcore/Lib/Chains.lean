import Mathlib.Logic.Basic
import Mathlib.Tactic

/-!
# Chains

Every place has a content, and a next place or none.  `Chain content next place contents`
says that these are the contents from the place on, to an end; there is at most one such
list (`Chain.unique`).
-/

namespace Blockcore.Lib

variable {κ α : Type}

/-- The contents from the place on, to the end. -/
inductive Chain (content : κ → α) (next : κ → Option κ) : κ → List α → Prop where
  | last {place : κ} (hend : next place = none) : Chain content next place [content place]
  | more {place place' : κ} {rest : List α} (hnext : next place = some place')
    (hrest : Chain content next place' rest) : Chain content next place (content place :: rest)

/-- The contents from the place on, if there is a place. -/
def Ahead (content : κ → α) (next : κ → Option κ) : Option κ → List α → Prop
  | none, rest => rest = []
  | some place, rest => Chain content next place rest

variable {content : κ → α} {next : κ → Option κ} {place : κ} {contents rest : List α}

theorem Chain.first_rest (h : Chain content next place contents) :
    ∃ rest, contents = content place :: rest ∧ Ahead content next (next place) rest := by
  cases h with
  | last hend => exact ⟨[], rfl, by rw [hend]; rfl⟩
  | more hnext hrest => exact ⟨_, rfl, by rw [hnext]; exact hrest⟩

/-- **A chain is determined** by where it begins. -/
theorem Chain.unique {contents' : List α} (h : Chain content next place contents)
    (h' : Chain content next place contents') : contents = contents' := by
  induction h generalizing contents' with
  | last hend =>
    obtain ⟨rest, rfl, hrest⟩ := h'.first_rest
    rw [hend] at hrest
    rw [show rest = [] from hrest]
  | more hnext _ ih =>
    obtain ⟨rest, rfl, hrest⟩ := h'.first_rest
    rw [hnext] at hrest
    rw [ih hrest]

end Blockcore.Lib
