import Blockcore.Networking.MessageMaps

/-!
# The sources of a configuration

`AddJsonStream` appends a source to those of the builder.  A later source has
precedence over an earlier one, so `AddJsonStreamFirstIndex` brings the new source
to the front, within the list: from the end down, each source is moved one index up,
and what is left at the first index is overwritten.

A list refuses an index that is not there.  The loop's invariant is `shifted`: before
the round of index `i`, the sources at the indices above `i` are those that stood one
index lower.
-/

namespace Blockcore.Networking.ConfigurationBuilder

variable {Source Stream : Type}

/-! ### The list of sources -/

/-- `sources[index]`. -/
def item (sources : List Source) (index : Nat) : Except Exception Source :=
  match sources[index]? with
  | none => .error .argumentOutOfRange
  | some source => .ok source

/-- `sources[index] = source`. -/
def setItem (sources : List Source) (index : Nat) (source : Source) : Except Exception (List Source) :=
  if index < sources.length then .ok (sources.set index source) else .error .argumentOutOfRange

/-- `sources[i + 1] = sources[i]`. -/
def moveUp (sources : List Source) (i : Nat) : Except Exception (List Source) := do
  let source ← item sources i
  setItem sources (i + 1) source

/-- `for (int i = count; i-- > 0;)`: a round sees the index after it is decremented. -/
def moveAllUp : Nat → List Source → Except Exception (List Source)
  | 0, sources => .ok sources
  | i + 1, sources => do
    let sources ← moveUp sources i
    moveAllUp i sources

/-- The rounds of the loop, each with its index and the sources it finds. -/
def rounds : Nat → List Source → List (Nat × List Source)
  | 0, _ => []
  | i + 1, sources =>
    (i, sources) ::
      match moveUp sources i with
      | .error _ => []
      | .ok sources => rounds i sources

/-- `AddJsonStreamFirstIndex`, of a builder with these sources. -/
def addJsonStreamFirstIndex (addJsonStream : Stream → List Source → List Source) (stream : Stream)
    (builder : List Source) : Except Exception (List Source) := do
  let count := builder.length
  let sources := addJsonStream stream builder
  let lastSource ← item sources count
  let sources ← moveAllUp count sources
  setItem sources 0 lastSource

theorem item_of_lt {sources : List Source} {index : Nat} (h : index < sources.length) :
    item sources index = .ok sources[index] := by
  rw [item, List.getElem?_eq_getElem h]

theorem setItem_of_lt {sources : List Source} {index : Nat} (h : index < sources.length)
    (source : Source) : setItem sources index source = .ok (sources.set index source) := if_pos h

theorem moveUp_of_lt {sources : List Source} {i : Nat} (h : i + 1 < sources.length) :
    moveUp sources i = .ok (sources.set (i + 1) sources[i]) := by
  rw [moveUp, item_of_lt (by omega)]
  exact setItem_of_lt h _

/-! ### The loop -/

/-- The sources before the round of index `i`: those from `i` on stand one index higher, and the
one at `i` still stands there, too. -/
def shifted (sources : List Source) (last : Source) (i : Nat) : List Source :=
  (sources ++ [last]).take (i + 1) ++ sources.drop i

theorem shifted_length {sources : List Source} {last : Source} {i : Nat} (hi : i ≤ sources.length) :
    (shifted sources last i).length = sources.length + 1 := by
  rw [shifted, List.length_append, List.length_take, List.length_append, List.length_drop,
    List.length_singleton]
  omega

theorem shifted_all (sources : List Source) (last : Source) :
    shifted sources last sources.length = sources ++ [last] := by
  rw [shifted, List.drop_length, List.append_nil]
  apply List.take_of_length_le
  simp

/-- **One round**: the source at the index is moved one up. -/
theorem moveUp_shifted {sources : List Source} {last : Source} {i : Nat} (hi : i < sources.length) :
    moveUp (shifted sources last (i + 1)) i = .ok (shifted sources last i) := by
  have hlen : (shifted sources last (i + 1)).length = sources.length + 1 := shifted_length hi
  have hall : (sources ++ [last]).length = sources.length + 1 := by simp
  have hnext : i + 1 < (sources ++ [last]).length := by omega
  have hround : i + 1 < (shifted sources last (i + 1)).length := by omega
  have hfront : ((sources ++ [last]).take (i + 1)).length = i + 1 := by
    rw [List.length_take]
    omega
  -- the source at `i + 1` is the one that is overwritten
  have hcut : shifted sources last (i + 1) = (sources ++ [last]).take (i + 1) ++
      (sources ++ [last])[i + 1] :: sources.drop (i + 1) := by
    rw [shifted, ← List.take_concat_get' (sources ++ [last]) (i + 1) hnext, List.append_assoc]
    rfl
  have hitem : (shifted sources last (i + 1))[i] = sources[i] := by
    simp only [hcut]
    rw [List.getElem_append_left (by omega), List.getElem_take, List.getElem_append_left hi]
  rw [moveUp_of_lt hround, hitem, hcut, List.set_append_right _ _ (by omega), hfront, Nat.sub_self,
    List.set_cons_zero, shifted, List.drop_eq_getElem_cons hi]

/-- **The loop** moves all sources up. -/
theorem moveAllUp_shifted {sources : List Source} {last : Source} {i : Nat} (hi : i ≤ sources.length) :
    moveAllUp i (shifted sources last i) = .ok (shifted sources last 0) := by
  induction i with
  | zero => rfl
  | succ i ih =>
    rw [moveAllUp, moveUp_shifted hi]
    exact ih (by omega)

/-- **Every round** uses indices within bounds. -/
theorem rounds_within {sources : List Source} {last : Source} {i : Nat} (hi : i ≤ sources.length) :
    ∀ round ∈ rounds i (shifted sources last i),
      round.1 < round.2.length ∧ round.1 + 1 < round.2.length := by
  induction i with
  | zero =>
    intro round hround
    cases hround
  | succ i ih =>
    intro round hround
    rw [rounds, moveUp_shifted hi] at hround
    rcases List.mem_cons.mp hround with rfl | hround
    · have hlen : (shifted sources last (i + 1)).length = sources.length + 1 := shifted_length hi
      show i < (shifted sources last (i + 1)).length ∧ i + 1 < (shifted sources last (i + 1)).length
      omega
    · exact ih (by omega) round hround

/-! ### The builder -/

section

variable {addJsonStream : Stream → List Source → List Source} {stream : Stream} {builder : List Source}
  {source : Source}

theorem addJsonStreamFirstIndex_eq (hadd : addJsonStream stream builder = builder ++ [source]) :
    addJsonStreamFirstIndex addJsonStream stream builder = .ok (source :: builder) := by
  have hitem : item (builder ++ [source]) builder.length = .ok source := by
    rw [item_of_lt (by simp), List.getElem_concat_length rfl]
  have hloop : moveAllUp builder.length (builder ++ [source]) = .ok (shifted builder source 0) := by
    rw [← shifted_all]
    exact moveAllUp_shifted (Nat.le_refl _)
  have hset : setItem (shifted builder source 0) 0 source = .ok (source :: builder) := by
    rw [setItem_of_lt (by rw [shifted_length (Nat.zero_le _)]; omega)]
    cases builder <;> rfl
  simp only [addJsonStreamFirstIndex, hadd]
  rw [hitem]
  show (moveAllUp builder.length (builder ++ [source])).bind
    (fun sources => setItem sources 0 source) = _
  rw [hloop]
  exact hset

/-- The value of a key, of which each source has one or none: the last source that has one
decides. -/
def lookup (get : Source → Option String) (sources : List Source) : Option String :=
  sources.reverse.findSome? get

/-- **The new source only fills in** what no other source says. -/
theorem lookup_addJsonStreamFirstIndex (hadd : addJsonStream stream builder = builder ++ [source])
    (get : Source → Option String) :
    ∃ sources, addJsonStreamFirstIndex addJsonStream stream builder = .ok sources ∧
      lookup get sources = (lookup get builder).or (get source) := by
  refine ⟨source :: builder, addJsonStreamFirstIndex_eq hadd, ?_⟩
  rw [lookup, lookup, List.reverse_cons, List.findSome?_append, List.findSome?_singleton]

end

/-- **`AddJsonStreamFirstIndex` is a rotation**, and every index its loop uses is within
bounds. -/
theorem addJsonStreamFirstIndex_rotates {addJsonStream : Stream → List Source → List Source}
    (happends : ∀ stream sources, ∃ source, addJsonStream stream sources = sources ++ [source])
    (stream : Stream) (builder : List Source) :
    (∃ source, addJsonStream stream builder = builder ++ [source] ∧
      addJsonStreamFirstIndex addJsonStream stream builder = .ok (source :: builder)) ∧
      ∀ round ∈ rounds builder.length (addJsonStream stream builder),
        round.1 < round.2.length ∧ round.1 + 1 < round.2.length := by
  obtain ⟨source, hadd⟩ := happends stream builder
  refine ⟨⟨source, hadd, addJsonStreamFirstIndex_eq hadd⟩, ?_⟩
  rw [hadd, ← shifted_all]
  exact rounds_within (Nat.le_refl _)

/-- Sources that are numbers, of which the streams are copies. -/
theorem addJsonStreamFirstIndex_rotates_numbers :
    (∃ source, [1, 2] ++ [3] = [1, 2] ++ [source] ∧
      addJsonStreamFirstIndex (fun stream sources => sources ++ [stream]) 3 [1, 2] =
        .ok (source :: [1, 2])) ∧
      ∀ round ∈ rounds 2 [1, 2, 3], round.1 < round.2.length ∧ round.1 + 1 < round.2.length :=
  addJsonStreamFirstIndex_rotates (fun stream _ => ⟨stream, rfl⟩) 3 [1, 2]

end Blockcore.Networking.ConfigurationBuilder
