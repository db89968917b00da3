import Mathlib.Data.List.Basic
import Mathlib.Tactic

/-!
# Paths

Path strings with `/` between the names, as `System.IO.Path` joins and normalises
them on Unix.  (On Windows a back slash separates names, too, a drive may stand before
a path, and names are told apart without their case; none of this is here.)

`place` is where a rooted path leads to, the names on the way down; two paths lead to
the same file or directory exactly if their places are equal.

`place_combine` says that a single name leads one level down, and `place_render`
that a place is written as a path that leads there.  `place_append` says where a full
path with something added leads, whatever path it is of.
-/

namespace Blockcore.Lib.Paths

def split (path : String) : List String := (path.toList.splitOn '/').map String.ofList

/-- One name further: an empty one and `.` stay, `..` goes up. -/
def enter (place : List String) (name : String) : List String :=
  if name = "" ∨ name = "." then place
  else if name = ".." then place.dropLast
  else place ++ [name]

def place (path : String) : List String := (split path).foldl enter []

/-- `Path.IsPathRooted`. -/
def isPathRooted (path : String) : Bool := path.toList.head? == some '/'

/-- `Path.EndsInDirectorySeparator`. -/
def endsInSeparator (path : String) : Bool := path.toList.getLast? == some '/'

/-- `Path.Combine`. -/
def combine (path1 path2 : String) : String :=
  if path1 = "" then path2
  else if path2 = "" then path1
  else if isPathRooted path2 then path2
  else if endsInSeparator path1 then path1 ++ path2
  else path1 ++ "/" ++ path2

def render (names : List String) : String :=
  String.ofList (names.flatMap fun name => '/' :: name.toList)

/-- `Path.GetFullPath`, of a rooted path. -/
def getFullPath (path : String) : String :=
  if place path = [] then "/"
  else if endsInSeparator path then render (place path) ++ "/"
  else render (place path)

/-- One name, and one that leads down. -/
structure SingleName (name : String) : Prop where
  not_empty : name ≠ ""
  not_dot : name ≠ "."
  not_dotdot : name ≠ ".."
  no_separator : '/' ∉ name.toList

theorem singleName_append {name suffix : String} (h : '/' ∉ name.toList)
    (hs : '/' ∉ suffix.toList) (hlen : 2 < suffix.toList.length) : SingleName (name ++ suffix) := by
  have hne : ∀ s : String, s.toList.length ≤ 2 → name ++ suffix ≠ s := by
    intro s hs heq
    have := congrArg (fun s => s.toList.length) heq
    simp only [String.toList_append, List.length_append] at this
    omega
  refine ⟨hne "" (by decide), hne "." (by decide), hne ".." (by decide), ?_⟩
  rw [String.toList_append, List.mem_append]
  rintro (hmem | hmem)
  · exact h hmem
  · exact hs hmem

theorem endsInSeparator_append (path : String) {suffix : String} (h : suffix ≠ "") :
    endsInSeparator (path ++ suffix) = endsInSeparator suffix := by
  have hne : suffix.toList ≠ [] := fun hnil => h (String.toList_injective hnil)
  rw [endsInSeparator, endsInSeparator, String.toList_append, List.getLast?_append_of_ne_nil _ hne]

/-! ### Where paths lead to -/

theorem split_append (path1 path2 : String) :
    split (path1 ++ "/" ++ path2) = split path1 ++ split path2 := by
  have hlist : (path1 ++ "/" ++ path2).toList = path1.toList ++ '/' :: path2.toList := by
    simp [String.toList_append]
  rw [split, hlist, List.splitOn_append_cons_self, List.map_append]
  rfl

theorem split_of_no_separator {name : String} (h : '/' ∉ name.toList) : split name = [name] := by
  rw [split, List.splitOn_eq_singleton h, List.map_singleton, String.ofList_toList]

theorem SingleName.enter {name : String} (h : SingleName name) (at_ : List String) :
    enter at_ name = at_ ++ [name] := by
  rw [Paths.enter, if_neg (by simp [h.not_empty, h.not_dot]), if_neg h.not_dotdot]

theorem place_separator (path : String) : place (path ++ "/") = place path := by
  have hsplit : split (path ++ "/") = split path ++ [""] := by
    have := split_append path ""
    rw [String.append_empty] at this
    exact this
  rw [place, hsplit, List.foldl_append]
  rfl

theorem eq_append_separator {path : String} (h : endsInSeparator path = true) :
    ∃ path', path = path' ++ "/" := by
  rw [endsInSeparator, beq_iff_eq] at h
  obtain ⟨cs, hcs⟩ := List.getLast?_eq_some_iff.mp h
  refine ⟨String.ofList cs, String.toList_injective ?_⟩
  rw [hcs, String.toList_append, String.toList_ofList]
  rfl

theorem place_combine (path : String) {name : String} (h : SingleName name) :
    place (combine path name) = place path ++ [name] := by
  have hsplit := split_of_no_separator h.no_separator
  have hrooted : isPathRooted name = false := by
    rw [isPathRooted, beq_eq_false_iff_ne]
    exact fun hhead => h.no_separator (List.mem_of_head? hhead)
  have hjoin : ∀ path, place (path ++ "/" ++ name) = place path ++ [name] := by
    intro path
    rw [place, split_append, hsplit, List.foldl_append]
    exact h.enter _
  rw [combine]
  split
  · next hempty =>
    rw [hempty, place, hsplit]
    exact h.enter []
  · rw [if_neg h.not_empty, hrooted, if_neg (by simp)]
    split
    · next hsep =>
      obtain ⟨path', rfl⟩ := eq_append_separator hsep
      rw [hjoin, place_separator]
    · exact hjoin path

theorem not_endsInSeparator_combine (path : String) {name : String} (h : SingleName name) :
    endsInSeparator (combine path name) = false := by
  have hrooted : isPathRooted name = false := by
    rw [isPathRooted, beq_eq_false_iff_ne]
    exact fun hhead => h.no_separator (List.mem_of_head? hhead)
  have hlast : ∀ path, endsInSeparator (path ++ name) = false := by
    intro path
    rw [endsInSeparator_append path h.not_empty, endsInSeparator, beq_eq_false_iff_ne]
    exact fun hlast => h.no_separator (List.mem_of_getLast? hlast)
  simp only [combine, hrooted, if_neg h.not_empty, Bool.false_eq_true, if_false]
  split
  · have := hlast ""
    rwa [String.empty_append] at this
  · split
    · exact hlast path
    · exact hlast (path ++ "/")

/-! ### Places as paths -/

theorem render_concat (names : List String) (name : String) :
    render (names ++ [name]) = render names ++ "/" ++ name := by
  apply String.toList_injective
  simp [render, String.toList_append]

theorem place_render {names : List String} (h : ∀ name ∈ names, SingleName name) :
    place (render names) = names := by
  induction names using List.reverseRecOn with
  | nil => rfl
  | append_singleton names name ih =>
    have hname := h name (by simp)
    rw [render_concat, place, split_append, split_of_no_separator hname.no_separator, List.foldl_append]
    show enter (place (render names)) name = _
    rw [ih fun n hn => h n (by simp [hn]), hname.enter]

theorem not_mem_of_mem_splitOn {path name : List Char} (h : name ∈ path.splitOn '/') :
    '/' ∉ name := by
  induction path generalizing name with
  | nil =>
    rw [List.splitOn_nil, List.mem_singleton] at h
    simp [h]
  | cons c path ih =>
    rw [List.splitOn_cons_eq_if_modifyHead] at h
    split at h
    · rcases List.mem_cons.mp h with rfl | h
      · simp
      · exact ih h
    · next hc =>
      -- the character goes before the first name
      obtain ⟨first, rest, hrest⟩ := List.exists_cons_of_ne_nil (List.splitOn_ne_nil '/' path)
      rw [hrest, List.modifyHead_cons] at h
      rcases List.mem_cons.mp h with rfl | h
      · intro hmem
        rcases List.mem_cons.mp hmem with rfl | hmem
        · exact hc (beq_self_eq_true '/')
        · exact ih (by rw [hrest]; simp) hmem
      · exact ih (by rw [hrest]; simp [h])

theorem singleName_of_mem_place {path name : String} (h : name ∈ place path) : SingleName name := by
  have hsplit : ∀ name ∈ split path, '/' ∉ name.toList := by
    intro name hname
    obtain ⟨cs, hcs, rfl⟩ := List.mem_map.mp hname
    rw [String.toList_ofList]
    exact not_mem_of_mem_splitOn hcs
  rw [place] at h
  generalize split path = names at h hsplit
  induction names using List.reverseRecOn with
  | nil => cases h
  | append_singleton names n ih =>
    rw [List.foldl_concat, enter] at h
    have hrest := fun h => ih h fun name hname => hsplit name (by simp [hname])
    split at h
    · exact hrest h
    · next hn =>
      split at h
      · exact hrest (List.mem_of_mem_dropLast h)
      · next hn' =>
        rcases List.mem_append.mp h with h | h
        · exact hrest h
        · rw [List.mem_singleton.mp h]
          push Not at hn
          exact ⟨hn.1, hn.2, hn', hsplit n (by simp)⟩

theorem getFullPath_combine (path : String) {name : String} (h : SingleName name) :
    getFullPath (combine path name) = render (place path ++ [name]) := by
  rw [getFullPath, place_combine path h, if_neg (by simp), not_endsInSeparator_combine path h,
    if_neg (by simp)]

theorem render_append (names : List String) (name suffix : String) :
    render (names ++ [name]) ++ suffix = render (names ++ [name ++ suffix]) := by
  rw [render_concat, render_concat, String.append_assoc]

theorem isPathRooted_render {names : List String} (h : names ≠ []) :
    isPathRooted (render names) = true := by
  obtain ⟨name, rest, rfl⟩ := List.exists_cons_of_ne_nil h
  simp [isPathRooted, render]

theorem isPathRooted_getFullPath (path : String) : isPathRooted (getFullPath path) = true := by
  unfold getFullPath
  split
  · decide
  · next hne =>
    obtain ⟨name, rest, hplace⟩ := List.exists_cons_of_ne_nil hne
    rw [hplace]
    split
    · simp [isPathRooted, render]
    · exact isPathRooted_render (List.cons_ne_nil name rest)

theorem combine_rooted (path1 : String) {path2 : String} (h : isPathRooted path2 = true) :
    combine path1 path2 = path2 := by
  have hne : path2 ≠ "" := by
    rintro rfl
    cases h
  rw [combine, if_neg hne, h, if_pos rfl, ite_self]

theorem endsInSeparator_render {names : List String} (h : ∀ name ∈ names, SingleName name) :
    endsInSeparator (render names) = false := by
  induction names using List.reverseRecOn with
  | nil => rfl
  | append_singleton names name =>
    have hname := h name (by simp)
    rw [render_concat, endsInSeparator_append _ hname.not_empty, endsInSeparator, beq_eq_false_iff_ne]
    exact fun hlast => hname.no_separator (List.mem_of_getLast? hlast)

theorem place_getFullPath (path : String) : place (getFullPath path) = place path := by
  have hrender := place_render (fun name (h : name ∈ place path) => singleName_of_mem_place h)
  unfold getFullPath
  split
  · next hroot =>
    rw [hroot]
    decide
  · split
    · rw [place_separator, hrender]
    · exact hrender

theorem endsInSeparator_getFullPath {path : String} (h : place path ≠ []) :
    endsInSeparator (getFullPath path) = endsInSeparator path := by
  rw [getFullPath, if_neg h]
  split
  · next hsep =>
    rw [hsep, endsInSeparator_append _ (by decide)]
    decide
  · next hsep =>
    rw [Bool.not_eq_true] at hsep
    rw [hsep]
    exact endsInSeparator_render fun name hname => singleName_of_mem_place hname

theorem getFullPath_getFullPath (path : String) : getFullPath (getFullPath path) = getFullPath path := by
  by_cases hroot : place path = []
  · have hfull : getFullPath path = "/" := if_pos hroot
    rw [hfull]
    decide
  · rw [getFullPath, place_getFullPath, endsInSeparator_getFullPath hroot, getFullPath]

/-! ### What is added to a path -/

def folderOf (path : String) : List String :=
  if endsInSeparator path then place path else (place path).dropLast

/-- The name a path gives the file, empty after a separator. -/
def nameOf (path : String) : String :=
  if endsInSeparator path then "" else (place path).getLast?.getD ""

section

variable {suffix : String}

theorem nameOf_no_separator (path : String) : '/' ∉ (nameOf path).toList := by
  unfold nameOf
  split
  · decide
  · cases hlast : (place path).getLast? with
    | none => decide
    | some name => exact (singleName_of_mem_place (List.mem_of_getLast? hlast)).no_separator

theorem singleName_of_mem_file {path name : String} (hs : '/' ∉ suffix.toList)
    (hlen : 2 < suffix.toList.length) (h : name ∈ folderOf path ++ [nameOf path ++ suffix]) :
    SingleName name := by
  rcases List.mem_append.mp h with h | h
  · unfold folderOf at h
    split at h
    · exact singleName_of_mem_place h
    · exact singleName_of_mem_place (List.mem_of_mem_dropLast h)
  · rw [List.mem_singleton.mp h]
    exact singleName_append (nameOf_no_separator path) hs hlen

theorem getFullPath_append (path : String) :
    getFullPath path ++ suffix = render (folderOf path ++ [nameOf path ++ suffix]) := by
  rw [render_concat]
  by_cases hsep : endsInSeparator path = true
  · rw [folderOf, nameOf, if_pos hsep, if_pos hsep, String.empty_append, getFullPath, if_pos hsep]
    split
    · next hroot =>
      rw [hroot]
      rfl
    · rfl
  · rw [folderOf, nameOf, if_neg hsep, if_neg hsep, getFullPath, if_neg hsep]
    split
    · next hroot =>
      rw [hroot]
      simp only [List.dropLast_nil, List.getLast?_nil, Option.getD_none, String.empty_append]
      rfl
    · next hne =>
      have hlast : (place path).dropLast ++ [(place path).getLast hne] = place path :=
        List.dropLast_append_getLast hne
      have hname : (place path).getLast?.getD "" = (place path).getLast hne := by
        rw [List.getLast?_eq_some_getLast hne, Option.getD_some]
      have hrender := render_append (place path).dropLast ((place path).getLast hne) suffix
      rw [hlast, render_concat] at hrender
      rw [hname]
      exact hrender

/-- **What is added to a full path** is added to the name in its folder. -/
theorem place_append (path : String) (hs : '/' ∉ suffix.toList) (hlen : 2 < suffix.toList.length) :
    place (getFullPath path ++ suffix) = folderOf path ++ [nameOf path ++ suffix] := by
  rw [getFullPath_append]
  exact place_render fun name hname => singleName_of_mem_file hs hlen hname

theorem append_eq_of_place {path path' suffix' : String} (hs : '/' ∉ suffix.toList)
    (hlen : 2 < suffix.toList.length) (hs' : '/' ∉ suffix'.toList)
    (hlen' : 2 < suffix'.toList.length)
    (h : place (getFullPath path ++ suffix) = place (getFullPath path' ++ suffix')) :
    getFullPath path ++ suffix = getFullPath path' ++ suffix' := by
  rw [place_append path hs hlen, place_append path' hs' hlen'] at h
  rw [getFullPath_append, getFullPath_append, h]

end

end Blockcore.Lib.Paths
