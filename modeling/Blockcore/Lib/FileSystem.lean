import Mathlib.Data.List.AList
import Blockcore.Lib.Outcome
import Blockcore.Lib.Paths

/-!
# A file system

Files and directories by the place they are at, and the operations of
`System.IO.File` and `System.IO.Directory` on them.  An operation that changes
something may fail at any point: its `Extent` says how far the disk lets it get, and
what it did before is not undone.

`writeAllBytes_state` and `createDirectory_state` say what such an operation leaves, and
`Grounded` is what each of them keeps: every file is in a directory.
-/

namespace Blockcore.Lib

open Paths

/-- `System.IO`'s exceptions. -/
inductive IOException where
  | directoryNotFound
  | fileNotFound
  | unauthorizedAccess
  | io
  deriving DecidableEq, Repr

/-- How far an operation gets: to its end, or to a failure before it did anything or
after so many bytes or directories. -/
inductive Extent where
  | whole
  | untouched
  | cut (n : Nat)
  deriving DecidableEq, Repr

/-- The files with their contents, and the directories. -/
structure FileSystem where
  files : AList fun _ : List String => List UInt8
  directories : List (List String)

namespace FileSystem

def HasDirectory (fs : FileSystem) (at_ : List String) : Prop := at_ = [] ∨ at_ ∈ fs.directories

instance (fs : FileSystem) (at_ : List String) : Decidable (fs.HasDirectory at_) :=
  inferInstanceAs (Decidable (_ ∨ _))

def put (fs : FileSystem) (at_ : List String) (bytes : List UInt8) : FileSystem :=
  { fs with files := fs.files.insert at_ bytes }

/-- The file system with these directories, too. -/
def make (fs : FileSystem) (places : List (List String)) : FileSystem :=
  { fs with directories := places ++ fs.directories }

/-- `Directory.Exists`. -/
def directoryExists (fs : FileSystem) (path : String) : Bool := fs.HasDirectory (place path)

/-- `Directory.CreateDirectory`, with all above it. -/
def createDirectory (path : String) (extent : Extent) (fs : FileSystem) :
    Outcome IOException FileSystem :=
  if (place path).inits.any (fun at_ => (fs.files.lookup at_).isSome) then .thrown .io fs
  else
    match extent with
    | .whole => .done (fs.make (place path).inits)
    | .untouched => .thrown .io fs
    | .cut n => .thrown .io (fs.make ((place path).take n).inits)

/-- `File.WriteAllBytes`. -/
def writeAllBytes (path : String) (bytes : List UInt8) (extent : Extent) (fs : FileSystem) :
    Outcome IOException FileSystem :=
  if endsInSeparator path ∨ fs.HasDirectory (place path) then .thrown .unauthorizedAccess fs
  else if ¬ fs.HasDirectory (place path).dropLast then .thrown .directoryNotFound fs
  else
    match extent with
    | .whole => .done (fs.put (place path) bytes)
    | .untouched => .thrown .io fs
    | .cut n => .thrown .io (fs.put (place path) (bytes.take n))

/-- `File.Exists`. -/
def fileExists (fs : FileSystem) (path : String) : Bool :=
  !endsInSeparator path && (fs.files.lookup (place path)).isSome

/-- `File.ReadAllBytes`. -/
def readAllBytes (fs : FileSystem) (path : String) : Except IOException (List UInt8) :=
  if endsInSeparator path ∨ fs.HasDirectory (place path) then .error .unauthorizedAccess
  else
    match fs.files.lookup (place path) with
    | some bytes => .ok bytes
    | none =>
      if fs.HasDirectory (place path).dropLast then .error .fileNotFound
      else .error .directoryNotFound

/-- The name of a file directly in a directory. -/
def nameIn (directory at_ : List String) : Option String :=
  match at_.getLast? with
  | none => none
  | some name => if at_.dropLast = directory then some name else none

/-- `DirectoryInfo.GetFiles`: the names, with the contents. -/
def getFiles (fs : FileSystem) (path : String) : List (String × List UInt8) :=
  fs.files.entries.filterMap fun file => (nameIn (place path) file.1).map (·, file.2)

variable {fs fs' : FileSystem}

@[simp] theorem put_directories (fs : FileSystem) (at_ : List String) (bytes : List UInt8) :
    (fs.put at_ bytes).directories = fs.directories := rfl
@[simp] theorem put_files (fs : FileSystem) (at_ : List String) (bytes : List UInt8) :
    (fs.put at_ bytes).files = fs.files.insert at_ bytes := rfl
@[simp] theorem make_files (fs : FileSystem) (places : List (List String)) :
    (fs.make places).files = fs.files := rfl

/-- **A write that is done** put the file there, and nothing else. -/
theorem writeAllBytes_done {path : String} {bytes : List UInt8} {extent : Extent}
    (h : fs.writeAllBytes path bytes extent = .done fs') : fs' = fs.put (place path) bytes := by
  unfold writeAllBytes at h
  split at h
  · cases h
  · split at h
    · cases h
    · cases extent with
      | whole => exact (Outcome.done.inj h).symm
      | untouched => cases h
      | cut n => cases h

/-- **A directory that is created** is there with all above it. -/
theorem createDirectory_done {path : String} {extent : Extent}
    (h : fs.createDirectory path extent = .done fs') : fs' = fs.make (place path).inits := by
  unfold createDirectory at h
  split at h
  · cases h
  · cases extent with
    | whole => exact (Outcome.done.inj h).symm
    | untouched => cases h
    | cut n => cases h

theorem readAllBytes_of_lookup {path : String} {bytes : List UInt8}
    (hsep : endsInSeparator path = false) (hdir : ¬ fs.HasDirectory (place path))
    (h : fs.files.lookup (place path) = some bytes) : fs.readAllBytes path = .ok bytes := by
  unfold readAllBytes
  rw [if_neg (by simp [hsep, hdir]), h]

theorem fileExists_iff {path : String} (hsep : endsInSeparator path = false) :
    fs.fileExists path = true ↔ place path ∈ fs.files := by
  rw [fileExists, hsep, Bool.not_false, Bool.true_and, AList.lookup_isSome]

theorem nameIn_eq_some {directory at_ : List String} {name : String} :
    nameIn directory at_ = some name ↔ at_ = directory ++ [name] := by
  rw [nameIn]
  cases hlast : at_.getLast? with
  | none =>
    rw [List.getLast?_eq_none_iff] at hlast
    simp [hlast]
  | some last =>
    obtain ⟨names, rfl⟩ := List.getLast?_eq_some_iff.mp hlast
    by_cases h : names = directory
    · simp [h]
    · simp [h]

theorem getFiles_names (fs : FileSystem) (path : String) :
    (fs.getFiles path).map Prod.fst = fs.files.keys.filterMap (nameIn (place path)) := by
  rw [getFiles, List.map_filterMap, AList.keys, List.keys, List.filterMap_map]
  refine congrArg (List.filterMap · fs.files.entries) (funext fun file => ?_)
  rw [Option.map_map]
  exact Option.map_id'

/-- **The names listed** are those of the files directly in the directory. -/
theorem mem_getFiles_names {path name : String} :
    name ∈ (fs.getFiles path).map Prod.fst ↔ (place path ++ [name]) ∈ fs.files := by
  rw [getFiles_names, List.mem_filterMap, AList.mem_keys]
  refine ⟨?_, ?_⟩
  · rintro ⟨at_, hmem, hname⟩
    rwa [nameIn_eq_some.mp hname] at hmem
  · intro hmem
    exact ⟨_, hmem, nameIn_eq_some.mpr rfl⟩

theorem getFiles_names_nodup (fs : FileSystem) (path : String) :
    ((fs.getFiles path).map Prod.fst).Nodup := by
  rw [getFiles_names]
  refine fs.files.keys_nodup.filterMap fun at_ at_' name h h' => ?_
  rw [nameIn_eq_some.mp h, nameIn_eq_some.mp h']

/-! ### What an operation leaves -/

def Writable (fs : FileSystem) (path : String) : Prop :=
  ¬ (endsInSeparator path = true ∨ fs.HasDirectory (place path)) ∧ fs.HasDirectory (place path).dropLast

instance (fs : FileSystem) (path : String) : Decidable (fs.Writable path) :=
  inferInstanceAs (Decidable (_ ∧ _))

/-- What a write leaves in the file, if anything. -/
def left (bytes : List UInt8) : Extent → Option (List UInt8)
  | .whole => some bytes
  | .untouched => none
  | .cut n => some (bytes.take n)

def leave (fs : FileSystem) (at_ : List String) : Option (List UInt8) → FileSystem
  | none => fs
  | some bytes => fs.put at_ bytes

@[simp] theorem leave_directories (fs : FileSystem) (at_ : List String) (bytes : Option (List UInt8)) :
    (fs.leave at_ bytes).directories = fs.directories := by
  cases bytes <;> rfl

theorem lookup_leave (fs : FileSystem) (at_ : List String) (bytes : Option (List UInt8)) :
    (fs.leave at_ bytes).files.lookup at_ = bytes.or (fs.files.lookup at_) := by
  cases bytes with
  | none => rw [Option.none_or]; rfl
  | some bytes => exact AList.lookup_insert fs.files

theorem lookup_leave_ne (fs : FileSystem) {at_ at_' : List String} (bytes : Option (List UInt8))
    (h : at_' ≠ at_) : (fs.leave at_ bytes).files.lookup at_' = fs.files.lookup at_' := by
  cases bytes with
  | none => rfl
  | some bytes => exact AList.lookup_insert_ne h

/-- **What a write leaves**, done or not. -/
theorem writeAllBytes_state (fs : FileSystem) (path : String) (bytes : List UInt8) (extent : Extent) :
    (fs.writeAllBytes path bytes extent).state =
      fs.leave (place path) (if fs.Writable path then left bytes extent else none) := by
  unfold writeAllBytes
  split
  · next h =>
    rw [if_neg (fun hw => hw.1 h)]
    rfl
  · next h =>
    split
    · next hdir =>
      rw [if_neg (fun hw => hdir hw.2)]
      rfl
    · next hdir =>
      rw [if_pos ⟨h, not_not.mp hdir⟩]
      cases extent <;> rfl

theorem writeAllBytes_threw (fs : FileSystem) (path : String) (bytes : List UInt8) (extent : Extent) :
    (fs.writeAllBytes path bytes extent).threw = false ↔ fs.Writable path ∧ extent = .whole := by
  unfold writeAllBytes Writable
  split
  · next h => simp [h]
  · next h =>
    split
    · next hdir => simp [hdir]
    · next hdir =>
      rw [not_not] at hdir
      cases extent <;> simp [h, hdir]

def Creatable (fs : FileSystem) (path : String) : Prop :=
  ∀ at_ ∈ (place path).inits, (fs.files.lookup at_).isSome = false

instance (fs : FileSystem) (path : String) : Decidable (fs.Creatable path) :=
  inferInstanceAs (Decidable (∀ _ ∈ _, _))

theorem creatable_iff {path : String} :
    fs.Creatable path ↔ ¬ (place path).inits.any (fun at_ => (fs.files.lookup at_).isSome) = true := by
  simp [Creatable]

/-- The directories that creating one asks for, as far as the disk lets it get. -/
def asked (path : String) : Extent → List (List String)
  | .whole => (place path).inits
  | .untouched => []
  | .cut n => ((place path).take n).inits

/-- **What the creation of a directory leaves**, done or not. -/
theorem createDirectory_state (fs : FileSystem) (path : String) (extent : Extent) :
    (fs.createDirectory path extent).state =
      fs.make (if fs.Creatable path then asked path extent else []) := by
  unfold createDirectory
  split
  · next h =>
    rw [if_neg (fun hc => creatable_iff.mp hc h)]
    rfl
  · next h =>
    rw [if_pos (creatable_iff.mpr h)]
    cases extent <;> rfl

theorem createDirectory_threw (fs : FileSystem) (path : String) (extent : Extent) :
    (fs.createDirectory path extent).threw = false ↔ fs.Creatable path ∧ extent = .whole := by
  unfold createDirectory
  rw [creatable_iff]
  split
  · next h => simp [h]
  · next h => cases extent <;> simp [h]

theorem prefix_of_mem_asked {path : String} {extent : Extent} {at_ : List String}
    (h : at_ ∈ asked path extent) : at_ <+: place path := by
  cases extent with
  | whole => exact (List.mem_inits _ _).mp h
  | untouched => cases h
  | cut n => exact ((List.mem_inits _ _).mp h).trans (List.take_prefix n _)

theorem readAllBytes_congr {path : String} (h : fs'.HasDirectory (place path) ↔ fs.HasDirectory (place path))
    (hdir : fs'.HasDirectory (place path).dropLast ↔ fs.HasDirectory (place path).dropLast)
    (hfile : fs'.files.lookup (place path) = fs.files.lookup (place path)) :
    fs'.readAllBytes path = fs.readAllBytes path := by
  simp only [readAllBytes, h, hdir, hfile]

/-! ### Files are in directories -/

/-- Every file is in a directory that is there. -/
def Grounded (fs : FileSystem) : Prop := ∀ at_ ∈ fs.files, fs.HasDirectory at_.dropLast

theorem HasDirectory.make {at_ : List String} (h : fs.HasDirectory at_) (places : List (List String)) :
    (fs.make places).HasDirectory at_ := by
  rcases h with h | h
  · exact Or.inl h
  · exact Or.inr (List.mem_append.mpr (Or.inr h))

theorem Grounded.make (h : fs.Grounded) (places : List (List String)) : (fs.make places).Grounded :=
  fun at_ hmem => (h at_ hmem).make places

theorem Grounded.put (h : fs.Grounded) {at_ : List String} (hdir : fs.HasDirectory at_.dropLast)
    (bytes : List UInt8) : (fs.put at_ bytes).Grounded := by
  intro at_' hmem
  rcases (AList.mem_insert fs.files).mp hmem with rfl | hmem
  · exact hdir
  · exact h at_' hmem

theorem Grounded.createDirectory (h : fs.Grounded) (path : String) (extent : Extent) :
    (fs.createDirectory path extent).state.Grounded := by
  unfold FileSystem.createDirectory
  split
  · exact h
  · cases extent with
    | whole => exact h.make _
    | untouched => exact h
    | cut n => exact h.make _

theorem Grounded.writeAllBytes (h : fs.Grounded) (path : String) (bytes : List UInt8)
    (extent : Extent) : (fs.writeAllBytes path bytes extent).state.Grounded := by
  unfold FileSystem.writeAllBytes
  split
  · exact h
  · split
    · exact h
    · next hdir =>
      rw [not_not] at hdir
      cases extent with
      | whole => exact h.put hdir _
      | untouched => exact h
      | cut n => exact h.put hdir _

end FileSystem

end Blockcore.Lib
