import Blockcore.Storage.DiskStorage

/-!
# What a `Save` leaves and a `Load` reads

The strings of a document lead to a folder, `dir`, and to a path in it, `file`, whatever
they are; the two files are that path with `.json` and with `.bin`.  So different paths have
different files (`metaFile_ne`, `dataFile_ne`), and no data file is another document's
`.json` file.

`save_state` says what a `Save` leaves, done or not: the directories it made, and in the two
files as much as the disk took.  `load_eq` says what a `Load` looks at: the folder and the
two files.
-/

namespace Blockcore.Storage

open Lib Lib.Paths Lib.FileSystem

namespace DiskStorage

def dir (storage : DiskStorage) (type : String) : String :=
  getFullPath (combine storage.dataFolder type)

/-- The full path that the id leads to from there. -/
def file (storage : DiskStorage) (type id : String) : String :=
  getFullPath (combine (storage.dir type) id)

def folder (storage : DiskStorage) (type : String) : List String := place (storage.dir type)

/-- Where the `.json` file is. -/
def metaFile (storage : DiskStorage) (type id : String) : List String :=
  place (storage.file type id ++ ".json")

/-- Where the `.bin` file is. -/
def dataFile (storage : DiskStorage) (type id : String) : List String :=
  place (storage.file type id ++ ".bin")

end DiskStorage

section

variable {codec : Codec} {storage : DiskStorage} {fs fs' : FileSystem} {document : Document}
  {type id type' id' : String} {extents : Extents}

/-! ### The two files -/

theorem getFullPath_dir (storage : DiskStorage) (type : String) :
    getFullPath (combine storage.dataFolder type) = storage.dir type := by rw [DiskStorage.dir]

theorem getFullPath_file (storage : DiskStorage) (type id : String) :
    getFullPath (combine (storage.dir type) id) = storage.file type id := by rw [DiskStorage.file]

theorem metaFile_eq (storage : DiskStorage) (type id : String) :
    storage.metaFile type id = folderOf (combine (storage.dir type) id) ++
      [nameOf (combine (storage.dir type) id) ++ ".json"] :=
  place_append _ (by decide) (by decide)

theorem dataFile_eq (storage : DiskStorage) (type id : String) :
    storage.dataFile type id = folderOf (combine (storage.dir type) id) ++
      [nameOf (combine (storage.dir type) id) ++ ".bin"] :=
  place_append _ (by decide) (by decide)

theorem metaFile_ne (h : storage.file type' id' ≠ storage.file type id) :
    storage.metaFile type' id' ≠ storage.metaFile type id := fun heq =>
  h (append_suffix_inj (append_eq_of_place (by decide) (by decide) (by decide) (by decide) heq))

theorem dataFile_ne (h : storage.file type' id' ≠ storage.file type id) :
    storage.dataFile type' id' ≠ storage.dataFile type id := fun heq =>
  h (append_suffix_inj (append_eq_of_place (by decide) (by decide) (by decide) (by decide) heq))

theorem metaFile_ne_dataFile (storage : DiskStorage) (type id type' id' : String) :
    storage.metaFile type' id' ≠ storage.dataFile type id := fun heq =>
  append_json_ne_bin _ _ (append_eq_of_place (by decide) (by decide) (by decide) (by decide) heq)

theorem not_endsInSeparator_bin (path : String) : endsInSeparator (path ++ ".bin") = false := by
  rw [endsInSeparator_append path (by decide)]
  decide

/-! ### `Save` -/

/-- The file system after `Save` saw to the folder. -/
def prepared (dir : String) (extent : Extent) (fs : FileSystem) : FileSystem :=
  if fs.directoryExists dir then fs else fs.make (if fs.Creatable dir then asked dir extent else [])

def Ready (dir : String) (extent : Extent) (fs : FileSystem) : Prop :=
  fs.directoryExists dir = true ∨ fs.Creatable dir ∧ extent = .whole

instance (dir : String) (extent : Extent) (fs : FileSystem) : Decidable (Ready dir extent fs) :=
  inferInstanceAs (Decidable (_ ∨ _))

/-- What is left in the `.json` file, if anything. -/
def metaLeft (codec : Codec) (dir file : String) (extents : Extents) (document : Document)
    (fs : FileSystem) : Option (List UInt8) :=
  if Ready dir extents.directory fs ∧ (prepared dir extents.directory fs).Writable (file ++ ".json") then
    left (codec.getBytes (DiskStorage.json codec document)) extents.metaFile
  else none

/-- What is left in the `.bin` file, if anything. -/
def dataLeft (dir file : String) (extents : Extents) (document : Document) (fs : FileSystem) :
    Option (List UInt8) :=
  if (Ready dir extents.directory fs ∧
        (prepared dir extents.directory fs).Writable (file ++ ".json")) ∧
      extents.metaFile = .whole ∧ (prepared dir extents.directory fs).Writable (file ++ ".bin") then
    document.data.bind (left · extents.dataFile)
  else none

theorem writable_leave {at_ : List String} {bytes : Option (List UInt8)} {path : String} :
    (fs.leave at_ bytes).Writable path ↔ fs.Writable path := by
  simp only [Writable, HasDirectory, leave_directories]

theorem saveIn_state (codec : Codec) (dir : String) (extents : Extents) (hid : document.id = some id)
    (fs : FileSystem) {file : String} (hfile : getFullPath (combine dir id) = file) :
    (DiskStorage.saveIn codec dir extents document fs).state =
      (fs.leave (place (file ++ ".json")) (if fs.Writable (file ++ ".json") then
          left (codec.getBytes (DiskStorage.json codec document)) extents.metaFile else none)).leave
        (place (file ++ ".bin"))
        (if fs.Writable (file ++ ".json") ∧ extents.metaFile = .whole ∧ fs.Writable (file ++ ".bin") then
          document.data.bind (left · extents.dataFile) else none) := by
  simp only [DiskStorage.saveIn, hid, combine?, hfile]
  rw [Outcome.andThen_state, Outcome.mapError_threw, Outcome.mapError_state, writeAllBytes_state]
  by_cases hmeta : fs.Writable (file ++ ".json") ∧ extents.metaFile = .whole
  · rw [if_pos ((writeAllBytes_threw _ _ _ _).mpr hmeta)]
    cases hdata : document.data with
    | none =>
      rw [Outcome.state_thrown, Option.bind_none, ite_self]
      rfl
    | some data =>
      rw [Outcome.mapError_state, writeAllBytes_state, Option.bind_some]
      simp only [writable_leave, hmeta, true_and]
  · have hdata : ¬ (fs.Writable (file ++ ".json") ∧ extents.metaFile = .whole ∧
        fs.Writable (file ++ ".bin")) := fun h => hmeta ⟨h.1, h.2.1⟩
    rw [if_neg (fun h => hmeta ((writeAllBytes_threw _ _ _ _).mp h)), if_neg hdata]
    rfl

theorem prepare_state (dir : String) (extent : Extent) (fs : FileSystem) :
    (if fs.directoryExists dir then Outcome.done fs
      else (fs.createDirectory dir extent).mapError Exception.io).state = prepared dir extent fs := by
  unfold prepared
  split
  · rfl
  · rw [Outcome.mapError_state, createDirectory_state]

theorem prepare_threw (dir : String) (extent : Extent) (fs : FileSystem) :
    (if fs.directoryExists dir then Outcome.done fs
      else (fs.createDirectory dir extent).mapError Exception.io).threw = false ↔
        Ready dir extent fs := by
  unfold Ready
  split
  · next h => simp [h]
  · next h => simp [h, Outcome.mapError_threw, createDirectory_threw]

/-- **What a `Save` leaves**, done or not. -/
theorem save_state (codec : Codec) (storage : DiskStorage) (extents : Extents) (fs : FileSystem)
    (htype : document.type = some type) (hid : document.id = some id) :
    (storage.save codec extents document fs).state =
      ((prepared (storage.dir type) extents.directory fs).leave (storage.metaFile type id)
        (metaLeft codec (storage.dir type) (storage.file type id) extents document fs)).leave
          (storage.dataFile type id)
          (dataLeft (storage.dir type) (storage.file type id) extents document fs) := by
  simp only [DiskStorage.save, htype, combine?, getFullPath_dir]
  rw [Outcome.andThen_state, prepare_state]
  by_cases hready : Ready (storage.dir type) extents.directory fs
  · rw [if_pos ((prepare_threw _ _ _).mpr hready), saveIn_state codec _ extents hid _ rfl]
    simp only [metaLeft, dataLeft, hready, true_and]
    rfl
  · rw [if_neg (fun h => hready ((prepare_threw _ _ _).mp h)), metaLeft, dataLeft,
      if_neg (fun h => hready h.1), if_neg (fun h => hready h.1.1)]
    rfl

theorem save_state_no_id (codec : Codec) (storage : DiskStorage) (extents : Extents) (fs : FileSystem)
    (htype : document.type = some type) (hid : document.id = none) :
    (storage.save codec extents document fs).state = prepared (storage.dir type) extents.directory fs := by
  simp only [DiskStorage.save, htype, combine?, getFullPath_dir]
  have hin : ∀ fs, (DiskStorage.saveIn codec (storage.dir type) extents document fs).state = fs := by
    intro fs
    rw [DiskStorage.saveIn, hid]
    rfl
  rw [Outcome.andThen_state, prepare_state, hin, ite_self]

theorem save_state_no_type (codec : Codec) (storage : DiskStorage) (extents : Extents) (fs : FileSystem)
    (htype : document.type = none) : (storage.save codec extents document fs).state = fs := by
  rw [DiskStorage.save, htype]
  rfl

@[simp] theorem prepared_files (dir : String) (extent : Extent) (fs : FileSystem) :
    (prepared dir extent fs).files = fs.files := by
  unfold prepared
  split <;> rfl

theorem HasDirectory_prepared (dir : String) (extent : Extent) {at_ : List String}
    (h : fs.HasDirectory at_) : (prepared dir extent fs).HasDirectory at_ := by
  unfold prepared
  split
  · exact h
  · exact h.make _

theorem grounded_prepared (h : fs.Grounded) (dir : String) (extent : Extent) :
    (prepared dir extent fs).Grounded := by
  rw [← prepare_state]
  split
  · exact h
  · rw [Outcome.mapError_state]
    exact h.createDirectory dir extent

theorem grounded_save (h : fs.Grounded) (codec : Codec) (storage : DiskStorage) (extents : Extents)
    (document : Document) : (storage.save codec extents document fs).state.Grounded := by
  unfold DiskStorage.save
  cases combine? storage.dataFolder document.type with
  | error e => exact h
  | ok path =>
    refine Outcome.andThen_inv ?_ fun fs hfs => ?_
    · rw [prepare_state]
      exact grounded_prepared h _ _
    · unfold DiskStorage.saveIn
      cases combine? (getFullPath path) document.id with
      | error e => exact hfs
      | ok path =>
        refine Outcome.andThen_inv ?_ fun fs hfs => ?_
        · rw [Outcome.mapError_state]
          exact hfs.writeAllBytes _ _ _
        · cases document.data with
          | none => exact hfs
          | some data =>
            simp only [Outcome.mapError_state]
            exact hfs.writeAllBytes _ _ _

theorem new_prepared {dir : String} {extent : Extent} {at_ : List String}
    (h : (prepared dir extent fs).HasDirectory at_) (hnew : ¬ fs.HasDirectory at_) :
    at_ <+: place dir ∧ at_ ∉ fs.files := by
  unfold prepared at h
  split at h
  · exact absurd h hnew
  · rcases h with h | h
    · exact absurd (Or.inl h) hnew
    · rcases List.mem_append.mp h with h | h
      · split at h
        · next hc =>
          have hpre := prefix_of_mem_asked h
          refine ⟨hpre, fun hmem => ?_⟩
          have := hc at_ ((List.mem_inits _ _).mpr hpre)
          rw [AList.lookup_isSome.mpr hmem] at this
          cases this
        · cases h
      · exact absurd (Or.inr h) hnew

/-! ### `Load` -/

/-- The document that the contents of the two files are, as `Load` reads them. -/
def paired (codec : Codec) (text data : Except IOException (List UInt8)) :
    Except Exception (Option Document) :=
  match text with
  | .error e => .error (.io e)
  | .ok text =>
    match codec.deserializeObject (codec.getString text) with
    | .error e => .error e
    | .ok document =>
      match data with
      | .error e => .error (.io e)
      | .ok data =>
        match document with
        | none => .error .nullReference
        | some document => .ok (some { document with data := some data })

theorem loadFiles_eq (codec : Codec) (file : String) (fs : FileSystem) :
    DiskStorage.loadFiles codec file fs =
      paired codec (fs.readAllBytes (file ++ ".json")) (fs.readAllBytes (file ++ ".bin")) := rfl

theorem paired_ne_none (codec : Codec) (text data : Except IOException (List UInt8)) :
    paired codec text data ≠ .ok none := by
  unfold paired
  cases text with
  | error e => simp
  | ok text =>
    cases hdoc : codec.deserializeObject (codec.getString text) with
    | error e => simp [hdoc]
    | ok document =>
      cases data with
      | error e => simp [hdoc]
      | ok data => cases document <;> simp [hdoc]

theorem load_eq (codec : Codec) (storage : DiskStorage) (type id : String) (fs : FileSystem) :
    storage.load codec (some type) (some id) fs =
      if fs.HasDirectory (storage.folder type) then
        if (fs.files.lookup (storage.dataFile type id)).isSome then
          paired codec (fs.readAllBytes (storage.file type id ++ ".json"))
            (fs.readAllBytes (storage.file type id ++ ".bin"))
        else .ok none
      else .ok none := by
  simp only [DiskStorage.load, combine?, getFullPath_dir, getFullPath_file, directoryExists, fileExists,
    not_endsInSeparator_bin, Bool.not_false, Bool.true_and, loadFiles_eq, decide_eq_true_eq]
  rfl

/-- **A `Load` is the same** where the folder, the two files and the directories at and above
them are. -/
theorem load_congr
    (hfolder : fs'.HasDirectory (storage.folder type) ↔ fs.HasDirectory (storage.folder type))
    (hmeta : fs'.readAllBytes (storage.file type id ++ ".json") =
      fs.readAllBytes (storage.file type id ++ ".json"))
    (hdata : fs'.readAllBytes (storage.file type id ++ ".bin") =
      fs.readAllBytes (storage.file type id ++ ".bin"))
    (hlookup : fs'.files.lookup (storage.dataFile type id) =
      fs.files.lookup (storage.dataFile type id)) :
    storage.load codec (some type) (some id) fs' = storage.load codec (some type) (some id) fs := by
  rw [load_eq, load_eq, hmeta, hdata, hlookup]
  simp only [hfolder]

end

end Blockcore.Storage
