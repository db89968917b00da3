import Blockcore.Lib.FileSystem

/-!
# Documents on disk

`DiskStorage` keeps a document in two files of the folder of its type, the data as
`id.bin` and the rest as `id.json`.

What JSON and UTF-8 make of a document is a parameter, `Codec`.  The disk may fail a
write at any point (`Extents`); a `Save` that is done was not failed.
-/

namespace Blockcore.Storage

open Lib Lib.Paths

inductive Exception where
  | argumentNull (paramName : String)
  | io (e : IOException)
  | json
  | nullReference
  deriving DecidableEq, Repr

/-- `Document`. -/
structure Document where
  id : Option String := none
  type : Option String := none
  signature : Option String := none
  contentType : Option String := none
  data : Option (List UInt8) := none
  deriving DecidableEq

/-- `DiskStorageDocument`. -/
structure DiskStorageDocument where
  id : Option String
  type : Option String
  signature : Option String
  contentType : Option String
  deriving DecidableEq

/-- `StorageDocumentInfo`. -/
structure StorageDocumentInfo where
  name : String
  size : Nat
  deriving DecidableEq

/-- `JsonConvert`, and the encoding of text files. -/
structure Codec where
  serializeObject : DiskStorageDocument → String
  deserializeObject : String → Except Exception (Option Document)
  getBytes : String → List UInt8
  getString : List UInt8 → String

/-- How far the disk lets a `Save` get. -/
structure Extents where
  directory : Extent := .whole
  metaFile : Extent := .whole
  dataFile : Extent := .whole
  deriving DecidableEq

/-- `DiskStorage`; the path is `dataFolder.FullName`. -/
structure DiskStorage where
  dataFolder : String

/-- `Path.Combine`, of an argument that may be null. -/
def combine? (path : String) : Option String → Except Exception String
  | none => .error (.argumentNull "path2")
  | some name => .ok (combine path name)

namespace DiskStorage

variable (codec : Codec) (storage : DiskStorage)

/-- The text of the `.json` file. -/
def json (document : Document) : String :=
  codec.serializeObject
    { id := document.id, type := document.type, contentType := document.contentType,
      signature := document.signature }

/-- `Save`, once the folder of the type is there. -/
def saveIn (dir : String) (extents : Extents) (document : Document) (fs : FileSystem) :
    Outcome Exception FileSystem :=
  match combine? dir document.id with
  | .error e => .thrown e fs
  | .ok path =>
    let file := getFullPath path
    ((fs.writeAllBytes (file ++ ".json") (codec.getBytes (json codec document))
      extents.metaFile).mapError .io).andThen fun fs =>
    match document.data with
    | none => .thrown (.argumentNull "bytes") fs
    | some data => (fs.writeAllBytes (file ++ ".bin") data extents.dataFile).mapError .io

/-- `Save`. -/
def save (extents : Extents) (document : Document) (fs : FileSystem) : Outcome Exception FileSystem :=
  match combine? storage.dataFolder document.type with
  | .error e => .thrown e fs
  | .ok path =>
    let dir := getFullPath path
    (if fs.directoryExists dir then .done fs
      else (fs.createDirectory dir extents.directory).mapError .io).andThen fun fs =>
    saveIn codec dir extents document fs

/-- What `Load` makes of the two files. -/
def loadFiles (file : String) (fs : FileSystem) : Except Exception (Option Document) :=
  match fs.readAllBytes (file ++ ".json") with
  | .error e => .error (.io e)
  | .ok text =>
    match codec.deserializeObject (codec.getString text) with
    | .error e => .error e
    | .ok document =>
      match fs.readAllBytes (file ++ ".bin") with
      | .error e => .error (.io e)
      | .ok data =>
        match document with
        | none => .error .nullReference
        | some document => .ok (some { document with data := some data })

/-- `Load`. -/
def load (type id : Option String) (fs : FileSystem) : Except Exception (Option Document) :=
  match combine? storage.dataFolder type with
  | .error e => .error e
  | .ok path =>
    let dir := getFullPath path
    if fs.directoryExists dir then
      match combine? dir id with
      | .error e => .error e
      | .ok path =>
        let file := getFullPath path
        if fs.fileExists (file ++ ".bin") then loadFiles codec file fs else .ok none
    else .ok none

/-- `List`. -/
def list (type : Option String) (fs : FileSystem) :
    Except Exception (Option (List StorageDocumentInfo)) :=
  match combine? storage.dataFolder type with
  | .error e => .error e
  | .ok path =>
    let dir := getFullPath path
    if fs.directoryExists dir then
      .ok (some ((fs.getFiles dir).map fun f => { name := f.1, size := f.2.length }))
    else .ok none

end DiskStorage

/-! ### Where a document is kept -/

section

variable {type id : String}

/-- The document's names are single names of a path. -/
structure Named (document : Document) (type id : String) : Prop where
  type_eq : document.type = some type
  id_eq : document.id = some id
  type_single : SingleName type
  id_single : SingleName id

theorem json_single (h : SingleName id) : SingleName (id ++ ".json") :=
  singleName_append h.no_separator (by decide) (by decide)

theorem bin_single (h : SingleName id) : SingleName (id ++ ".bin") :=
  singleName_append h.no_separator (by decide) (by decide)

theorem single_concat {path name : String} (h : SingleName name) :
    ∀ n ∈ place path ++ [name], SingleName n := by
  intro n hn
  rcases List.mem_append.mp hn with hn | hn
  · exact singleName_of_mem_place hn
  · rwa [List.mem_singleton.mp hn]

theorem place_directory (storage : DiskStorage) (h : SingleName type) :
    place (getFullPath (combine storage.dataFolder type)) = place storage.dataFolder ++ [type] := by
  rw [getFullPath_combine _ h, place_render (single_concat h)]

/-- **A file of a document** is in the folder of its type, under its id. -/
theorem place_file (storage : DiskStorage) (ht : SingleName type) (hi : SingleName id)
    {suffix : String} (hs : SingleName (id ++ suffix)) :
    place (getFullPath (combine (getFullPath (combine storage.dataFolder type)) id) ++ suffix) =
      place storage.dataFolder ++ [type, id ++ suffix] := by
  rw [getFullPath_combine _ hi, place_directory storage ht, render_append, place_render]
  · simp
  · intro n hn
    rcases List.mem_append.mp hn with hn | hn
    · exact single_concat ht n hn
    · rwa [List.mem_singleton.mp hn]

theorem append_suffix_inj {suffix id id' : String} (h : id ++ suffix = id' ++ suffix) : id = id' := by
  have := congrArg String.toList h
  rw [String.toList_append, String.toList_append] at this
  exact String.toList_injective (List.append_cancel_right this)

theorem append_json_ne_bin (id id' : String) : id ++ ".json" ≠ id' ++ ".bin" := by
  intro h
  have := congrArg (fun s => s.toList.reverse[1]?) h
  simp [String.toList_append, List.reverse_append] at this

end

/-! ### What is saved -/

/-- What the storage is for: the documents by type and id. -/
abbrev DocumentMap := String × String → Option Document

def DocumentMap.save (m : DocumentMap) (document : Document) : DocumentMap :=
  match document.type, document.id with
  | some type, some id => Function.update m (type, id) (some document)
  | _, _ => m

/-- The codec gives the document's four strings back. -/
structure Codec.RoundTrips (codec : Codec) (document : Document) : Prop where
  text : codec.getString (codec.getBytes (DiskStorage.json codec document)) =
    DiskStorage.json codec document
  json : codec.deserializeObject (DiskStorage.json codec document) =
    .ok (some { document with data := none })

/-- The files hold these documents, and the data folder nothing else. -/
structure Refines (codec : Codec) (storage : DiskStorage) (m : DocumentMap) (fs : FileSystem) :
    Prop where
  named : ∀ type id document, m (type, id) = some document → Named document type id
  roundTrips : ∀ type id document, m (type, id) = some document → codec.RoundTrips document
  json : ∀ type id document, m (type, id) = some document →
    fs.files.lookup (place storage.dataFolder ++ [type, id ++ ".json"]) =
      some (codec.getBytes (DiskStorage.json codec document))
  data : ∀ type id document, m (type, id) = some document → ∃ data, document.data = some data ∧
    fs.files.lookup (place storage.dataFolder ++ [type, id ++ ".bin"]) = some data
  only : ∀ at_, place storage.dataFolder ++ at_ ∈ fs.files → ∃ type id, (m (type, id)).isSome = true ∧
    (at_ = [type, id ++ ".json"] ∨ at_ = [type, id ++ ".bin"])
  directory : ∀ at_, at_ ≠ [] → (place storage.dataFolder ++ at_ ∈ fs.directories ↔
    ∃ type id, (m (type, id)).isSome = true ∧ at_ = [type])

structure EmptyFolder (storage : DiskStorage) (fs : FileSystem) : Prop where
  files : ∀ at_, place storage.dataFolder ++ at_ ∉ fs.files
  directories : ∀ at_, at_ ≠ [] → place storage.dataFolder ++ at_ ∉ fs.directories

section

variable {codec : Codec} {storage : DiskStorage} {m : DocumentMap} {fs fs' : FileSystem}
  {document : Document} {type id : String} {extents : Extents}

theorem refines_empty (h : EmptyFolder storage fs) : Refines codec storage (fun _ => none) fs where
  named _ _ _ hm := by cases hm
  roundTrips _ _ _ hm := by cases hm
  json _ _ _ hm := by cases hm
  data _ _ _ hm := by cases hm
  only at_ hat := absurd hat (h.files at_)
  directory at_ hne := by
    refine iff_of_false (h.directories at_ hne) ?_
    rintro ⟨type, id, hm, _⟩
    cases hm

/-! ### `Save` -/

theorem makeDirectory_done {dir : String} {extent : Extent}
    (h : (if fs.directoryExists dir then Outcome.done fs
      else (fs.createDirectory dir extent).mapError Exception.io) = .done fs') :
    fs'.files = fs.files ∧ ∀ at_, at_ ∈ fs'.directories ↔
      at_ ∈ fs.directories ∨ ¬ fs.HasDirectory (place dir) ∧ at_ <+: place dir := by
  by_cases hexists : fs.HasDirectory (place dir)
  · rw [FileSystem.directoryExists, decide_eq_true hexists, if_pos rfl] at h
    rw [← Outcome.done.inj h]
    simp [hexists]
  · rw [FileSystem.directoryExists, decide_eq_false hexists, if_neg (by simp)] at h
    rw [FileSystem.createDirectory_done (Outcome.mapError_eq_done.mp h)]
    simp [FileSystem.make, hexists, or_comm]

theorem saveIn_done {dir : String} (hid : document.id = some id)
    (h : DiskStorage.saveIn codec dir extents document fs = .done fs') :
    ∃ data, document.data = some data ∧
      fs' = (fs.put (place (getFullPath (combine dir id) ++ ".json"))
        (codec.getBytes (DiskStorage.json codec document))).put
          (place (getFullPath (combine dir id) ++ ".bin")) data := by
  simp only [DiskStorage.saveIn, hid, combine?] at h
  generalize getFullPath (combine dir id) = file at h ⊢
  obtain ⟨fs₂, hjson, hsaved⟩ := Outcome.andThen_eq_done.mp h
  have hjson := FileSystem.writeAllBytes_done (Outcome.mapError_eq_done.mp hjson)
  cases hdata : document.data with
  | none =>
    rw [hdata] at hsaved
    cases hsaved
  | some data =>
    rw [hdata] at hsaved
    have hbin := FileSystem.writeAllBytes_done (Outcome.mapError_eq_done.mp hsaved)
    exact ⟨data, rfl, by rw [hbin, hjson]⟩

/-- **A `Save` that is done** made the folder if it was not there, and wrote both files. -/
theorem save_done (hn : Named document type id)
    (h : storage.save codec extents document fs = .done fs') :
    ∃ (data : List UInt8) (fs₁ : FileSystem), document.data = some data ∧ fs₁.files = fs.files ∧
      (∀ at_, at_ ∈ fs₁.directories ↔
        at_ ∈ fs.directories ∨ ¬ fs.HasDirectory (place storage.dataFolder ++ [type]) ∧
          at_ <+: place storage.dataFolder ++ [type]) ∧
      fs' = (fs₁.put (place storage.dataFolder ++ [type, id ++ ".json"])
        (codec.getBytes (DiskStorage.json codec document))).put
          (place storage.dataFolder ++ [type, id ++ ".bin"]) data := by
  have hdir := place_directory storage hn.type_single
  have hbin := place_file storage hn.type_single hn.id_single (bin_single hn.id_single)
  have hjson := place_file storage hn.type_single hn.id_single (json_single hn.id_single)
  simp only [DiskStorage.save, hn.type_eq, combine?] at h
  generalize getFullPath (combine storage.dataFolder type) = dir at h hdir hbin hjson
  obtain ⟨fs₁, hmade, hsaved⟩ := Outcome.andThen_eq_done.mp h
  obtain ⟨hfiles, hdirs⟩ := makeDirectory_done hmade
  obtain ⟨data, hdata, hfs'⟩ := saveIn_done hn.id_eq hsaved
  rw [hdir] at hdirs
  rw [hjson, hbin] at hfs'
  exact ⟨data, fs₁, hdata, hfiles, hdirs, hfs'⟩

theorem DocumentMap.save_eq (m : DocumentMap) (hn : Named document type id) :
    m.save document = Function.update m (type, id) (some document) := by
  rw [DocumentMap.save, hn.type_eq, hn.id_eq]

theorem DocumentMap.save_self (m : DocumentMap) (hn : Named document type id) :
    m.save document (type, id) = some document := by
  rw [m.save_eq hn, Function.update_self]

theorem DocumentMap.save_of_ne (m : DocumentMap) (hn : Named document type id) {key : String × String}
    (h : key ≠ (type, id)) : m.save document key = m key := by
  rw [m.save_eq hn, Function.update_of_ne h]

theorem DocumentMap.save_cases (m : DocumentMap) (hn : Named document type id) {type' id' : String}
    {document' : Document} (h : m.save document (type', id') = some document') :
    (type' = type ∧ id' = id ∧ document' = document) ∨
      ((type', id') ≠ (type, id) ∧ m (type', id') = some document') := by
  by_cases hkey : (type', id') = (type, id)
  · obtain ⟨rfl, rfl⟩ := Prod.mk.inj hkey
    rw [m.save_self hn] at h
    exact Or.inl ⟨rfl, rfl, (Option.some.inj h).symm⟩
  · rw [m.save_of_ne hn hkey] at h
    exact Or.inr ⟨hkey, h⟩

theorem DocumentMap.save_isSome (m : DocumentMap) (hn : Named document type id) (key : String × String) :
    (m.save document key).isSome = true ↔ key = (type, id) ∨ (m key).isSome = true := by
  by_cases hkey : key = (type, id)
  · rw [hkey, m.save_self hn]
    simp
  · rw [m.save_of_ne hn hkey]
    simp [hkey]

theorem place_ne {suffix : String} {ds : List String} {type' id' : String}
    (h : (type', id') ≠ (type, id)) : ds ++ [type', id' ++ suffix] ≠ ds ++ [type, id ++ suffix] := by
  intro heq
  have heq := List.append_cancel_left heq
  simp only [List.cons.injEq, and_true] at heq
  exact h (Prod.ext heq.1 (append_suffix_inj heq.2))

theorem json_place_ne_bin (ds : List String) (type type' id id' : String) :
    ds ++ [type', id' ++ ".json"] ≠ ds ++ [type, id ++ ".bin"] := by
  intro heq
  have heq := List.append_cancel_left heq
  simp only [List.cons.injEq, and_true] at heq
  exact append_json_ne_bin id' id heq.2

theorem hasDirectory_iff (hr : Refines codec storage m fs) (type : String) :
    fs.HasDirectory (place storage.dataFolder ++ [type]) ↔ ∃ id, (m (type, id)).isSome = true := by
  rw [FileSystem.HasDirectory, or_iff_right (by simp), hr.directory [type] (by simp)]
  simp

theorem prefix_directory {ds at_ : List String} (hne : at_ ≠ []) :
    ds ++ at_ <+: ds ++ [type] ↔ at_ = [type] := by
  rw [List.prefix_append_right_inj]
  refine ⟨?_, ?_⟩
  · intro hp
    rcases List.prefix_concat_iff.mp (show at_ <+: [] ++ [type] from hp) with h | h
    · exact h
    · exact absurd (List.prefix_nil.mp h) hne
  · rintro rfl
    exact List.prefix_refl _

/-- **One `Save`**: the files hold the document, and what they held under other names. -/
theorem Refines.save (hr : Refines codec storage m fs) (hn : Named document type id)
    (hc : codec.RoundTrips document) (h : storage.save codec extents document fs = .done fs') :
    Refines codec storage (m.save document) fs' := by
  obtain ⟨data, fs₁, hdata, hfiles, hdirs, rfl⟩ := save_done hn h
  refine ⟨?named, ?roundTrips, ?json, ?data, ?only, ?directory⟩
  case named =>
    intro type' id' document' hm
    rcases m.save_cases hn hm with ⟨rfl, rfl, rfl⟩ | ⟨_, hm⟩
    · exact hn
    · exact hr.named _ _ _ hm
  case roundTrips =>
    intro type' id' document' hm
    rcases m.save_cases hn hm with ⟨rfl, rfl, rfl⟩ | ⟨_, hm⟩
    · exact hc
    · exact hr.roundTrips _ _ _ hm
  case json =>
    intro type' id' document' hm
    rw [FileSystem.put_files, AList.lookup_insert_ne (json_place_ne_bin _ _ _ _ _), FileSystem.put_files]
    rcases m.save_cases hn hm with ⟨rfl, rfl, rfl⟩ | ⟨hkey, hm⟩
    · rw [AList.lookup_insert]
    · rw [AList.lookup_insert_ne (place_ne hkey), hfiles]
      exact hr.json _ _ _ hm
  case data =>
    intro type' id' document' hm
    rw [FileSystem.put_files]
    rcases m.save_cases hn hm with ⟨rfl, rfl, rfl⟩ | ⟨hkey, hm⟩
    · exact ⟨data, hdata, AList.lookup_insert _⟩
    · rw [AList.lookup_insert_ne (place_ne hkey), FileSystem.put_files,
        AList.lookup_insert_ne (json_place_ne_bin _ _ _ _ _).symm, hfiles]
      exact hr.data _ _ _ hm
  case only =>
    intro at_ hat
    simp only [FileSystem.put_files, AList.mem_insert, hfiles] at hat
    rcases hat with hat | hat | hat
    · exact ⟨type, id, (m.save_isSome hn _).mpr (Or.inl rfl), Or.inr (List.append_cancel_left hat)⟩
    · exact ⟨type, id, (m.save_isSome hn _).mpr (Or.inl rfl), Or.inl (List.append_cancel_left hat)⟩
    · obtain ⟨type', id', hsome, hplace⟩ := hr.only at_ hat
      exact ⟨type', id', (m.save_isSome hn _).mpr (Or.inr hsome), hplace⟩
  case directory =>
    intro at_ hne
    rw [FileSystem.put_directories, FileSystem.put_directories, hdirs, hr.directory at_ hne,
      prefix_directory hne, hasDirectory_iff hr]
    refine ⟨?_, ?_⟩
    · rintro (⟨type', id', hsome, hplace⟩ | ⟨_, hplace⟩)
      · exact ⟨type', id', (m.save_isSome hn _).mpr (Or.inr hsome), hplace⟩
      · exact ⟨type, id, (m.save_isSome hn _).mpr (Or.inl rfl), hplace⟩
    · rintro ⟨type', id', hsome, rfl⟩
      rcases (m.save_isSome hn _).mp hsome with hkey | hsome
      · obtain ⟨rfl, rfl⟩ := Prod.mk.inj hkey
        by_cases h : ∃ id, (m (type', id)).isSome = true
        · obtain ⟨id, hid⟩ := h
          exact Or.inl ⟨type', id, hid, rfl⟩
        · exact Or.inr ⟨h, rfl⟩
      · exact Or.inl ⟨type', id', hsome, rfl⟩

/-! ### `Load` and `List` -/

theorem directoryExists_iff (hr : Refines codec storage m fs) (ht : SingleName type) :
    fs.directoryExists (getFullPath (combine storage.dataFolder type)) = true ↔
      ∃ id, (m (type, id)).isSome = true := by
  rw [FileSystem.directoryExists, place_directory storage ht, decide_eq_true_eq, hasDirectory_iff hr]

theorem not_hasDirectory (hr : Refines codec storage m fs) (type name : String) :
    ¬ fs.HasDirectory (place storage.dataFolder ++ [type, name]) := by
  rw [FileSystem.HasDirectory, or_iff_right (by simp), hr.directory _ (by simp)]
  simp

theorem file_mem_iff (hr : Refines codec storage m fs) (type name : String) :
    place storage.dataFolder ++ [type, name] ∈ fs.files ↔
      ∃ id, m (type, id) ≠ none ∧ (name = id ++ ".json" ∨ name = id ++ ".bin") := by
  refine ⟨?_, ?_⟩
  · intro hmem
    obtain ⟨type', id', hsome, hplace⟩ := hr.only _ hmem
    simp only [List.cons.injEq, and_true] at hplace
    rcases hplace with ⟨rfl, rfl⟩ | ⟨rfl, rfl⟩
    · exact ⟨id', Option.isSome_iff_ne_none.mp hsome, Or.inl rfl⟩
    · exact ⟨id', Option.isSome_iff_ne_none.mp hsome, Or.inr rfl⟩
  · rintro ⟨id, hne, hname⟩
    obtain ⟨document, hm⟩ := Option.ne_none_iff_exists'.mp hne
    rcases hname with rfl | rfl
    · exact AList.lookup_isSome.mp (by rw [hr.json _ _ _ hm]; rfl)
    · obtain ⟨data, _, hlookup⟩ := hr.data _ _ _ hm
      exact AList.lookup_isSome.mp (by rw [hlookup]; rfl)

theorem bin_mem_iff (hr : Refines codec storage m fs) (type id : String) :
    place storage.dataFolder ++ [type, id ++ ".bin"] ∈ fs.files ↔ m (type, id) ≠ none := by
  rw [file_mem_iff hr]
  refine ⟨?_, ?_⟩
  · rintro ⟨id', hne, hname | hname⟩
    · exact absurd hname.symm (append_json_ne_bin id' id)
    · rwa [append_suffix_inj hname]
  · exact fun hne => ⟨id, hne, Or.inr rfl⟩

/-- **`Load`** returns the document of that name. -/
theorem Refines.load_eq (hr : Refines codec storage m fs) (ht : SingleName type) (hi : SingleName id) :
    storage.load codec (some type) (some id) fs = .ok (m (type, id)) := by
  have hdir := directoryExists_iff hr ht
  have hbin := place_file storage ht hi (bin_single hi)
  have hjson := place_file storage ht hi (json_single hi)
  simp only [DiskStorage.load, combine?]
  generalize getFullPath (combine storage.dataFolder type) = dir at hdir hbin hjson ⊢
  generalize getFullPath (combine dir id) = file at hbin hjson ⊢
  have hseparator : ∀ suffix, suffix = ".bin" ∨ suffix = ".json" →
      endsInSeparator (file ++ suffix) = false := by
    rintro suffix (rfl | rfl)
    · rw [endsInSeparator_append file (by decide)]
      decide
    · rw [endsInSeparator_append file (by decide)]
      decide
  have hexists : fs.fileExists (file ++ ".bin") = true ↔ place (file ++ ".bin") ∈ fs.files :=
    FileSystem.fileExists_iff (hseparator ".bin" (Or.inl rfl))
  rw [hbin, bin_mem_iff hr] at hexists
  cases hm : m (type, id) with
  | none =>
    rw [hm] at hexists
    split
    · rw [if_neg (by rw [hexists]; simp)]
    · rfl
  | some document =>
    obtain ⟨data, hdata, hlookup⟩ := hr.data _ _ _ hm
    rw [hm] at hexists
    rw [if_pos (hdir.mpr ⟨id, by rw [hm]; rfl⟩), if_pos (hexists.mpr (by simp)), DiskStorage.loadFiles]
    rw [← hbin] at hlookup
    have hreadBin := FileSystem.readAllBytes_of_lookup (hseparator ".bin" (Or.inl rfl))
      (by rw [hbin]; exact not_hasDirectory hr _ _) hlookup
    have hlookupJson := hr.json _ _ _ hm
    rw [← hjson] at hlookupJson
    have hreadJson := FileSystem.readAllBytes_of_lookup (hseparator ".json" (Or.inr rfl))
      (by rw [hjson]; exact not_hasDirectory hr _ _) hlookupJson
    have hcodec := hr.roundTrips _ _ _ hm
    rw [hreadJson, hreadBin]
    simp only [hcodec.text, hcodec.json, ← hdata]

/-- What `List` returns: nothing if no document of the type was saved, and otherwise the
two files of each, once. -/
structure Lists (m : DocumentMap) (type : String)
    (result : Except Exception (Option (List StorageDocumentInfo))) : Prop where
  nothing : (∀ id, m (type, id) = none) → result = .ok none
  files : (∃ id, m (type, id) ≠ none) → ∃ infos, result = .ok (some infos) ∧
    (infos.map StorageDocumentInfo.name).Nodup ∧
    ∀ name, name ∈ infos.map StorageDocumentInfo.name ↔
      ∃ id, m (type, id) ≠ none ∧ (name = id ++ ".json" ∨ name = id ++ ".bin")

/-- **`List`** names the files of the type. -/
theorem Refines.lists (hr : Refines codec storage m fs) (ht : SingleName type) :
    Lists m type (storage.list (some type) fs) := by
  have hdir := directoryExists_iff hr ht
  have hplace := place_directory storage ht
  simp only [DiskStorage.list, combine?]
  generalize getFullPath (combine storage.dataFolder type) = dir at hdir hplace ⊢
  have hnames : ((fs.getFiles dir).map fun f => ({ name := f.1, size := f.2.length } :
      StorageDocumentInfo)).map StorageDocumentInfo.name = (fs.getFiles dir).map Prod.fst := by
    rw [List.map_map]
    rfl
  refine ⟨?_, ?_⟩
  · intro hnone
    rw [if_neg]
    rw [hdir]
    rintro ⟨id, hsome⟩
    rw [hnone id] at hsome
    cases hsome
  · rintro ⟨id, hne⟩
    rw [if_pos (hdir.mpr ⟨id, Option.isSome_iff_ne_none.mpr hne⟩)]
    refine ⟨_, rfl, ?_, fun name => ?_⟩
    · rw [hnames]
      exact FileSystem.getFiles_names_nodup fs dir
    · rw [hnames, FileSystem.mem_getFiles_names, hplace, List.append_assoc]
      exact file_mem_iff hr type name

/-! ### Any number of `Save`s -/

variable (codec storage) in
/-- One `Save` after another. -/
def saveAll (saves : List (Extents × Document)) (fs : FileSystem) : Outcome Exception FileSystem :=
  Outcome.forEach (fun s => storage.save codec s.1 s.2) saves fs

/-- The documents after these were saved, one after another. -/
def DocumentMap.saveAll (m : DocumentMap) (documents : List Document) : DocumentMap :=
  documents.foldl DocumentMap.save m

theorem Refines.saveAll : ∀ {saves : List (Extents × Document)} {m : DocumentMap} {fs : FileSystem},
    Refines codec storage m fs → (∀ s ∈ saves, ∃ type id, Named s.2 type id) →
    (∀ s ∈ saves, codec.RoundTrips s.2) → Storage.saveAll codec storage saves fs = .done fs' →
    Refines codec storage (m.saveAll (saves.map Prod.snd)) fs' := by
  intro saves
  induction saves with
  | nil =>
    intro m fs hr _ _ h
    rwa [← Outcome.done.inj h]
  | cons s saves ih =>
    intro m fs hr hnamed hcodec h
    rw [Storage.saveAll, Outcome.forEach_cons] at h
    obtain ⟨fs₁, hs, h⟩ := Outcome.andThen_eq_done.mp h
    obtain ⟨type, id, hn⟩ := hnamed s (by simp)
    exact ih (hr.save hn (hcodec s (by simp)) hs) (fun s' h' => hnamed s' (by simp [h']))
      (fun s' h' => hcodec s' (by simp [h'])) h

end

/-- **`DiskStorage` refines a map from types and ids to documents**: after any `Save`s that
are done, `Load` returns the document last saved under just this type and id, and `List`
names its two files. -/
theorem storage_refines {codec : Codec} {storage : DiskStorage} {fs fs' : FileSystem}
    {saves : List (Extents × Document)} (hempty : EmptyFolder storage fs)
    (hnamed : ∀ s ∈ saves, ∃ type id, Named s.2 type id)
    (hcodec : ∀ s ∈ saves, codec.RoundTrips s.2) (hdone : saveAll codec storage saves fs = .done fs') :
    (∀ type id, SingleName type → SingleName id → storage.load codec (some type) (some id) fs' =
      .ok (DocumentMap.saveAll (fun _ => none) (saves.map Prod.snd) (type, id))) ∧
    ∀ type, SingleName type →
      Lists (DocumentMap.saveAll (fun _ => none) (saves.map Prod.snd)) type
        (storage.list (some type) fs') :=
  have hr := (refines_empty hempty).saveAll hnamed hcodec hdone
  ⟨fun _ _ ht hi => hr.load_eq ht hi, fun _ ht => hr.lists ht⟩

def note : Document := { id := some "a", type := some "t", data := some [1] }

/-- Documents of two types, the last in place of the first. -/
def notes : List Document :=
  [note, { id := some "b", type := some "t", data := some [2, 2] }, { id := some "a", type := some "u", data := some [3] },
    { id := some "a", type := some "t", signature := some "s", data := some [4] }]

/-- A string as JSON, if nothing in it has to be escaped. -/
def quoted : Option String → String
  | none => "null"
  | some s => "\"" ++ s ++ "\""

def noteJson (doc : DiskStorageDocument) : String :=
  "\x7b\"Id\":" ++ quoted doc.id ++ ",\"Type\":" ++ quoted doc.type ++ ",\"Signature\":" ++
    quoted doc.signature ++ ",\"ContentType\":" ++ quoted doc.contentType ++ "\x7d"

/-- JSON and UTF-8, as far as the documents need them. -/
def noteCodec : Codec where
  serializeObject := noteJson
  deserializeObject text :=
    match notes.find? fun d => noteJson ⟨d.id, d.type, d.signature, d.contentType⟩ = text with
    | some d => .ok (some { d with data := none })
    | none => .error .json
  getBytes text := text.toList.map fun c => UInt8.ofNat c.toNat
  getString bytes := String.ofList (bytes.map fun b => Char.ofNat b.toNat)

def emptyDisk : FileSystem where
  files := ∅
  directories := [["data"]]

theorem emptyFolder_emptyDisk : EmptyFolder ⟨"/data"⟩ emptyDisk := by
  have hplace : place "/data" = ["data"] := by decide
  refine ⟨fun at_ hat => (by cases hat), fun at_ hne hmem => ?_⟩
  rw [hplace, emptyDisk, List.mem_singleton] at hmem
  exact hne (List.append_cancel_left (show ["data"] ++ at_ = ["data"] ++ [] from hmem))

theorem named_notes : ∀ s ∈ notes.map (fun d => (({} : Extents), d)), ∃ type id, Named s.2 type id := by
  have ha : SingleName "a" := ⟨by decide, by decide, by decide, by decide⟩
  have hb : SingleName "b" := ⟨by decide, by decide, by decide, by decide⟩
  have ht : SingleName "t" := ⟨by decide, by decide, by decide, by decide⟩
  have hu : SingleName "u" := ⟨by decide, by decide, by decide, by decide⟩
  intro s hs
  simp only [notes, List.map_cons, List.map_nil, List.mem_cons, List.not_mem_nil, or_false] at hs
  rcases hs with rfl | rfl | rfl | rfl
  · exact ⟨"t", "a", rfl, rfl, ht, ha⟩
  · exact ⟨"t", "b", rfl, rfl, ht, hb⟩
  · exact ⟨"u", "a", rfl, rfl, hu, ha⟩
  · exact ⟨"t", "a", rfl, rfl, ht, ha⟩

theorem roundTrips_notes : ∀ s ∈ notes.map (fun d => (({} : Extents), d)), noteCodec.RoundTrips s.2 := by
  intro s hs
  simp only [notes, List.map_cons, List.map_nil, List.mem_cons, List.not_mem_nil, or_false] at hs
  rcases hs with rfl | rfl | rfl | rfl
  · exact ⟨by decide, by decide⟩
  · exact ⟨by decide, by decide⟩
  · exact ⟨by decide, by decide⟩
  · exact ⟨by decide, by decide⟩

def notesDisk : FileSystem :=
  (saveAll noteCodec ⟨"/data"⟩ (notes.map fun d => ({}, d)) emptyDisk).state

theorem storage_refines_notes :
    (∀ type ∈ ["t", "u"], ∀ id ∈ ["a", "b"],
      (⟨"/data"⟩ : DiskStorage).load noteCodec (some type) (some id) notesDisk =
        .ok (DocumentMap.saveAll (fun _ => none) notes (type, id))) ∧
    DocumentMap.saveAll (fun _ => none) notes ("t", "a") = notes.getLast? ∧
    Lists (DocumentMap.saveAll (fun _ => none) notes) "t"
      ((⟨"/data"⟩ : DiskStorage).list (some "t") notesDisk) := by
  have hdone : saveAll noteCodec ⟨"/data"⟩ (notes.map fun d => ({}, d)) emptyDisk = .done notesDisk :=
    Outcome.eq_done_of_threw (by decide +kernel)
  obtain ⟨hload, hlist⟩ := storage_refines emptyFolder_emptyDisk named_notes roundTrips_notes hdone
  have hsingle : ∀ name ∈ ["t", "u", "a", "b"], SingleName name := by
    intro name hname
    simp only [List.mem_cons, List.not_mem_nil, or_false] at hname
    rcases hname with rfl | rfl | rfl | rfl <;> exact ⟨by decide, by decide, by decide, by decide⟩
  refine ⟨fun type ht id hi => ?_, by decide, hlist "t" (hsingle "t" (by decide))⟩
  exact hload type id (hsingle type (List.mem_append_left ["a", "b"] ht))
    (hsingle id (List.mem_append_right ["t", "u"] hi))

end Blockcore.Storage
