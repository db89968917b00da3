import Blockcore.Storage.Footprints

/-!
# Inside the data folder

Nothing checks the type and the id of a document: `..`, a separator or a rooted name lead
wherever they lead (`leaves_folder`).  `Inside` is where they stay, the type in the data
folder and the id directly in the folder of the type, as single names do.  There `stays_inside` says
that the files are where they belong, and that another path's `Save` does not change what
`Load` returns.

For the last a directory that the other `Save` makes is to be no change either: before it
was there no file was in it, by `Grounded`.
-/

namespace Blockcore.Storage

open Lib Lib.Paths Lib.FileSystem

/-- Directly in the folder of the type, and that in the data folder. -/
structure Contained (storage : DiskStorage) (type : String) (at_ : List String) : Prop where
  child : ∃ name, at_ = storage.folder type ++ [name]
  inside : place storage.dataFolder <+: storage.folder type

/-- The type leads to a folder in the data folder, or to itself, and the id to a name in it. -/
structure Inside (storage : DiskStorage) (type id : String) : Prop where
  type_inside : place storage.dataFolder <+: place (combine storage.dataFolder type)
  id_inside : folderOf (combine (storage.dir type) id) = place (combine storage.dataFolder type)

section

variable {codec : Codec} {storage : DiskStorage} {fs fs' : FileSystem} {document : Document}
  {type id type' id' : String} {extents : Extents}

theorem folder_eq (storage : DiskStorage) (type : String) :
    storage.folder type = place (combine storage.dataFolder type) := place_getFullPath _

/-- **The files are contained** exactly if the two strings stay inside. -/
theorem contained_metaFile_iff :
    Contained storage type (storage.metaFile type id) ↔ Inside storage type id := by
  refine ⟨?_, ?_⟩
  · rintro ⟨⟨name, hname⟩, hinside⟩
    rw [metaFile_eq] at hname
    refine ⟨?_, ?_⟩
    · rwa [← folder_eq]
    · rw [← folder_eq]
      exact (List.append_inj' hname (by simp)).1
  · rintro ⟨htype, hid⟩
    refine ⟨⟨nameOf (combine (storage.dir type) id) ++ ".json", ?_⟩, ?_⟩
    · rw [metaFile_eq, hid, folder_eq]
    · rwa [folder_eq]

theorem contained_dataFile_iff :
    Contained storage type (storage.dataFile type id) ↔ Inside storage type id := by
  rw [← contained_metaFile_iff]
  refine ⟨?_, ?_⟩
  · rintro ⟨⟨name, hname⟩, hinside⟩
    rw [dataFile_eq] at hname
    refine ⟨⟨nameOf (combine (storage.dir type) id) ++ ".json", ?_⟩, hinside⟩
    rw [metaFile_eq, (List.append_inj' hname (by simp)).1]
  · rintro ⟨⟨name, hname⟩, hinside⟩
    rw [metaFile_eq] at hname
    refine ⟨⟨nameOf (combine (storage.dir type) id) ++ ".bin", ?_⟩, hinside⟩
    rw [dataFile_eq, (List.append_inj' hname (by simp)).1]

/-! ### Single names -/

theorem place_dir (storage : DiskStorage) (ht : SingleName type) :
    place (storage.dir type) = place storage.dataFolder ++ [type] := place_directory storage ht

theorem inside_of_single (storage : DiskStorage) (ht : SingleName type) (hi : SingleName id) :
    Inside storage type id := by
  have hplace := place_combine storage.dataFolder ht
  refine ⟨?_, ?_⟩
  · rw [hplace]
    exact List.prefix_append _ _
  · rw [folderOf, not_endsInSeparator_combine _ hi, if_neg (by simp), place_combine _ hi,
      List.dropLast_concat, place_dir storage ht, hplace]

theorem file_ne_of_single (storage : DiskStorage) (ht : SingleName type) (hi : SingleName id)
    (ht' : SingleName type') (hi' : SingleName id') (h : (type', id') ≠ (type, id)) :
    storage.file type' id' ≠ storage.file type id := by
  intro heq
  have hplace := congrArg place heq
  rw [DiskStorage.file, DiskStorage.file, place_getFullPath, place_getFullPath, place_combine _ hi,
    place_combine _ hi', place_dir storage ht, place_dir storage ht'] at hplace
  obtain ⟨hdir, hid⟩ := List.append_inj' hplace (by simp)
  obtain ⟨_, htype⟩ := List.append_inj' hdir (by simp)
  exact h (Prod.ext (List.singleton_inj.mp htype) (List.singleton_inj.mp hid))

/-! ### Another path's `Save` -/

theorem save_lookup (htype : document.type = some type') (hid : document.id = some id')
    (hfile : storage.file type' id' ≠ storage.file type id) {at_ : List String}
    (hat : at_ = storage.metaFile type id ∨ at_ = storage.dataFile type id) :
    (storage.save codec extents document fs).state.files.lookup at_ = fs.files.lookup at_ := by
  rw [save_state codec storage extents fs htype hid]
  rcases hat with hat | hat
  · rw [hat, lookup_leave_ne _ _ (metaFile_ne_dataFile storage _ _ _ _),
      lookup_leave_ne _ _ (metaFile_ne hfile).symm, prepared_files]
  · rw [hat, lookup_leave_ne _ _ (dataFile_ne hfile).symm,
      lookup_leave_ne _ _ (metaFile_ne_dataFile storage _ _ _ _).symm, prepared_files]

theorem save_hasDirectory (htype : document.type = some type') (at_ : List String) :
    (storage.save codec extents document fs).state.HasDirectory at_ ↔
      (prepared (storage.dir type') extents.directory fs).HasDirectory at_ := by
  cases hid : document.id with
  | none => rw [save_state_no_id codec storage extents fs htype hid]
  | some id =>
    rw [save_state codec storage extents fs htype hid]
    simp only [HasDirectory, leave_directories]

theorem readAllBytes_of_not_mem {path : String} (h : fs.files.lookup (place path) = none) :
    ∃ e, fs.readAllBytes path = .error e := by
  simp only [readAllBytes, h]
  split
  · exact ⟨_, rfl⟩
  · split
    · exact ⟨_, rfl⟩
    · exact ⟨_, rfl⟩

theorem save_readAllBytes (htype : document.type = some type') {path : String}
    (hmem : place path ∈ fs.files) (hdir : fs.HasDirectory (place path).dropLast)
    (hlookup : (storage.save codec extents document fs).state.files.lookup (place path) =
      fs.files.lookup (place path)) :
    (storage.save codec extents document fs).state.readAllBytes path = fs.readAllBytes path := by
  have hstill : ∀ {at_}, fs.HasDirectory at_ →
      (storage.save codec extents document fs).state.HasDirectory at_ := fun h =>
    (save_hasDirectory htype _).mpr (HasDirectory_prepared _ _ h)
  refine readAllBytes_congr ⟨fun h => ?_, hstill⟩ ⟨fun _ => hdir, hstill⟩ hlookup
  -- no directory is made where a file is
  by_contra hnew
  exact (new_prepared ((save_hasDirectory htype _).mp h) hnew).2 hmem

/-- **Another path's `Save` does not change what `Load` returns.** -/
theorem load_of_other (hin : Inside storage type id) (hg : fs.Grounded)
    (htype : document.type = some type') (hid : document.id = some id')
    (hfile : storage.file type' id' ≠ storage.file type id)
    (hfs' : (storage.save codec extents document fs).state = fs') (result : Option Document) :
    storage.load codec (some type) (some id) fs' = .ok result ↔
      storage.load codec (some type) (some id) fs = .ok result := by
  have hmeta : fs'.files.lookup (storage.metaFile type id) =
      fs.files.lookup (storage.metaFile type id) := by
    rw [← hfs', save_lookup htype hid hfile (Or.inl rfl)]
  have hdata : fs'.files.lookup (storage.dataFile type id) =
      fs.files.lookup (storage.dataFile type id) := by
    rw [← hfs', save_lookup htype hid hfile (Or.inr rfl)]
  have hparent : (storage.dataFile type id).dropLast = storage.folder type := by
    obtain ⟨name, hname⟩ := (contained_dataFile_iff.mpr hin).child
    rw [hname, List.dropLast_concat]
  by_cases hmem : storage.dataFile type id ∈ fs.files
  · -- the data file is there, and so the folder
    have hfolder : fs.HasDirectory (storage.folder type) := hparent ▸ hg _ hmem
    have hfolder' : fs'.HasDirectory (storage.folder type) := by
      rw [← hfs', save_hasDirectory htype]
      exact HasDirectory_prepared _ _ hfolder
    have hreadData : fs'.readAllBytes (storage.file type id ++ ".bin") =
        fs.readAllBytes (storage.file type id ++ ".bin") := by
      subst hfs'
      exact save_readAllBytes htype hmem (hg _ hmem) hdata
    by_cases hmemMeta : storage.metaFile type id ∈ fs.files
    · have hreadMeta : fs'.readAllBytes (storage.file type id ++ ".json") =
          fs.readAllBytes (storage.file type id ++ ".json") := by
        subst hfs'
        exact save_readAllBytes htype hmemMeta (hg _ hmemMeta) hmeta
      rw [load_congr (iff_of_true hfolder' hfolder) hreadMeta hreadData hdata]
    · -- without the other file it is an error, which of them depends on the directories
      rw [AList.lookup_eq_none.mpr hmemMeta] at hmeta
      obtain ⟨e, he⟩ := readAllBytes_of_not_mem (AList.lookup_eq_none.mpr hmemMeta)
      obtain ⟨e', he'⟩ := readAllBytes_of_not_mem hmeta
      rw [load_eq, load_eq, if_pos hfolder, if_pos hfolder', hdata,
        if_pos (AList.lookup_isSome.mpr hmem), if_pos (AList.lookup_isSome.mpr hmem), he, he']
      exact iff_of_false (by simp [paired]) (by simp [paired])
  · rw [load_eq, load_eq, hdata, AList.lookup_eq_none.mpr hmem]
    simp only [Option.isSome_none, Bool.false_eq_true, if_false, ite_self]

/-- What holds of a type and an id that stay inside. -/
structure Kept (codec : Codec) (storage : DiskStorage) (type id : String) : Prop where
  /-- A `Save` that is done writes two files, both contained. -/
  saved : ∀ {extents document fs fs'}, document.type = some type → document.id = some id →
    storage.save codec extents document fs = .done fs' → ∃ metaFile dataFile text data,
      Contained storage type metaFile ∧ Contained storage type dataFile ∧
      fs'.files = (fs.files.insert metaFile text).insert dataFile data
  /-- A `Load` reads no file but those contained. -/
  loaded : ∀ {fs fs' : FileSystem}, (∀ at_, fs'.HasDirectory at_ ↔ fs.HasDirectory at_) →
    (∀ at_, Contained storage type at_ → fs'.files.lookup at_ = fs.files.lookup at_) →
    storage.load codec (some type) (some id) fs' = storage.load codec (some type) (some id) fs
  /-- A `Save` to another path does not change what it returns. -/
  apart : ∀ {extents document fs fs' type' id'}, fs.Grounded → document.type = some type' →
    document.id = some id' → storage.file type' id' ≠ storage.file type id →
    storage.save codec extents document fs = .done fs' → ∀ result,
    (storage.load codec (some type) (some id) fs' = .ok result ↔
      storage.load codec (some type) (some id) fs = .ok result)

theorem save_done_files (htype : document.type = some type) (hid : document.id = some id)
    (h : storage.save codec extents document fs = .done fs') : ∃ text data,
      fs'.files = (fs.files.insert (storage.metaFile type id) text).insert (storage.dataFile type id) data := by
  simp only [DiskStorage.save, htype, combine?] at h
  obtain ⟨fs₁, hmade, hsaved⟩ := Outcome.andThen_eq_done.mp h
  obtain ⟨hfiles, _⟩ := makeDirectory_done hmade
  obtain ⟨data, _, hfs'⟩ := saveIn_done hid hsaved
  refine ⟨codec.getBytes (DiskStorage.json codec document), data, ?_⟩
  rw [hfs', put_files, put_files, hfiles]
  rfl

theorem kept_of_inside (hin : Inside storage type id) : Kept codec storage type id where
  saved htype hid h := by
    obtain ⟨text, data, hfiles⟩ := save_done_files htype hid h
    exact ⟨_, _, text, data, contained_metaFile_iff.mpr hin, contained_dataFile_iff.mpr hin, hfiles⟩
  loaded hdirs hfiles := by
    have hmeta := hfiles _ (contained_metaFile_iff.mpr hin)
    have hdata := hfiles _ (contained_dataFile_iff.mpr hin)
    exact load_congr (hdirs _) (readAllBytes_congr (hdirs _) (hdirs _) hmeta)
      (readAllBytes_congr (hdirs _) (hdirs _) hdata) hdata
  apart hg htype hid hfile h := load_of_other hin hg htype hid hfile (by rw [h]; rfl)

end

/-- **A type and an id that stay inside keep their files there**; single names do, and different
ones lead to different paths. -/
theorem stays_inside (codec : Codec) (storage : DiskStorage) (type id : String) :
    (Inside storage type id → Kept codec storage type id) ∧
      (SingleName type → SingleName id → Inside storage type id ∧
        ∀ type' id', SingleName type' → SingleName id' → (type', id') ≠ (type, id) →
          storage.file type' id' ≠ storage.file type id) := by
  refine ⟨kept_of_inside, fun ht hi => ⟨inside_of_single storage ht hi, ?_⟩⟩
  exact fun type' id' ht' hi' hne => file_ne_of_single storage ht hi ht' hi' hne

theorem stays_inside_detour :
    (∃ metaFile dataFile text data, Contained ⟨"/data"⟩ "t/../u" metaFile ∧
      Contained ⟨"/data"⟩ "t/../u" dataFile ∧
      (DiskStorage.save noteCodec ⟨"/data"⟩ {}
        { id := some "./a", type := some "t/../u", data := some [1] } emptyDisk).state.files =
          (emptyDisk.files.insert metaFile text).insert dataFile data) ∧
    DiskStorage.load noteCodec ⟨"/data"⟩ (some "t") (some "b")
      (DiskStorage.save noteCodec ⟨"/data"⟩ {} note emptyDisk).state = .ok none := by
  have ht : SingleName "t" := ⟨by decide, by decide, by decide, by decide⟩
  have ha : SingleName "a" := ⟨by decide, by decide, by decide, by decide⟩
  have hb : SingleName "b" := ⟨by decide, by decide, by decide, by decide⟩
  refine ⟨?_, ?_⟩
  · exact ((stays_inside noteCodec ⟨"/data"⟩ "t/../u" "./a").1
      ⟨by decide +kernel, by decide +kernel⟩).saved rfl rfl (Outcome.eq_done_of_threw (by decide +kernel))
  · obtain ⟨hkept, hsingle⟩ := stays_inside noteCodec ⟨"/data"⟩ "t" "b"
    obtain ⟨hinside, hother⟩ := hsingle ht hb
    refine ((hkept hinside).apart (fun at_ hat => by cases hat) rfl rfl (hother "t" "a" ht ha (by decide))
      (Outcome.eq_done_of_threw (by decide +kernel)) none).mpr ?_
    decide +kernel

/-- **A type and an id lead out of the data folder**, and to another one's files. -/
theorem leaves_folder :
    (¬ ∀ (codec : Codec) (storage : DiskStorage) (extents : Extents) (document : Document)
      (type id : String) (fs fs' : FileSystem), document.type = some type → document.id = some id →
      storage.save codec extents document fs = .done fs' →
      ∀ at_, fs'.files.lookup at_ ≠ fs.files.lookup at_ → Contained storage type at_) ∧
    ¬ ∀ (codec : Codec) (storage : DiskStorage) (extents : Extents) (document : Document)
      (type id type' id' : String) (fs fs' : FileSystem), fs.Grounded → document.type = some type' →
      document.id = some id' → (type', id') ≠ (type, id) →
      storage.save codec extents document fs = .done fs' →
      storage.load codec (some type) (some id) fs' = storage.load codec (some type) (some id) fs := by
  refine ⟨?_, ?_⟩
  · intro h
    have hcontained := h noteCodec ⟨"/data"⟩ {} { id := some "etc", type := some "..", data := some [1] }
      ".." "etc" emptyDisk _ rfl rfl (Outcome.eq_done_of_threw (by decide +kernel)) ["etc.json"]
      (by decide +kernel)
    exact absurd hcontained.inside (by decide +kernel)
  · intro h
    have hload := h noteCodec ⟨"/data"⟩ {} note "./t" "a" "t" "a" emptyDisk _
      (fun at_ hat => by cases hat) rfl rfl (by decide) (Outcome.eq_done_of_threw (by decide +kernel))
    exact absurd hload (by decide +kernel)

end Blockcore.Storage
