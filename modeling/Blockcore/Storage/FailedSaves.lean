import Blockcore.Storage.Containment

/-!
# Saves that fail

A `Save` that throws leaves what it did before: directories, the `.json` file, a part of a
file.  `Load` looks for the `.bin` file, so what a first `Save` left is hidden without it, and
what a later `Save` left is not.

`Hidden` is when nothing of it is to be seen, in terms of the disk before and of how far it
let each write get; where the document was stored it is when what was written is what was
there (`hidden_iff_of_stored`).  `unseen_iff` says so for all types and ids, and also what a
missing id makes of it: a `Load` without one throws once the folder is there.
-/

namespace Blockcore.Storage

open Lib Lib.Paths Lib.FileSystem

def MakesDirectory (dir : String) (extent : Extent) (fs : FileSystem) : Prop :=
  ∃ at_, (prepared dir extent fs).HasDirectory at_ ∧ ¬ fs.HasDirectory at_

/-- There is a data file that some id leads to. -/
def AnyData (fs : FileSystem) : Prop :=
  ∃ path, (fs.files.lookup (place (getFullPath path ++ ".bin"))).isSome = true

/-- What is read of a file after a write left this in it. -/
def rewritten (left : Option (List UInt8)) (before : Except IOException (List UInt8)) :
    Except IOException (List UInt8) :=
  match left with
  | some bytes => .ok bytes
  | none => before

theorem rewritten_none (before : Except IOException (List UInt8)) : rewritten none before = before := rfl

/-- The two files are the document they were: a text that was written decodes to its metadata, and
bytes that were written are its data. Or they are none, as they were. -/
inductive SameDocument (codec : Codec) (textLeft bytesLeft : Option (List UInt8))
    (text bytes : Except IOException (List UInt8)) : Prop where
  | document {metadata : Document} {data : List UInt8}
      (hbefore : paired codec text bytes = .ok (some { metadata with data := some data }))
      (htext : ∀ text, textLeft = some text → ∃ m, codec.deserializeObject (codec.getString text) = .ok (some m) ∧
        { m with data := none } = { metadata with data := none })
      (hdata : ∀ bytes, bytesLeft = some bytes → bytes = data)
  | error {e : Exception} (hbefore : paired codec text bytes = .error e)
      (hafter : paired codec (rewritten textLeft text) (rewritten bytesLeft bytes) = .error e)

/-- When what a `Save` left is not to be seen. -/
structure Hidden (codec : Codec) (storage : DiskStorage) (extents : Extents) (document : Document)
    (fs : FileSystem) : Prop where
  /-- A new directory is not to be seen without a data file. -/
  folder : ∀ type, document.type = some type →
    MakesDirectory (storage.dir type) extents.directory fs → ¬ AnyData fs
  /-- A data file is not new. -/
  data : ∀ type id, document.type = some type → document.id = some id →
    (dataLeft (storage.dir type) (storage.file type id) extents document fs).isSome = true →
    (fs.files.lookup (storage.dataFile type id)).isSome = true
  /-- Where there was one, the document is the same. -/
  pair : ∀ type id, document.type = some type → document.id = some id →
    (fs.files.lookup (storage.dataFile type id)).isSome = true →
    SameDocument codec (metaLeft codec (storage.dir type) (storage.file type id) extents document fs)
      (dataLeft (storage.dir type) (storage.file type id) extents document fs)
      (fs.readAllBytes (storage.file type id ++ ".json")) (fs.readAllBytes (storage.file type id ++ ".bin"))

section

variable {codec : Codec} {storage : DiskStorage} {fs fs' : FileSystem} {document : Document}
  {type id type' id' : String} {extents : Extents} {dir file : String} {extent : Extent}

/-! ### What the writes leave -/

theorem metaLeft_of_dataLeft (h : (dataLeft dir file extents document fs).isSome = true) :
    (metaLeft codec dir file extents document fs).isSome = true := by
  unfold dataLeft at h
  split at h
  · next hw =>
    rw [metaLeft, if_pos hw.1, hw.2.1]
    rfl
  · cases h

theorem metaLeft_ready (h : (metaLeft codec dir file extents document fs).isSome = true) :
    Ready dir extents.directory fs ∧
      (prepared dir extents.directory fs).Writable (file ++ ".json") := by
  unfold metaLeft at h
  split at h
  · next hw => exact hw
  · cases h

theorem dataLeft_writable (h : (dataLeft dir file extents document fs).isSome = true) :
    (prepared dir extents.directory fs).Writable (file ++ ".bin") := by
  unfold dataLeft at h
  split at h
  · next hw => exact hw.2.2
  · cases h

theorem prepared_of_ready (h : Ready dir extent fs) :
    (prepared dir extent fs).HasDirectory (place dir) := by
  rcases h with h | ⟨hc, rfl⟩
  · exact HasDirectory_prepared _ _ (of_decide_eq_true h)
  · unfold prepared
    split
    · next h => exact of_decide_eq_true h
    · exact Or.inr (List.mem_append.mpr (Or.inl ((List.mem_inits _ _).mpr List.prefix_rfl)))

theorem prepared_iff (h : ¬ MakesDirectory dir extent fs) (at_ : List String) :
    (prepared dir extent fs).HasDirectory at_ ↔ fs.HasDirectory at_ := by
  refine ⟨fun hp => ?_, HasDirectory_prepared _ _⟩
  by_contra hnew
  exact h ⟨at_, hp, hnew⟩

theorem readAllBytes_rewritten {path : String} {bytes : Option (List UInt8)}
    (hw : bytes.isSome = true → fs'.Writable path)
    (hlookup : fs'.files.lookup (place path) = bytes.or (fs.files.lookup (place path)))
    (hdirs : ∀ at_, fs'.HasDirectory at_ ↔ fs.HasDirectory at_) :
    fs'.readAllBytes path = rewritten bytes (fs.readAllBytes path) := by
  cases bytes with
  | none => exact readAllBytes_congr (hdirs _) (hdirs _) hlookup
  | some bytes =>
    rw [Option.some_or] at hlookup
    simp only [readAllBytes, if_neg (hw rfl).1, hlookup]
    rfl

theorem paired_eq_iff {text : List UInt8} {bytes data : List UInt8} {metadata : Document} :
    paired codec (.ok text) (.ok data) = .ok (some { metadata with data := some bytes }) ↔
      (∃ m, codec.deserializeObject (codec.getString text) = .ok (some m) ∧
        { m with data := none } = { metadata with data := none }) ∧ data = bytes := by
  simp only [paired]
  cases hdoc : codec.deserializeObject (codec.getString text) with
  | error e => simp
  | ok document =>
    cases document with
    | none => simp
    | some m =>
      simp only [Except.ok.injEq, Option.some.injEq, Document.mk.injEq, exists_eq_left', and_true]
      tauto

theorem paired_rewritten_iff {text bytes : List UInt8} {metadata : Document}
    (hdec : codec.deserializeObject (codec.getString text) = .ok (some metadata))
    {textLeft bytesLeft : Option (List UInt8)}
    (horder : bytesLeft.isSome = true → textLeft.isSome = true) :
    paired codec (rewritten textLeft (.ok text)) (rewritten bytesLeft (.ok bytes)) =
        .ok (some { metadata with data := some bytes }) ↔
      (∀ text, textLeft = some text → ∃ m, codec.deserializeObject (codec.getString text) = .ok (some m) ∧
        { m with data := none } = { metadata with data := none }) ∧
      ∀ data, bytesLeft = some data → data = bytes := by
  cases textLeft with
  | none =>
    cases bytesLeft with
    | none => exact iff_of_true (paired_eq_iff.mpr ⟨⟨metadata, hdec, rfl⟩, rfl⟩) (by simp)
    | some data => cases horder rfl
  | some text =>
    cases bytesLeft with
    | none =>
      refine paired_eq_iff.trans ?_
      simp
    | some data =>
      refine paired_eq_iff.trans ?_
      simp

theorem paired_ok {text bytes : Except IOException (List UInt8)} {document : Option Document}
    (h : paired codec text bytes = .ok document) : ∃ t b metadata, text = .ok t ∧ bytes = .ok b ∧
      codec.deserializeObject (codec.getString t) = .ok (some metadata) ∧
      document = some { metadata with data := some b } := by
  cases text with
  | error e => cases h
  | ok t =>
    cases hdec : codec.deserializeObject (codec.getString t) with
    | error e => simp [paired, hdec] at h
    | ok found =>
      cases bytes with
      | error e => simp [paired, hdec] at h
      | ok b =>
        cases found with
        | none => simp [paired, hdec] at h
        | some metadata =>
          simp only [paired, hdec, Except.ok.injEq] at h
          exact ⟨t, b, metadata, rfl, rfl, hdec, h.symm⟩

theorem sameDocument_iff {textLeft bytesLeft : Option (List UInt8)}
    (horder : bytesLeft.isSome = true → textLeft.isSome = true)
    (text bytes : Except IOException (List UInt8)) : SameDocument codec textLeft bytesLeft text bytes ↔
      paired codec (rewritten textLeft text) (rewritten bytesLeft bytes) = paired codec text bytes := by
  refine ⟨fun h => ?_, fun h => ?_⟩
  · cases h with
    | @document metadata data hbefore htext hdata =>
      obtain ⟨t, b, found, rfl, rfl, hdec, heq⟩ := paired_ok hbefore
      obtain ⟨_, _, _, _, hb⟩ := Document.mk.inj (Option.some.inj heq)
      obtain rfl := Option.some.inj hb
      have hsame : { found with data := none } = { metadata with data := none } := by
        simp only [Option.some.injEq, Document.mk.injEq] at heq ⊢
        tauto
      rw [hbefore, heq]
      refine (paired_rewritten_iff hdec horder).mpr ⟨fun text htextLeft => ?_, hdata⟩
      rw [hsame]
      exact htext text htextLeft
    | error hbefore hafter => rw [hafter, hbefore]
  · cases hbefore : paired codec text bytes with
    | error e => exact .error hbefore (h.trans hbefore)
    | ok document =>
      obtain ⟨t, b, metadata, rfl, rfl, hdec, rfl⟩ := paired_ok hbefore
      rw [hbefore, paired_rewritten_iff hdec horder] at h
      exact .document hbefore h.1 h.2

variable (codec storage extents document fs) in
theorem sameDocument_save_iff (type id : String) :
    SameDocument codec (metaLeft codec (storage.dir type) (storage.file type id) extents document fs)
        (dataLeft (storage.dir type) (storage.file type id) extents document fs)
        (fs.readAllBytes (storage.file type id ++ ".json")) (fs.readAllBytes (storage.file type id ++ ".bin")) ↔
      paired codec
          (rewritten (metaLeft codec (storage.dir type) (storage.file type id) extents document fs)
            (fs.readAllBytes (storage.file type id ++ ".json")))
          (rewritten (dataLeft (storage.dir type) (storage.file type id) extents document fs)
            (fs.readAllBytes (storage.file type id ++ ".bin"))) =
        paired codec (fs.readAllBytes (storage.file type id ++ ".json"))
          (fs.readAllBytes (storage.file type id ++ ".bin")) :=
  sameDocument_iff metaLeft_of_dataLeft _ _

/-! ### What `Load` sees -/

theorem load_of_no_folder (h : ¬ fs.HasDirectory (storage.folder type)) :
    storage.load codec (some type) (some id) fs = .ok none := by
  rw [load_eq, if_neg h]

theorem load_of_no_data (h : (fs.files.lookup (storage.dataFile type id)).isSome = false) :
    storage.load codec (some type) (some id) fs = .ok none := by
  rw [load_eq, h]
  simp

theorem load_ne_none (hfolder : fs.HasDirectory (storage.folder type))
    (hdata : (fs.files.lookup (storage.dataFile type id)).isSome = true) :
    storage.load codec (some type) (some id) fs ≠ .ok none := by
  rw [load_eq, if_pos hfolder, if_pos hdata]
  exact paired_ne_none _ _ _

theorem not_anyData (h : ¬ AnyData fs) (storage : DiskStorage) (type id : String) :
    (fs.files.lookup (storage.dataFile type id)).isSome = false :=
  Bool.eq_false_iff.mpr fun hsome => h ⟨_, hsome⟩

theorem folder_render (storage : DiskStorage) {at_ : List String}
    (hnames : ∀ name ∈ at_, SingleName name) (hne : at_ ≠ []) :
    storage.folder (render at_) = at_ := by
  rw [folder_eq, combine_rooted _ (isPathRooted_render hne), place_render hnames]

/-- **A new directory shows** if there is a data file: some type leads to the one, and some id
to the other. -/
theorem new_directory_shows (codec : Codec) (storage : DiskStorage) {at_ : List String}
    (hnames : ∀ name ∈ at_, SingleName name) (hnew : ¬ fs.HasDirectory at_)
    (hmade : fs'.HasDirectory at_) (hdata : AnyData fs)
    (hfiles : ∀ at_, (fs.files.lookup at_).isSome = true → (fs'.files.lookup at_).isSome = true) :
    ∃ type id, storage.load codec (some type) (some id) fs' ≠
      storage.load codec (some type) (some id) fs := by
  obtain ⟨path, hpath⟩ := hdata
  have hfolder := folder_render storage hnames fun hnil => hnew (Or.inl hnil)
  have hfile : storage.file (render at_) (getFullPath path) = getFullPath path := by
    rw [DiskStorage.file, combine_rooted _ (isPathRooted_getFullPath path), getFullPath_getFullPath]
  have hbefore : storage.load codec (some (render at_)) (some (getFullPath path)) fs = .ok none := by
    refine load_of_no_folder ?_
    rw [hfolder]
    exact hnew
  have hafter : storage.load codec (some (render at_)) (some (getFullPath path)) fs' ≠ .ok none := by
    refine load_ne_none ?_ ?_
    · rw [hfolder]
      exact hmade
    · rw [DiskStorage.dataFile, hfile]
      exact hfiles _ hpath
  refine ⟨render at_, getFullPath path, ?_⟩
  rw [hbefore]
  exact hafter

/-! ### The two files after a `Save` -/

theorem isSome_leave (fs : FileSystem) (at_ : List String) (bytes : Option (List UInt8))
    {at_' : List String} (h : (fs.files.lookup at_').isSome = true) :
    ((fs.leave at_ bytes).files.lookup at_').isSome = true := by
  by_cases heq : at_' = at_
  · rw [heq, lookup_leave, Option.isSome_or, ← heq, h, Bool.or_true]
  · rwa [lookup_leave_ne _ _ heq]

theorem save_keeps {at_ : List String} (h : (fs.files.lookup at_).isSome = true) :
    ((storage.save codec extents document fs).state.files.lookup at_).isSome = true := by
  cases htype : document.type with
  | none =>
    rw [save_state_no_type codec storage extents fs htype]
    exact h
  | some type =>
    rw [← prepared_files (storage.dir type) extents.directory fs] at h
    cases hid : document.id with
    | none =>
      rw [save_state_no_id codec storage extents fs htype hid]
      exact h
    | some id =>
      rw [save_state codec storage extents fs htype hid]
      exact isSome_leave _ _ _ (isSome_leave _ _ _ h)

theorem save_lookup_dataFile (htype : document.type = some type) (hid : document.id = some id) :
    (storage.save codec extents document fs).state.files.lookup (storage.dataFile type id) =
      (dataLeft (storage.dir type) (storage.file type id) extents document fs).or
        (fs.files.lookup (storage.dataFile type id)) := by
  rw [save_state codec storage extents fs htype hid, lookup_leave,
    lookup_leave_ne _ _ (metaFile_ne_dataFile storage _ _ _ _).symm, prepared_files]

theorem save_lookup_metaFile (htype : document.type = some type) (hid : document.id = some id) :
    (storage.save codec extents document fs).state.files.lookup (storage.metaFile type id) =
      (metaLeft codec (storage.dir type) (storage.file type id) extents document fs).or
        (fs.files.lookup (storage.metaFile type id)) := by
  rw [save_state codec storage extents fs htype hid,
    lookup_leave_ne _ _ (metaFile_ne_dataFile storage _ _ _ _), lookup_leave, prepared_files]

theorem save_writable (htype : document.type = some type) {path : String}
    (h : (prepared (storage.dir type) extents.directory fs).Writable path) :
    (storage.save codec extents document fs).state.Writable path := by
  simp only [Writable, save_hasDirectory htype]
  exact h

/-- **What `Load` makes of the two files** where no directory was made. -/
theorem save_paired (htype : document.type = some type) (hid : document.id = some id)
    (hmade : ¬ MakesDirectory (storage.dir type) extents.directory fs) :
    paired codec
        ((storage.save codec extents document fs).state.readAllBytes (storage.file type id ++ ".json"))
        ((storage.save codec extents document fs).state.readAllBytes (storage.file type id ++ ".bin")) =
      paired codec
        (rewritten (metaLeft codec (storage.dir type) (storage.file type id) extents document fs)
          (fs.readAllBytes (storage.file type id ++ ".json")))
        (rewritten (dataLeft (storage.dir type) (storage.file type id) extents document fs)
          (fs.readAllBytes (storage.file type id ++ ".bin"))) := by
  have hdirs : ∀ at_, (storage.save codec extents document fs).state.HasDirectory at_ ↔
      fs.HasDirectory at_ := fun at_ =>
    (save_hasDirectory htype at_).trans (prepared_iff hmade at_)
  rw [readAllBytes_rewritten (fun h => save_writable htype (metaLeft_ready h).2)
      (save_lookup_metaFile htype hid) hdirs,
    readAllBytes_rewritten (fun h => save_writable htype (dataLeft_writable h))
      (save_lookup_dataFile htype hid) hdirs]

/-! ### What is to be seen -/

theorem made_directory (codec : Codec) (htype : document.type = some type)
    (h : MakesDirectory (storage.dir type) extents.directory fs) :
    ∃ at_, (∀ name ∈ at_, SingleName name) ∧ ¬ fs.HasDirectory at_ ∧
      (storage.save codec extents document fs).state.HasDirectory at_ := by
  obtain ⟨at_, hmade, hnew⟩ := h
  refine ⟨at_, fun name hname => ?_, hnew, (save_hasDirectory htype at_).mpr hmade⟩
  exact singleName_of_mem_place ((new_prepared hmade hnew).1.subset hname)

theorem hidden_of_load (h : ∀ type id : String,
    storage.load codec (some type) (some id) (storage.save codec extents document fs).state =
      storage.load codec (some type) (some id) fs) : Hidden codec storage extents document fs := by
  have hfolder : ∀ type, document.type = some type →
      MakesDirectory (storage.dir type) extents.directory fs → ¬ AnyData fs := by
    intro type htype hmakes hdata
    obtain ⟨at_, hnames, hnew, hmade⟩ := made_directory codec htype hmakes
    obtain ⟨type', id', hne⟩ := new_directory_shows codec storage hnames hnew hmade hdata
      fun _ => save_keeps
    exact hne (h type' id')
  -- once a file was written the folder is there
  have hready : ∀ type id, document.type = some type →
      (metaLeft codec (storage.dir type) (storage.file type id) extents document fs).isSome = true →
      (prepared (storage.dir type) extents.directory fs).HasDirectory (storage.folder type) :=
    fun type id htype hleft => prepared_of_ready (metaLeft_ready hleft).1
  refine ⟨hfolder, fun type id htype hid hleft => ?data, fun type id htype hid hdata => ?pair⟩
  case data =>
    by_contra hnone
    rw [Bool.not_eq_true] at hnone
    have hload := h type id
    rw [load_of_no_data hnone] at hload
    refine load_ne_none ?_ ?_ hload
    · exact (save_hasDirectory htype _).mpr (hready type id htype (metaLeft_of_dataLeft hleft))
    · rw [save_lookup_dataFile htype hid, Option.isSome_or, hleft, Bool.true_or]
  case pair =>
    have hmakes : ¬ MakesDirectory (storage.dir type) extents.directory fs := fun hmakes =>
      hfolder type htype hmakes ⟨_, hdata⟩
    by_cases hleft : (metaLeft codec (storage.dir type) (storage.file type id) extents document
        fs).isSome = true
    · have hthere := hready type id htype hleft
      have hload := h type id
      rw [load_eq, load_eq, if_pos ((save_hasDirectory htype _).mpr hthere),
        if_pos ((prepared_iff hmakes _).mp hthere), if_pos (save_keeps hdata), if_pos hdata,
        save_paired htype hid hmakes] at hload
      exact (sameDocument_save_iff codec storage fs document extents type id).mpr hload
    · -- nothing was written
      have hnoData : ¬ (dataLeft (storage.dir type) (storage.file type id) extents document
          fs).isSome = true := fun hsome => hleft (metaLeft_of_dataLeft hsome)
      refine (sameDocument_save_iff codec storage fs document extents type id).mpr ?_
      rw [Option.not_isSome_iff_eq_none.mp hleft, Option.not_isSome_iff_eq_none.mp hnoData,
        rewritten_none, rewritten_none]

theorem load_same (hdirs : ∀ at_, fs'.HasDirectory at_ ↔ fs.HasDirectory at_)
    (hmeta : fs'.files.lookup (storage.metaFile type id) = fs.files.lookup (storage.metaFile type id))
    (hdata : fs'.files.lookup (storage.dataFile type id) = fs.files.lookup (storage.dataFile type id)) :
    storage.load codec (some type) (some id) fs' = storage.load codec (some type) (some id) fs :=
  load_congr (hdirs _) (readAllBytes_congr (hdirs _) (hdirs _) hmeta)
    (readAllBytes_congr (hdirs _) (hdirs _) hdata) hdata

theorem Hidden.dataLeft_none (h : Hidden codec storage extents document fs)
    (htype : document.type = some type) (hid : document.id = some id)
    (hnone : (fs.files.lookup (storage.dataFile type id)).isSome = false) :
    (dataLeft (storage.dir type) (storage.file type id) extents document fs).isSome = false := by
  rw [Bool.eq_false_iff]
  intro hleft
  rw [h.data type id htype hid hleft] at hnone
  cases hnone

theorem save_no_data (h : Hidden codec storage extents document fs) (htype : document.type = some type)
    (hnone : ∀ type id, (fs.files.lookup (storage.dataFile type id)).isSome = false)
    (type' id' : String) : ((storage.save codec extents document fs).state.files.lookup
      (storage.dataFile type' id')).isSome = false := by
  cases hid : document.id with
  | none =>
    rw [save_state_no_id codec storage extents fs htype hid, prepared_files]
    exact hnone type' id'
  | some id =>
    by_cases hfile : storage.file type id = storage.file type' id'
    · have hplace : storage.dataFile type' id' = storage.dataFile type id := by
        rw [DiskStorage.dataFile, DiskStorage.dataFile, hfile]
      rw [hplace, save_lookup_dataFile htype hid, Option.isSome_or,
        h.dataLeft_none htype hid (hnone type id), hnone, Bool.or_false]
    · rw [save_lookup htype hid hfile (Or.inr rfl)]
      exact hnone type' id'

theorem load_of_same_file (h : Hidden codec storage extents document fs)
    (htype : document.type = some type) (hid : document.id = some id)
    (hmakes : ¬ MakesDirectory (storage.dir type) extents.directory fs)
    (hfile : storage.file type id = storage.file type' id') :
    storage.load codec (some type') (some id') (storage.save codec extents document fs).state =
      storage.load codec (some type') (some id') fs := by
  have hplace : storage.dataFile type' id' = storage.dataFile type id := by
    rw [DiskStorage.dataFile, DiskStorage.dataFile, hfile]
  have hfolder : (storage.save codec extents document fs).state.HasDirectory (storage.folder type') ↔
      fs.HasDirectory (storage.folder type') :=
    (save_hasDirectory htype _).trans (prepared_iff hmakes _)
  cases hdata : (fs.files.lookup (storage.dataFile type id)).isSome with
  | true =>
    rw [load_eq, load_eq, hplace, if_pos (save_keeps hdata), if_pos hdata, ← hfile,
      save_paired htype hid hmakes,
      (sameDocument_save_iff codec storage fs document extents type id).mp (h.pair type id htype hid hdata)]
    simp only [hfolder]
  | false =>
    rw [load_of_no_data ?_, load_of_no_data ?_]
    · rw [hplace]
      exact hdata
    · rw [hplace, save_lookup_dataFile htype hid, Option.isSome_or, h.dataLeft_none htype hid hdata,
        hdata, Bool.or_false]

theorem load_of_hidden (h : Hidden codec storage extents document fs) (type' id' : String) :
    storage.load codec (some type') (some id') (storage.save codec extents document fs).state =
      storage.load codec (some type') (some id') fs := by
  cases htype : document.type with
  | none => rw [save_state_no_type codec storage extents fs htype]
  | some type =>
    by_cases hmakes : MakesDirectory (storage.dir type) extents.directory fs
    · -- there is no data file, before and after
      have hnone := not_anyData (h.folder type htype hmakes) storage
      rw [load_of_no_data (hnone type' id'), load_of_no_data ?_]
      exact save_no_data h htype hnone type' id'
    · have hdirs : ∀ at_, (storage.save codec extents document fs).state.HasDirectory at_ ↔
          fs.HasDirectory at_ := fun at_ =>
        (save_hasDirectory htype at_).trans (prepared_iff hmakes at_)
      cases hid : document.id with
      | none =>
        have hfiles : (storage.save codec extents document fs).state.files = fs.files := by
          rw [save_state_no_id codec storage extents fs htype hid, prepared_files]
        exact load_same hdirs (by rw [hfiles]) (by rw [hfiles])
      | some id =>
        by_cases hfile : storage.file type id = storage.file type' id'
        · exact load_of_same_file h htype hid hmakes hfile
        · exact load_same hdirs (save_lookup htype hid hfile (Or.inl rfl))
            (save_lookup htype hid hfile (Or.inr rfl))

/-! ### A document that is stored -/

/-- The document is stored: its folder is there, and this metadata and these bytes are in its
files. -/
structure Stored (codec : Codec) (storage : DiskStorage) (type id : String) (metadata : Document)
    (bytes : List UInt8) (fs : FileSystem) : Prop where
  folder : fs.HasDirectory (storage.folder type)
  json : ∃ text, fs.readAllBytes (storage.file type id ++ ".json") = .ok text ∧
    codec.deserializeObject (codec.getString text) = .ok (some metadata)
  bin : fs.readAllBytes (storage.file type id ++ ".bin") = .ok bytes

theorem lookup_of_readAllBytes {path : String} {bytes : List UInt8}
    (h : fs.readAllBytes path = .ok bytes) : fs.files.lookup (place path) = some bytes := by
  cases hlookup : fs.files.lookup (place path) with
  | none =>
    obtain ⟨e, he⟩ := readAllBytes_of_not_mem hlookup
    rw [he] at h
    cases h
  | some found =>
    simp only [readAllBytes, hlookup] at h
    split at h
    · cases h
    · rw [Except.ok.inj h]

/-- **Overwriting a stored document** is hidden exactly if what was written is what was
there. -/
theorem hidden_iff_of_stored {metadata : Document} {bytes : List UInt8}
    (hs : Stored codec storage type id metadata bytes fs) (htype : document.type = some type)
    (hid : document.id = some id) : Hidden codec storage extents document fs ↔
      (∀ text, metaLeft codec (storage.dir type) (storage.file type id) extents document fs = some text →
        ∃ m, codec.deserializeObject (codec.getString text) = .ok (some m) ∧
          { m with data := none } = { metadata with data := none }) ∧
      ∀ data, dataLeft (storage.dir type) (storage.file type id) extents document fs = some data →
        data = bytes := by
  obtain ⟨text, hread, hdec⟩ := hs.json
  have hlookup : (fs.files.lookup (storage.dataFile type id)).isSome = true :=
    Option.isSome_iff_exists.mpr ⟨bytes, lookup_of_readAllBytes hs.bin⟩
  have hbefore : paired codec (.ok text) (.ok bytes) = .ok (some { metadata with data := some bytes }) :=
    paired_eq_iff.mpr ⟨⟨metadata, hdec, rfl⟩, rfl⟩
  rw [← paired_rewritten_iff hdec metaLeft_of_dataLeft, ← hbefore, ← hread, ← hs.bin,
    ← sameDocument_save_iff codec storage fs document extents type id]
  refine ⟨fun h => h.pair type id htype hid hlookup, fun hpair => ⟨?folder, ?data, ?pair⟩⟩
  case folder =>
    -- the folder was there
    rintro type' htype' ⟨at_, hmade, hnew⟩
    obtain rfl : type = type' := Option.some.inj (htype.symm.trans htype')
    have hexists : fs.directoryExists (storage.dir type) = true := decide_eq_true hs.folder
    rw [prepared, if_pos hexists] at hmade
    exact absurd hmade hnew
  case data =>
    intro type' id' htype' hid' _
    obtain rfl : type = type' := Option.some.inj (htype.symm.trans htype')
    obtain rfl : id = id' := Option.some.inj (hid.symm.trans hid')
    exact hlookup
  case pair =>
    intro type' id' htype' hid' _
    obtain rfl : type = type' := Option.some.inj (htype.symm.trans htype')
    obtain rfl : id = id' := Option.some.inj (hid.symm.trans hid')
    exact hpair

/-! ### Without an id -/

theorem load_no_id (codec : Codec) (storage : DiskStorage) (type : String) (fs : FileSystem) :
    storage.load codec (some type) none fs =
      if fs.HasDirectory (storage.folder type) then .error (.argumentNull "path2") else .ok none := by
  simp only [DiskStorage.load, combine?, getFullPath_dir, directoryExists, decide_eq_true_eq]
  rfl

theorem no_id_iff_no_directory : (∀ type : String,
      storage.load codec (some type) none (storage.save codec extents document fs).state =
        storage.load codec (some type) none fs) ↔
    ∀ type, document.type = some type → ¬ MakesDirectory (storage.dir type) extents.directory fs := by
  refine ⟨?_, ?_⟩
  · intro h type htype hmakes
    obtain ⟨at_, hnames, hnew, hmade⟩ := made_directory codec htype hmakes
    have hload := h (render at_)
    have hfolder := folder_render storage hnames fun hnil => hnew (Or.inl hnil)
    rw [load_no_id, load_no_id, hfolder, if_pos hmade, if_neg hnew] at hload
    cases hload
  · intro h type'
    cases htype : document.type with
    | none => rw [save_state_no_type codec storage extents fs htype]
    | some type =>
      rw [load_no_id, load_no_id]
      simp only [(save_hasDirectory htype _).trans (prepared_iff (h type htype) _)]

end

/-- **A failed `Save` is not seen** exactly if what it left is hidden; by `Load`s without an id
exactly if it made no directory, either. -/
theorem unseen_iff {codec : Codec} {storage : DiskStorage} {extents : Extents} {document : Document}
    {fs fs' : FileSystem} {e : Exception}
    (h : storage.save codec extents document fs = .thrown e fs') :
    ((∀ type id : String, storage.load codec (some type) (some id) fs' =
        storage.load codec (some type) (some id) fs) ↔ Hidden codec storage extents document fs) ∧
    ((∀ type id : Option String, storage.load codec type id fs' = storage.load codec type id fs) ↔
      Hidden codec storage extents document fs ∧
        ∀ type, document.type = some type →
          ¬ MakesDirectory (storage.dir type) extents.directory fs) := by
  have hstate : fs' = (storage.save codec extents document fs).state := by rw [h]; rfl
  subst hstate
  refine ⟨⟨hidden_of_load, load_of_hidden⟩, ⟨fun hload => ?_, fun hhidden => ?_⟩⟩
  · exact ⟨hidden_of_load fun type id => hload (some type) (some id),
      no_id_iff_no_directory.mp fun type => hload (some type) none⟩
  · rintro (_ | type) id
    · rfl
    · cases id with
      | none => exact no_id_iff_no_directory.mpr hhidden.2 type
      | some id => exact load_of_hidden hhidden.1 type id

/-- The first `Save` on the disk, whose text is cut short. -/
theorem unseen_iff_first : Hidden noteCodec ⟨"/data"⟩ { metaFile := .cut 3 } note emptyDisk ∧
    (⟨"/data"⟩ : DiskStorage).load noteCodec (some "t") (some "a")
      (DiskStorage.save noteCodec ⟨"/data"⟩ { metaFile := .cut 3 } note emptyDisk).state = .ok none := by
  have hempty : ∀ at_, emptyDisk.files.lookup at_ = none := fun at_ => rfl
  have hhidden : Hidden noteCodec ⟨"/data"⟩ { metaFile := .cut 3 } note emptyDisk := by
    refine ⟨?folder, ?data, ?pair⟩
    case folder =>
      rintro type _ _ ⟨path, hpath⟩
      rw [hempty] at hpath
      cases hpath
    case data =>
      intro type id _ _ hleft
      unfold dataLeft at hleft
      split at hleft
      · next hw => cases hw.2.1
      · cases hleft
    case pair =>
      intro type id _ _ hsome
      rw [hempty] at hsome
      cases hsome
  obtain ⟨e, he⟩ := Outcome.eq_thrown_of_threw (show (DiskStorage.save noteCodec ⟨"/data"⟩
    { metaFile := .cut 3 } note emptyDisk).threw = true by decide +kernel)
  refine ⟨hhidden, ((unseen_iff he).1.mpr hhidden "t" "a").trans ?_⟩
  decide +kernel

/-- The document in another version, signed and without data. -/
def signed : Document := { id := some "a", type := some "t", signature := some "s" }

def versionsCodec : Codec :=
  { noteCodec with
    deserializeObject := fun text =>
      if text = DiskStorage.json noteCodec signed then .ok (some signed)
      else noteCodec.deserializeObject text }

def noteDisk : FileSystem := (DiskStorage.save versionsCodec ⟨"/data"⟩ {} note emptyDisk).state

/-- **A failed `Save` is seen**: the note is loaded with the new signature and the old data. -/
theorem new_signature_with_old_data :
    (¬ ∀ (codec : Codec) (storage : DiskStorage) (extents : Extents) (document : Document)
      (fs fs' : FileSystem) (e : Exception), storage.save codec extents document fs = .thrown e fs' →
      ∀ type id : String, storage.load codec (some type) (some id) fs' =
        storage.load codec (some type) (some id) fs) ∧
    (⟨"/data"⟩ : DiskStorage).load versionsCodec (some "t") (some "a")
      (DiskStorage.save versionsCodec ⟨"/data"⟩ {} signed noteDisk).state =
        .ok (some { signed with data := some [1] }) := by
  have hload : (⟨"/data"⟩ : DiskStorage).load versionsCodec (some "t") (some "a")
      (DiskStorage.save versionsCodec ⟨"/data"⟩ {} signed noteDisk).state =
        .ok (some { signed with data := some [1] }) := by decide +kernel
  refine ⟨fun h => ?_, hload⟩
  obtain ⟨e, he⟩ := Outcome.eq_thrown_of_threw (show (DiskStorage.save versionsCodec ⟨"/data"⟩ {}
    signed noteDisk).threw = true by decide +kernel)
  have hsame := h _ _ _ _ _ _ e he "t" "a"
  rw [hload] at hsame
  exact absurd hsame (by decide +kernel)

end Blockcore.Storage
