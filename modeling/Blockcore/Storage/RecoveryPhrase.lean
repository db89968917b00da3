import Blockcore.Storage.Containment

/-!
# The recovery phrase

When a hub starts it makes a recovery phrase and writes it, protected, to a file of its data
folder; if the file is there it reads the phrase from it.  Documents are saved in the same
folder, under any names.

`phrases_agree` is what that is for: however often the hub starts, and whatever is saved or fails
in between, it never has two phrases.  `start_again_iff` is the price: `File.Exists` does not
tell a file that was written from one that was begun, so a start that fails while it writes leaves
a hub that never starts again.
-/

namespace Blockcore.Storage.RecoveryPhrase

open Lib Lib.Paths Lib.FileSystem

inductive Failure where
  | storage (e : Exception)
  | protection
  | format
  deriving DecidableEq

/-- `Mnemonic` and `Protection`, as far as they read. -/
structure Keys (Phrase : Type) where
  toString : Phrase → String
  mnemonic : String → Except Failure Phrase
  unprotect : String → Except Failure String

/-- What is new at a start: a phrase, and what `Protect` makes of it; and how far the disk lets
it get. -/
structure Attempt (Phrase : Type) where
  phrase : Phrase
  cipher : Except Failure String
  directory : Extent := .whole
  file : Extent := .whole

def phraseFile (storage : DiskStorage) : String := combine storage.dataFolder "recoveryphrase.txt"

def phrasePlace (storage : DiskStorage) : List String := place (phraseFile storage)

section

variable {Phrase : Type} (keys : Keys Phrase) (codec : Codec) (storage : DiskStorage)

def readBack (bytes : List UInt8) : Except Failure Phrase :=
  match keys.unprotect (codec.getString bytes) with
  | .error e => .error e
  | .ok text => keys.mnemonic text

/-- `StartAsync`, once the data folder is there. -/
def startIn (attempt : Attempt Phrase) (fs : FileSystem) : Except Failure Phrase × FileSystem :=
  if fs.fileExists (phraseFile storage) then
    match fs.readAllBytes (phraseFile storage) with
    | .error e => (.error (.storage (.io e)), fs)
    | .ok bytes => (readBack keys codec bytes, fs)
  else
    match attempt.cipher with
    | .error e => (.error e, fs)
    | .ok cipher =>
      match fs.writeAllBytes (phraseFile storage) (codec.getBytes cipher) attempt.file with
      | .thrown e fs => (.error (.storage (.io e)), fs)
      | .done fs => (.ok attempt.phrase, fs)

/-- `StartAsync`, as far as the recovery phrase: what it is, and the disk. -/
def start (attempt : Attempt Phrase) (fs : FileSystem) : Except Failure Phrase × FileSystem :=
  match (if fs.directoryExists storage.dataFolder then Outcome.done fs
    else (fs.createDirectory storage.dataFolder attempt.directory).mapError Exception.io) with
  | .thrown e fs => (.error (.storage e), fs)
  | .done fs => startIn keys codec storage attempt fs

/-- The hub starts, or a document is saved. -/
inductive Label (Phrase : Type) where
  | start (attempt : Attempt Phrase)
  | save (extents : Extents) (document : Document)

def step (fs : FileSystem) : Label Phrase → FileSystem
  | .start attempt => (start keys codec storage attempt fs).2
  | .save extents document => (storage.save codec extents document fs).state

def disk (fs : FileSystem) (ls : List (Label Phrase)) : FileSystem := ls.foldl (step keys codec storage) fs

def results : FileSystem → List (Label Phrase) → List (Except Failure Phrase)
  | _, [] => []
  | fs, .start attempt :: ls =>
    (start keys codec storage attempt fs).1 :: results (step keys codec storage fs (.start attempt)) ls
  | fs, .save extents document :: ls =>
    results (step keys codec storage fs (.save extents document : Label Phrase)) ls

/-- `Unprotect` undoes `Protect`, and the phrase can be read again. -/
structure Protects (attempt : Attempt Phrase) : Prop where
  text : ∀ cipher, attempt.cipher = .ok cipher → codec.getString (codec.getBytes cipher) = cipher
  cipher : ∀ cipher, attempt.cipher = .ok cipher →
    keys.unprotect cipher = .ok (keys.toString attempt.phrase)
  phrase : keys.mnemonic (keys.toString attempt.phrase) = .ok attempt.phrase

end

/-! ### Where the file is -/

section

variable {codec : Codec} {storage : DiskStorage} {fs fs' : FileSystem} {document : Document}
  {extents : Extents}

theorem phraseFile_single : SingleName "recoveryphrase.txt" :=
  ⟨by decide, by decide, by decide, by decide⟩

theorem phrasePlace_eq (storage : DiskStorage) :
    phrasePlace storage = place storage.dataFolder ++ ["recoveryphrase.txt"] :=
  place_combine _ phraseFile_single

theorem phraseFile_not_separator (storage : DiskStorage) : endsInSeparator (phraseFile storage) = false := by
  have h := not_endsInSeparator_combine storage.dataFolder phraseFile_single
  simpa [phraseFile] using h

theorem name_ne {suffix : String} (hs : suffix.toList.getLast? ≠ some 't') (hne : suffix.toList ≠ [])
    (at_ : List String) (name : String) : phrasePlace storage ≠ at_ ++ [name ++ suffix] := by
  intro heq
  rw [phrasePlace_eq] at heq
  have hname : "recoveryphrase.txt" = name ++ suffix := (List.singleton_inj.mp (List.append_inj' heq rfl).2)
  have hlast := congrArg (fun s => s.toList.getLast?) hname
  simp only [String.toList_append] at hlast
  rw [List.getLast?_append_of_ne_nil _ hne] at hlast
  exact hs (hlast.symm.trans (by decide))

theorem phrasePlace_ne_metaFile (type id : String) : phrasePlace storage ≠ storage.metaFile type id := by
  rw [metaFile_eq]
  exact name_ne (by decide) (by decide) _ _

theorem phrasePlace_ne_dataFile (type id : String) : phrasePlace storage ≠ storage.dataFile type id := by
  rw [dataFile_eq]
  exact name_ne (by decide) (by decide) _ _

/-- **A `Save`** leaves the file alone. -/
theorem save_lookup_phrase (codec : Codec) (extents : Extents) (document : Document) (fs : FileSystem) :
    (storage.save codec extents document fs).state.files.lookup (phrasePlace storage) =
      fs.files.lookup (phrasePlace storage) := by
  cases htype : document.type with
  | none => rw [save_state_no_type codec storage extents fs htype]
  | some type =>
    cases hid : document.id with
    | none => rw [save_state_no_id codec storage extents fs htype hid, prepared_files]
    | some id =>
      rw [save_state codec storage extents fs htype hid, lookup_leave_ne _ _ (phrasePlace_ne_dataFile type id),
        lookup_leave_ne _ _ (phrasePlace_ne_metaFile type id), prepared_files]

end

/-! ### One start -/

section

variable {Phrase : Type} {keys : Keys Phrase} {codec : Codec} {storage : DiskStorage}
  {fs fs' : FileSystem} {attempt : Attempt Phrase} {bytes : List UInt8}

theorem start_eq (keys : Keys Phrase) (codec : Codec) (storage : DiskStorage) (attempt : Attempt Phrase)
    (fs : FileSystem) : (∃ e, start keys codec storage attempt fs =
        (.error (.storage e), prepared storage.dataFolder attempt.directory fs)) ∨
      start keys codec storage attempt fs =
        startIn keys codec storage attempt (prepared storage.dataFolder attempt.directory fs) := by
  have hstate := prepare_state storage.dataFolder attempt.directory fs
  rw [start]
  split
  · next e fs₁ heq =>
    rw [heq] at hstate
    exact Or.inl ⟨e, by rw [← hstate, Outcome.state_thrown]⟩
  · next fs₁ heq =>
    rw [heq] at hstate
    exact Or.inr (by rw [← hstate, Outcome.state_done])

variable (keys codec attempt) in
/-- **The file is there**: it is read, and nothing is written. -/
theorem startIn_of_some (h : fs.files.lookup (phrasePlace storage) = some bytes) :
    (startIn keys codec storage attempt fs).2 = fs ∧
      (¬ fs.HasDirectory (phrasePlace storage) →
        (startIn keys codec storage attempt fs).1 = readBack keys codec bytes) ∧
      ∀ p, (startIn keys codec storage attempt fs).1 = .ok p → readBack keys codec bytes = .ok p := by
  have hsep := phraseFile_not_separator storage
  have hexists : fs.fileExists (phraseFile storage) = true := by
    rw [fileExists_iff hsep, ← AList.lookup_isSome]
    exact Option.isSome_of_eq_some h
  have hread : ∀ bytes', fs.readAllBytes (phraseFile storage) = .ok bytes' → bytes' = bytes := by
    intro bytes' hok
    unfold readAllBytes at hok
    split at hok
    · cases hok
    · rw [show fs.files.lookup (place (phraseFile storage)) = some bytes from h] at hok
      exact (Except.ok.inj hok).symm
  rw [startIn, if_pos hexists]
  split
  · next e he =>
    refine ⟨rfl, fun hdir => ?_, fun p hp => by cases hp⟩
    rw [readAllBytes_of_lookup hsep hdir h] at he
    cases he
  · next bytes' hok =>
    rw [hread bytes' hok]
    exact ⟨rfl, fun _ => rfl, fun p hp => hp⟩

variable (keys codec attempt) in
/-- **It is not there**: it is written as far as the disk lets it, or not at all. -/
theorem startIn_of_none (h : fs.files.lookup (phrasePlace storage) = none) :
    (∃ e, startIn keys codec storage attempt fs = (.error e, fs)) ∨
      ∃ cipher bytes, attempt.cipher = .ok cipher ∧ left (codec.getBytes cipher) attempt.file = some bytes ∧
        fs.Writable (phraseFile storage) ∧
        (startIn keys codec storage attempt fs).2 = fs.put (phrasePlace storage) bytes ∧
        ∀ p, (startIn keys codec storage attempt fs).1 = .ok p →
          p = attempt.phrase ∧ bytes = codec.getBytes cipher := by
  have hexists : ¬ fs.fileExists (phraseFile storage) = true := by
    rw [fileExists_iff (phraseFile_not_separator storage), ← AList.lookup_isSome]
    intro hsome
    rw [show fs.files.lookup (place (phraseFile storage)) = none from h] at hsome
    cases hsome
  rw [startIn, if_neg hexists]
  cases hcipher : attempt.cipher with
  | error e => exact Or.inl ⟨e, rfl⟩
  | ok cipher =>
    have hstate := writeAllBytes_state fs (phraseFile storage) (codec.getBytes cipher) attempt.file
    have hthrew := writeAllBytes_threw fs (phraseFile storage) (codec.getBytes cipher) attempt.file
    simp only
    cases hw : fs.writeAllBytes (phraseFile storage) (codec.getBytes cipher) attempt.file with
    | done fs₁ =>
      rw [hw] at hstate hthrew
      obtain ⟨hwritable, hwhole⟩ := hthrew.mp rfl
      rw [if_pos hwritable, hwhole] at hstate
      refine Or.inr ⟨cipher, codec.getBytes cipher, rfl, by rw [hwhole, left], hwritable, hstate,
        fun p hp => ?_⟩
      exact ⟨(Except.ok.inj hp).symm, rfl⟩
    | thrown e fs₁ =>
      rw [hw, Outcome.state_thrown] at hstate
      by_cases hwritable : fs.Writable (phraseFile storage)
      · rw [if_pos hwritable] at hstate
        cases hleft : left (codec.getBytes cipher) attempt.file with
        | none =>
          rw [hleft] at hstate
          exact Or.inl ⟨_, by rw [hstate]; rfl⟩
        | some bytes =>
          rw [hleft] at hstate
          exact Or.inr ⟨cipher, bytes, rfl, hleft, hwritable, hstate, fun p hp => by cases hp⟩
      · rw [if_neg hwritable] at hstate
        exact Or.inl ⟨_, by rw [hstate]; rfl⟩

/-- The file is there, and can be read. -/
structure Settled (storage : DiskStorage) (bytes : List UInt8) (fs : FileSystem) : Prop where
  file : fs.files.lookup (phrasePlace storage) = some bytes
  folder : fs.HasDirectory (place storage.dataFolder)
  plain : ¬ fs.HasDirectory (phrasePlace storage)

variable (keys codec attempt) in
theorem start_lookup (h : fs.files.lookup (phrasePlace storage) = some bytes) :
    (start keys codec storage attempt fs).2.files.lookup (phrasePlace storage) = some bytes ∧
      ∀ p, (start keys codec storage attempt fs).1 = .ok p → readBack keys codec bytes = .ok p := by
  have hprepared : (prepared storage.dataFolder attempt.directory fs).files.lookup (phrasePlace storage) =
      some bytes := by rw [prepared_files, h]
  rcases start_eq keys codec storage attempt fs with ⟨e, heq⟩ | heq
  · rw [heq]
    exact ⟨hprepared, fun p hp => by cases hp⟩
  · obtain ⟨hfs, _, hok⟩ := startIn_of_some keys codec attempt hprepared
    rw [heq, hfs]
    exact ⟨hprepared, hok⟩

/-- **A start that finds the file** reads it. -/
theorem Settled.start_eq (h : Settled storage bytes fs) :
    start keys codec storage attempt fs = (readBack keys codec bytes, fs) := by
  have hexists : fs.directoryExists storage.dataFolder = true := decide_eq_true h.folder
  obtain ⟨hfs, hread, _⟩ := startIn_of_some keys codec attempt h.file
  rw [start, if_pos hexists]
  exact Prod.ext (hread h.plain) hfs

/-- **A `Save`** does not get in the way. -/
theorem Settled.save (h : Settled storage bytes fs) (extents : Extents) (document : Document) :
    Settled storage bytes (storage.save codec extents document fs).state := by
  refine ⟨(save_lookup_phrase codec extents document fs).trans h.file, ?_, ?_⟩
  · cases htype : document.type with
    | none =>
      rw [save_state_no_type codec storage extents fs htype]
      exact h.folder
    | some type => exact (save_hasDirectory htype _).mpr (HasDirectory_prepared _ _ h.folder)
  · cases htype : document.type with
    | none =>
      rw [save_state_no_type codec storage extents fs htype]
      exact h.plain
    | some type =>
      intro hdir
      -- no directory is made where a file is
      have hnew := (new_prepared ((save_hasDirectory htype _).mp hdir) h.plain).2
      rw [← AList.lookup_isSome, h.file] at hnew
      exact hnew rfl

variable (keys codec attempt) in
/-- **A start that does not find the file** may leave it, with the phrase it returns. -/
theorem start_of_none (h : fs.files.lookup (phrasePlace storage) = none) :
    ((start keys codec storage attempt fs).2.files.lookup (phrasePlace storage) = none ∧
        ∃ e, (start keys codec storage attempt fs).1 = .error e) ∨
      ∃ cipher bytes, attempt.cipher = .ok cipher ∧ left (codec.getBytes cipher) attempt.file = some bytes ∧
        Settled storage bytes (start keys codec storage attempt fs).2 ∧
        ∀ p, (start keys codec storage attempt fs).1 = .ok p →
          p = attempt.phrase ∧ bytes = codec.getBytes cipher := by
  have hprepared : (prepared storage.dataFolder attempt.directory fs).files.lookup (phrasePlace storage) =
      none := by rw [prepared_files, h]
  rcases RecoveryPhrase.start_eq keys codec storage attempt fs with ⟨e, heq⟩ | heq
  · rw [heq]
    exact Or.inl ⟨hprepared, _, rfl⟩
  · rw [heq]
    rcases startIn_of_none keys codec attempt hprepared with
      ⟨e, hfailed⟩ | ⟨cipher, bytes, hcipher, hleft, hwritable, hput, hok⟩
    · rw [hfailed]
      exact Or.inl ⟨hprepared, e, rfl⟩
    · refine Or.inr ⟨cipher, bytes, hcipher, hleft, ?_, hok⟩
      rw [hput]
      obtain ⟨hplain, hfolder⟩ := hwritable
      refine ⟨AList.lookup_insert _, ?_, fun hdir => hplain (Or.inr hdir)⟩
      rw [show place (phraseFile storage) = place storage.dataFolder ++ ["recoveryphrase.txt"] from
        phrasePlace_eq storage, List.dropLast_concat] at hfolder
      exact hfolder

/-! ### Runs -/

theorem results_of_some (h : fs.files.lookup (phrasePlace storage) = some bytes)
    {ls : List (Label Phrase)} {p : Phrase} (hp : .ok p ∈ results keys codec storage fs ls) :
    readBack keys codec bytes = .ok p := by
  induction ls generalizing fs with
  | nil => cases hp
  | cons l ls ih =>
    cases l with
    | start attempt =>
      obtain ⟨hkept, hread⟩ := start_lookup keys codec attempt h
      rcases List.mem_cons.mp hp with hp | hp
      · exact hread p hp.symm
      · exact ih hkept hp
    | save extents document => exact ih ((save_lookup_phrase codec extents document fs).trans h) hp

theorem Protects.readBack_eq (h : Protects keys codec attempt) {cipher : String}
    (hcipher : attempt.cipher = .ok cipher) :
    readBack keys codec (codec.getBytes cipher) = .ok attempt.phrase := by
  rw [readBack, h.text cipher hcipher, h.cipher cipher hcipher]
  exact h.phrase

theorem results_agree (keys : Keys Phrase) (codec : Codec) (storage : DiskStorage)
    {ls : List (Label Phrase)} (hprotects : ∀ attempt, .start attempt ∈ ls → Protects keys codec attempt)
    (fs : FileSystem) :
    ∃ r, ∀ p, .ok p ∈ results keys codec storage fs ls → r = (.ok p : Except Failure Phrase) := by
  induction ls generalizing fs with
  | nil => exact ⟨.error .format, fun p hp => by cases hp⟩
  | cons l ls ih =>
    have hlater := ih fun attempt hmem => hprotects attempt (List.mem_cons_of_mem _ hmem)
    cases hlookup : fs.files.lookup (phrasePlace storage) with
    | some bytes => exact ⟨readBack keys codec bytes, fun p hp => results_of_some hlookup hp⟩
    | none =>
      cases l with
      | save extents document => exact hlater _
      | start attempt =>
        rcases start_of_none keys codec attempt hlookup with
          ⟨_, e, herror⟩ | ⟨cipher, bytes, hcipher, _, hsettled, hok⟩
        · -- it left no file, and failed
          obtain ⟨r, hr⟩ := hlater (start keys codec storage attempt fs).2
          refine ⟨r, fun p hp => ?_⟩
          rcases List.mem_cons.mp hp with hp | hp
          · rw [herror] at hp
            cases hp
          · exact hr p hp
        · refine ⟨readBack keys codec bytes, fun p hp => ?_⟩
          rcases List.mem_cons.mp hp with hp | hp
          · obtain ⟨rfl, rfl⟩ := hok p hp.symm
            exact (hprotects attempt (List.mem_cons_self ..)).readBack_eq hcipher
          · exact results_of_some hsettled.file hp

/-- **A hub has one recovery phrase**, whatever is saved or fails between its starts. -/
theorem phrases_agree (keys : Keys Phrase) (codec : Codec) (storage : DiskStorage) (fs : FileSystem)
    {ls : List (Label Phrase)} (hprotects : ∀ attempt, .start attempt ∈ ls → Protects keys codec attempt)
    {p q : Phrase} (hp : .ok p ∈ results keys codec storage fs ls)
    (hq : .ok q ∈ results keys codec storage fs ls) : p = q := by
  obtain ⟨r, hr⟩ := results_agree keys codec storage hprotects fs
  exact Except.ok.inj ((hr p hp).symm.trans (hr q hq))

theorem Settled.disk (h : Settled storage bytes fs) (ls : List (Label Phrase)) :
    Settled storage bytes (disk keys codec storage fs ls) := by
  induction ls generalizing fs with
  | nil => exact h
  | cons l ls ih =>
    refine ih ?_
    cases l with
    | start attempt =>
      rw [step, h.start_eq]
      exact h
    | save extents document => exact h.save extents document

/-- `Unprotect` throws on what is not all of a cipher. -/
def RejectsCut (keys : Keys Phrase) (codec : Codec) (cipher : String) : Prop :=
  ∀ n < (codec.getBytes cipher).length, ∃ e,
    keys.unprotect (codec.getString ((codec.getBytes cipher).take n)) = .error e

/-- **A hub that has left the file starts again**, at any time, exactly if it wrote all of it. -/
theorem start_again_iff (fs : FileSystem) (hprotects : Protects keys codec attempt) {cipher : String}
    (hcipher : attempt.cipher = .ok cipher) (hcut : RejectsCut keys codec cipher)
    (hnone : fs.files.lookup (phrasePlace storage) = none)
    (hsome : ((start keys codec storage attempt fs).2.files.lookup (phrasePlace storage)).isSome = true)
    (ls : List (Label Phrase)) (again : Attempt Phrase) :
    (start keys codec storage again (disk keys codec storage (start keys codec storage attempt fs).2 ls)).1 =
        .ok attempt.phrase ↔
      left (codec.getBytes cipher) attempt.file = some (codec.getBytes cipher) := by
  rcases start_of_none keys codec attempt hnone with
    ⟨hstill, _⟩ | ⟨cipher', bytes, hcipher', hleft, hsettled, _⟩
  · rw [hstill] at hsome
    cases hsome
  · obtain rfl := Except.ok.inj (hcipher.symm.trans hcipher')
    rw [(hsettled.disk ls).start_eq, hleft]
    refine ⟨fun hok => ?_, fun hwhole => ?_⟩
    · cases hfile : attempt.file with
      | whole =>
        rw [hfile] at hleft
        exact hleft.symm
      | untouched =>
        rw [hfile] at hleft
        cases hleft
      | cut n =>
        rw [hfile, left] at hleft
        obtain rfl := Option.some.inj hleft
        by_cases hn : n < (codec.getBytes cipher).length
        · obtain ⟨e, he⟩ := hcut n hn
          simp only [readBack, he] at hok
          cases hok
        · rw [List.take_of_length_le (Nat.le_of_not_lt hn)]
    · rw [Option.some.inj hwhole]
      exact hprotects.readBack_eq hcipher

end

/-! ### Two starts -/

/-- Phrases are their texts, and one has been protected so far. -/
def rainKeys : Keys String where
  toString phrase := phrase
  mnemonic text := .ok text
  unprotect cipher := if cipher = "CfDJ8-rain" then .ok "rain" else .error .protection

def rain (file : Extent) : Attempt String :=
  { phrase := "rain", cipher := .ok "CfDJ8-rain", file := file }

theorem protects_rain (file : Extent) : Protects rainKeys noteCodec (rain file) := by
  refine ⟨fun cipher hcipher => ?_, fun cipher hcipher => ?_, rfl⟩
  · rw [← Except.ok.inj hcipher]
    decide
  · rw [← Except.ok.inj hcipher]
    rfl

theorem rejectsCut_rain : RejectsCut rainKeys noteCodec "CfDJ8-rain" := by
  have hlen : (noteCodec.getBytes "CfDJ8-rain").length = 10 := by decide
  rw [RejectsCut, hlen]
  intro n hn
  refine ⟨.protection, if_neg ?_⟩
  revert n
  decide

/-- The hub starts, saves a document and starts again. -/
def twice : List (Label String) := [.start (rain .whole), .save {} note, .start (rain .whole)]

theorem phrases_agree_twice : ∃ p q,
    results rainKeys noteCodec ⟨"/data"⟩ emptyDisk twice = [.ok p, .ok q] ∧ p = q := by
  have hresults : results rainKeys noteCodec ⟨"/data"⟩ emptyDisk twice = [.ok "rain", .ok "rain"] := by
    decide +kernel
  refine ⟨"rain", "rain", hresults, ?_⟩
  have hmem : .ok "rain" ∈ results rainKeys noteCodec ⟨"/data"⟩ emptyDisk twice := by
    rw [hresults]
    exact List.mem_cons_self ..
  refine phrases_agree rainKeys noteCodec ⟨"/data"⟩ emptyDisk (fun attempt hattempt => ?_) hmem hmem
  simp only [twice, List.mem_cons, Label.start.injEq, reduceCtorEq, List.not_mem_nil, or_false,
    false_or, or_self] at hattempt
  rw [hattempt]
  exact protects_rain .whole

/-- The first start is cut short, and no later one succeeds. -/
theorem start_again_iff_cut :
    (start rainKeys noteCodec ⟨"/data"⟩ (rain .whole) (disk rainKeys noteCodec ⟨"/data"⟩
      (start rainKeys noteCodec ⟨"/data"⟩ (rain (.cut 3)) emptyDisk).2 [.save {} note])).1 ≠ .ok "rain" := by
  intro hok
  have hwhole := (start_again_iff emptyDisk (protects_rain (.cut 3)) rfl rejectsCut_rain (by decide +kernel)
    (by decide +kernel) [.save {} note] (rain .whole)).mp hok
  exact absurd hwhole (by decide)

end Blockcore.Storage.RecoveryPhrase
