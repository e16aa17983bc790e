/-
# Backups taken again and again

A directory that is given to one snapshot after another collects files and never
loses one: under each name it has the file of the last snapshot that found one there.
A restore brings all of these back over what the data holds. The order in which
directories are listed makes no difference, and nothing else is touched. A command
fails exactly when a file would have to replace a directory or enter a file, or when
its source is not a directory.
-/

import ServerGo.Analysis.SnapshotRestore
import ServerGo.Math.History
import ServerGo.Math.Steps

namespace ServerGo.Analysis

open ServerGo.Math ServerGo.Storage ServerGo.Tools

variable {target : String} {fs after : FileSystem} {entries : Directory}

/-! ## When a command fails -/

/-- A file cannot be made in the target under this name: the target is a file, or there
is a directory of that name. -/
def IsBlocked (fs : FileSystem) (target name : String) : Prop :=
  if target = "" then ∃ sub, fs name = some (.dir sub)
  else (∃ content, fs target = some (.file content)) ∨
    ∃ sub, (entriesAt fs target).lookup name = some (.dir sub)

/-- Whether files can be made in the target at all. -/
def IsReady (fs : FileSystem) (target : String) : Prop :=
  target = "" ∨ fs target ≠ none

theorem isBlocked_of_dir (hpath : target ≠ "") (htarget : fs target = some (.dir entries))
    (name : String) :
    IsBlocked fs target name ↔ ∃ sub, entries.lookup name = some (.dir sub) := by
  rw [IsBlocked, if_neg hpath, htarget, entriesAt_of_dir ((find_of_ne hpath).trans htarget)]
  apply or_iff_right
  rintro ⟨content, hfile⟩
  cases hfile

/-- A file can be made under a name that is not blocked. -/
theorem writeTo_isSome_iff (hready : IsReady fs target) (name : String) (content : Bytes) :
    (fs.writeTo target name content).isSome ↔ ¬IsBlocked fs target name := by
  by_cases hpath : target = ""
  · rw [FileSystem.writeTo, IsBlocked, if_pos hpath, if_pos hpath]
    split
    next sub hdir => simp [hdir]
    next hother =>
      refine iff_of_true rfl ?_
      rintro ⟨sub, hdir⟩
      exact hother sub hdir
  · obtain ⟨location, hlocation⟩ :=
      Option.ne_none_iff_exists'.mp (hready.resolve_left hpath)
    rw [FileSystem.writeTo, if_neg hpath, hlocation]
    cases location with
    | file other =>
        rw [IsBlocked, if_neg hpath, hlocation]
        exact iff_of_false Bool.false_ne_true fun hfree => hfree (Or.inl ⟨other, rfl⟩)
    | dir entries =>
        rw [isBlocked_of_dir hpath hlocation]
        dsimp only
        split
        next sub hdir => simp [hdir]
        next hother =>
          refine iff_of_true rfl ?_
          rintro ⟨sub, hdir⟩
          exact hother sub hdir

/-- A file that has been made is in no other file's way, and the target is still there.
-/
theorem isBlocked_after_writeTo {key name : String} {content : Bytes}
    (hwrite : fs.writeTo target key content = some after) :
    IsReady after target ∧ (IsBlocked after target name ↔ IsBlocked fs target name) := by
  by_cases hpath : target = ""
  · rw [FileSystem.writeTo, if_pos hpath] at hwrite
    refine ⟨Or.inl hpath, ?_⟩
    rw [IsBlocked, IsBlocked, if_pos hpath, if_pos hpath]
    split at hwrite
    next => cases hwrite
    next hother =>
      cases hwrite
      by_cases hname : name = key
      · subst hname
        rw [Function.update_self]
        apply iff_of_false
        · rintro ⟨sub, hdir⟩
          cases hdir
        · rintro ⟨sub, hdir⟩
          exact hother sub hdir
      · rw [Function.update_of_ne hname]
  · rw [FileSystem.writeTo, if_neg hpath] at hwrite
    split at hwrite
    next entries htarget =>
      split at hwrite
      next => cases hwrite
      next hother =>
        cases hwrite
        have hafter : Function.update fs target (some (.dir (entries.insert key (.file content))))
            target = some (.dir (entries.insert key (.file content))) := Function.update_self ..
        refine ⟨Or.inr (by simp), ?_⟩
        rw [isBlocked_of_dir hpath hafter, isBlocked_of_dir hpath htarget]
        by_cases hname : name = key
        · subst hname
          rw [AList.lookup_insert]
          apply iff_of_false
          · rintro ⟨sub, hdir⟩
            cases hdir
          · rintro ⟨sub, hdir⟩
            exact hother sub hdir
        · rw [AList.lookup_insert_ne hname]
    next => cases hwrite

variable {source : String}

/-- The loop succeeds when no plain file listed is blocked. -/
theorem copyFiles_isSome_iff {listing : List (Sigma fun _ : String => Tree)}
    (hready : IsReady fs target) :
    (fs.copyFiles source target listing).isSome ↔ ∀ entry ∈ listing, entry.2.file?.isSome →
      ¬IsBlocked fs target entry.1 := by
  induction listing generalizing fs with
  | nil => simp [FileSystem.copyFiles]
  | cons entry listing ih =>
      rw [List.forall_mem_cons, FileSystem.copyFiles, List.foldlM_cons, FileSystem.copyEntry]
      cases hfile : entry.2.file? with
      | none => simpa [FileSystem.copyFiles] using ih hready
      | some content =>
          have hfirst := writeTo_isSome_iff hready entry.1
            (FileSystem.copiedContent source target content)
          dsimp only
          rw [FileSystem.copyTo]
          cases hwrite : fs.writeTo target entry.1
              (FileSystem.copiedContent source target content) with
          | none =>
              rw [hwrite] at hfirst
              exact iff_of_false Bool.false_ne_true fun hall => by
                cases hfirst.mpr (hall.1 rfl)
          | some between =>
              rw [hwrite] at hfirst
              have hnext : IsReady between target ∧
                  (IsBlocked between target entry.1 ↔ IsBlocked fs target entry.1) :=
                isBlocked_after_writeTo hwrite
              have hrest := ih hnext.1
              simp only [(isBlocked_after_writeTo hwrite).2] at hrest
              simpa [FileSystem.copyFiles, hfirst.mp rfl] using hrest

variable {readDir : Directory → List (Sigma fun _ : String => Tree)}

/-- What holds of the plain files listed holds of the names that have one. -/
theorem forall_listed_iff (hlists : FileSystem.ListsOnce readDir) (entries : Directory)
    (motive : String → Prop) :
    (∀ entry ∈ readDir entries, entry.2.file?.isSome → motive entry.1) ↔
      ∀ name, (plainFile entries name).isSome → motive name := by
  constructor
  · intro hlisted name hfile
    obtain ⟨content, hcontent⟩ := Option.isSome_iff_exists.mp hfile
    obtain ⟨tree, htree, hread⟩ := Option.bind_eq_some_iff.mp hcontent
    have hmem : ⟨name, tree⟩ ∈ readDir entries :=
      (hlists entries).mem_iff.mpr (AList.mem_lookup_iff.mp htree)
    exact hlisted _ hmem (Option.isSome_iff_exists.mpr ⟨content, hread⟩)
  · intro hplain entry hmem hfile
    have htree : entries.lookup entry.1 = some entry.2 :=
      AList.mem_lookup_iff.mpr ((hlists entries).mem_iff.mp hmem)
    refine hplain entry.1 ?_
    rw [plainFile, htree]
    exact hfile

/-- What a source holds, one that is not the target holds when that has been made. -/
theorem find_createDirAll_of_ne (hne : source ≠ target) :
    (fs.createDirAll target).find source = fs.find source := by
  rw [FileSystem.find, FileSystem.find, FileSystem.createDirAll]
  split
  · rfl
  · split
    · rfl
    · cases fs target with
      | none => exact Function.update_of_ne hne ..
      | some location => rfl

/-- Making a directory makes it ready, and blocks no name that was free. -/
theorem isBlocked_createDirAll (name : String) :
    IsReady (fs.createDirAll target) target ∧
      (IsBlocked (fs.createDirAll target) target name ↔ IsBlocked fs target name) := by
  by_cases hpath : target = ""
  · rw [FileSystem.createDirAll, if_pos hpath]
    exact ⟨Or.inl hpath, Iff.rfl⟩
  · rw [FileSystem.createDirAll, if_neg hpath]
    cases htarget : fs target with
    | none =>
        have hmade : Function.update fs target (some (.dir ∅)) target = some (.dir ∅) :=
          Function.update_self ..
        refine ⟨Or.inr (by simp), ?_⟩
        rw [isBlocked_of_dir hpath hmade, IsBlocked, if_neg hpath, entriesAt, find_of_ne hpath,
          htarget]
        simp
    | some location => exact ⟨Or.inr (by simp [htarget]), Iff.rfl⟩

/-- **When a command fails.** In whatever order the source is listed, the command fails
exactly when the source is a file, or has a plain file under a name that is blocked: the
target is a file, or there is a directory of that name in it. -/
theorem copyDirectory_eq_none_iff (hlists : FileSystem.ListsOnce readDir)
    (hne : source ≠ target) :
    fs.copyDirectory readDir source target = none ↔
      (∃ content, fs.find source = some (.file content)) ∨
      ∃ name, (plainFile (entriesAt fs source) name).isSome ∧ IsBlocked fs target name := by
  rw [FileSystem.copyDirectory, find_createDirAll_of_ne hne]
  cases hsource : fs.find source with
  | none =>
      have hempty : ∀ name, plainFile (entriesAt fs source) name = none := by
        intro name
        rw [entriesAt, hsource]
        rfl
      simp [hempty]
  | some location =>
      cases location with
      | file content => simp
      | dir entries =>
          rw [entriesAt_of_dir hsource, ← Option.not_isSome_iff_eq_none]
          dsimp only
          rw [copyFiles_isSome_iff (isBlocked_createDirAll "").1,
            forall_listed_iff hlists entries fun name =>
              ¬IsBlocked (fs.createDirAll target) target name]
          simp only [(isBlocked_createDirAll _).2, not_forall, not_not, exists_prop]
          exact (or_iff_right (by rintro ⟨content, hfile⟩; cases hfile)).symm

/-- A file `a` cannot take the place of a directory `a`. -/
theorem copyDirectory_eq_none_iff_dirInTheWay :
    (withData (Function.update (onlyData ∅) "backup"
      (some (.dir (AList.singleton "a" (.dir []))))) (oneFile [1])).copyDirectory AList.entries
        FileSystem.dataDir "backup" = none :=
  (copyDirectory_eq_none_iff (fun _ => List.Perm.refl _) (by decide)).mpr
    (Or.inr ⟨"a", rfl, Or.inr ⟨[], rfl⟩⟩)

/-- Nothing is copied from a file. -/
theorem copyDirectory_of_file {content : Bytes} (hne : source ≠ target)
    (hfile : fs.find source = some (.file content)) :
    fs.copyDirectory readDir source target = none := by
  rw [FileSystem.copyDirectory, find_createDirAll_of_ne hne, hfile]

/-! ## One snapshot after another -/

/-- What the data directory is at a snapshot, and how directories are listed then. -/
structure SnapshotTaken where
  data : Directory
  readDir : Directory → List (Sigma fun _ : String => Tree)
  listsOnce : FileSystem.ListsOnce readDir

/-- The data changes, and a snapshot is taken. -/
def takeSnapshot (outputDir : String) (fs : FileSystem) (taken : SnapshotTaken) :
    Option FileSystem :=
  (withData fs taken.data).snapshot taken.readDir outputDir

variable {outputDir : String} {taken : List SnapshotTaken}

/-- The data directory holds the data. -/
theorem find_withData (fs : FileSystem) (data : Directory) :
    (withData fs data).find FileSystem.dataDir = some (.dir data) :=
  find_dataDir.trans (Function.update_self ..)

/-- What a run of snapshots leaves in its output directory, and elsewhere. -/
theorem plainFile_snapshots (hpath : outputDir ≠ "") (houtput : outputDir ≠ FileSystem.dataDir)
    (hdir : ∀ content, fs outputDir ≠ some (.file content))
    (hrun : runSteps (takeSnapshot outputDir) fs taken = some after) :
    (∀ content, after outputDir ≠ some (.file content)) ∧
    (∀ name, plainFile (entriesAt after outputDir) name =
      (latest (fun snapshot : SnapshotTaken => plainFile snapshot.data name) taken).or
        (plainFile (entriesAt fs outputDir) name)) ∧
    ∀ other, other ≠ outputDir → other ≠ FileSystem.dataDir → after other = fs other := by
  refine runSteps_induction (motive := fun taken (after : FileSystem) =>
    (∀ content, after outputDir ≠ some (.file content)) ∧
    (∀ name, plainFile (entriesAt after outputDir) name =
      (latest (fun snapshot : SnapshotTaken => plainFile snapshot.data name) taken).or
        (plainFile (entriesAt fs outputDir) name)) ∧
    ∀ other, other ≠ outputDir → other ≠ FileSystem.dataDir → after other = fs other)
    ⟨hdir, fun _ => rfl, fun _ _ _ => rfl⟩ ?_ hrun
  rintro taken before snapshot after - ⟨hnoFile, hsaved, hframe⟩ hstep
  have hsame : withData before snapshot.data outputDir = before outputDir :=
    Function.update_of_ne houtput ..
  have hentries : entriesAt (withData before snapshot.data) outputDir =
      entriesAt before outputDir := by
    rw [entriesAt, entriesAt, find_of_ne hpath, find_of_ne hpath, hsame]
  obtain ⟨⟨final, hfinal, hlookup⟩, hothers⟩ := copyDirectory_eq_some snapshot.listsOnce hpath
    (find_withData before snapshot.data) (by rw [hsame]; exact hnoFile) hstep
  refine ⟨by simp [hfinal], fun name => ?_, fun other hother hdata => ?_⟩
  · rw [entriesAt_of_dir ((find_of_ne hpath).trans hfinal), plainFile, hlookup, latest_concat,
      hentries]
    simp only [copiedContent_of_ne houtput.symm]
    cases hfile : plainFile snapshot.data name with
    | none => exact hsaved name
    | some content => rfl
  · rw [hothers other hother, withData, Function.update_of_ne hdata, hframe other hother hdata]

/-- No snapshot replaces a file that stands where its output directory should. -/
theorem outputDir_of_file (hpath : outputDir ≠ "") (houtput : outputDir ≠ FileSystem.dataDir)
    {content : Bytes}
    (hfile : fs outputDir = some (.file content))
    (hrun : runSteps (takeSnapshot outputDir) fs taken = some after) :
    after outputDir = some (.file content) := by
  refine runSteps_induction (motive := fun _ (after : FileSystem) =>
    after outputDir = some (.file content)) hfile ?_ hrun
  intro taken before snapshot after _ ih hstep
  have hsame : withData before snapshot.data outputDir = some (.file content) :=
    (Function.update_of_ne houtput ..).trans ih
  simp only [takeSnapshot, FileSystem.snapshot, FileSystem.copyDirectory, FileSystem.createDirAll,
    if_neg hpath, hsame, find_withData] at hstep
  rw [copyFiles_of_file hpath hsame hstep]
  exact hsame

/-- **What snapshots and a restore bring back.** After any number of snapshots into one
directory, whatever the data is at each of them and at the restore, each name holds
the plain file it was at the last snapshot that found one there; else the one that
the directory had for it before the first; else what it is by now. No other path
changes. -/
theorem restore_after_snapshots (hpath : outputDir ≠ "")
    (houtput : outputDir ≠ FileSystem.dataDir) (hlists : FileSystem.ListsOnce readDir)
    {snapped restored : FileSystem} {now : Directory}
    (hrun : runSteps (takeSnapshot outputDir) fs taken = some snapped)
    (hrestore : (withData snapped now).restore readDir outputDir = some restored) :
    (∃ final : Directory, restored FileSystem.dataDir = some (.dir final) ∧
      ∀ name, final.lookup name =
        (((latest (fun snapshot : SnapshotTaken => plainFile snapshot.data name) taken).or
          (plainFile (entriesAt fs outputDir) name)).map Tree.file).or (now.lookup name)) ∧
    ∀ other, other ≠ outputDir → other ≠ FileSystem.dataDir → restored other = fs other := by
  have hsame : withData snapped now outputDir = snapped outputDir :=
    Function.update_of_ne houtput ..
  have hnow : withData snapped now FileSystem.dataDir = some (.dir now) :=
    Function.update_self ..
  have hfound : (withData snapped now).find outputDir = snapped outputDir :=
    (find_of_ne hpath).trans hsame
  -- a file there would have made the restore fail
  have hnoFile : ∀ content, fs outputDir ≠ some (.file content) := by
    intro content hfile
    have hfails : (withData snapped now).restore readDir outputDir = none :=
      copyDirectory_of_file houtput
        (hfound.trans (outputDir_of_file hpath houtput hfile hrun))
    cases hrestore.symm.trans hfails
  obtain ⟨hstillNone, hsaved, hframe⟩ := plainFile_snapshots hpath houtput hnoFile hrun
  simp only [← hsaved]
  cases hbackup : snapped outputDir with
  | none =>
      -- nothing was ever saved, and nothing is brought back
      have hnothing : restored = withData snapped now := by
        have hmade : (withData snapped now).createDirAll FileSystem.dataDir =
            withData snapped now := by
          rw [FileSystem.createDirAll, if_neg (by decide), hnow]
        rw [FileSystem.restore, FileSystem.copyDirectory, hmade, hfound, hbackup] at hrestore
        exact (Option.some.inj hrestore).symm
      have hempty : ∀ name, plainFile (entriesAt snapped outputDir) name = none := by
        intro name
        rw [entriesAt, find_of_ne hpath, hbackup]
        rfl
      rw [hnothing]
      refine ⟨⟨now, hnow, fun name => by rw [hempty]; rfl⟩, fun other hother hdata => ?_⟩
      rw [withData, Function.update_of_ne hdata, hframe other hother hdata]
  | some location =>
      cases location with
      | file content => exact absurd hbackup (hstillNone content)
      | dir backup =>
          obtain ⟨⟨final, hfinal, hlookup⟩, hothers⟩ := copyDirectory_eq_some hlists
            (by decide) (hfound.trans hbackup) (by simp [hnow]) hrestore
          refine ⟨⟨final, hfinal, fun name => ?_⟩, fun other hother hdata => ?_⟩
          · rw [hlookup, entriesAt_of_dir (find_withData snapped now),
              entriesAt_of_dir ((find_of_ne hpath).trans hbackup)]
            simp only [copiedContent_of_ne houtput]
          · rw [hothers other hdata, withData, Function.update_of_ne hdata,
              hframe other hother hdata]

/-- Two snapshots, of which the second no longer finds the file of the first. -/
def fileThenOther : List SnapshotTaken :=
  [⟨oneFile [1], AList.entries, fun _ => List.Perm.refl _⟩,
    ⟨AList.singleton "b" (.file [2]), AList.entries, fun _ => List.Perm.refl _⟩]

theorem restore_after_snapshots_fileThenOther :
    ∃ snapped restored, runSteps (takeSnapshot "backup") (onlyData ∅) fileThenOther =
        some snapped ∧
      (withData snapped ∅).restore AList.entries "backup" = some restored ∧
      ∃ final : Directory, restored FileSystem.dataDir = some (.dir final) ∧
        final.lookup "a" = some (.file [1]) ∧ final.lookup "b" = some (.file [2]) := by
  obtain ⟨snapped, hrun, restored, hrestore⟩ : ∃ snapped,
      runSteps (takeSnapshot "backup") (onlyData ∅) fileThenOther = some snapped ∧
      ∃ restored, (withData snapped ∅).restore AList.entries "backup" = some restored :=
    ⟨_, rfl, _, rfl⟩
  obtain ⟨⟨final, hfinal, hlookup⟩, -⟩ :=
    restore_after_snapshots (by decide) (by decide) (fun _ => List.Perm.refl _) hrun hrestore
  refine ⟨snapped, restored, hrun, hrestore, final, hfinal, ?_, ?_⟩
  · rw [hlookup]
    rfl
  · rw [hlookup]
    rfl

end ServerGo.Analysis
