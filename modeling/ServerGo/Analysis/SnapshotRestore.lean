/-
# What a restore brings back

Both commands copy plain files by name and remove nothing. So after a restore a
name holds the file it had at the snapshot, if it had one; else a file left in
the backup directory from before the snapshot, if there is one; and else
whatever has become of it in the data directory since. The data is as it was
exactly when the last two never show. The data directory is no backup of itself:
given it, both commands empty every file. Nor is the empty path, from which nothing
is ever restored.
-/

import ServerGo.Tools.Snapshot

namespace ServerGo.Analysis

open ServerGo.Storage ServerGo.Tools

/-- The content of a plain file of a directory. -/
def plainFile (entries : Directory) (name : String) : Option Bytes :=
  (entries.lookup name).bind Tree.file?

/-- The directory at a path, empty when there is none. -/
def entriesAt (fs : FileSystem) (path : String) : Directory :=
  match fs.find path with
  | some (.dir entries) => entries
  | _ => ∅

/-- The names and contents of two directories agree. -/
def SameContents (first second : Directory) : Prop :=
  ∀ name, first.lookup name = second.lookup name

variable {source target : String} {fs copied : FileSystem} {entries : Directory}

theorem find_of_ne {path : String} (hpath : path ≠ "") : fs.find path = fs path :=
  if_neg hpath

theorem find_dataDir : fs.find FileSystem.dataDir = fs FileSystem.dataDir :=
  find_of_ne (by decide)

theorem entriesAt_of_dir {path : String} (hdir : fs.find path = some (.dir entries)) :
    entriesAt fs path = entries := by
  rw [entriesAt, hdir]

/-- Creating a directory changes nothing that is there already. -/
theorem createDirAll_of_some {path : String} {location : Location}
    (hpath : fs path = some location) : fs.createDirAll target path = some location := by
  rw [FileSystem.createDirAll]
  split
  · exact hpath
  cases htarget : fs target with
  | none =>
      have hne : path ≠ target := by
        rintro rfl
        rw [hpath] at htarget
        cases htarget
      exact (Function.update_of_ne hne ..).trans hpath
  | some _ => exact hpath

theorem find_createDirAll_of_some {path : String} {location : Location}
    (hpath : fs.find path = some location) :
    (fs.createDirAll target).find path = some location := by
  rw [FileSystem.find] at hpath ⊢
  split
  next hempty => rw [if_pos hempty] at hpath; cases hpath
  next hempty =>
      rw [if_neg hempty] at hpath
      exact createDirAll_of_some hpath

/-- A copy puts one file in the target and touches nothing else. -/
theorem copyTo_eq_some {name : String} {content : Bytes} (hpath : target ≠ "")
    (htarget : fs target = some (.dir entries))
    (hcopy : fs.copyTo source target name content = some copied) :
    copied = Function.update fs target (some (.dir (entries.insert name
      (.file (FileSystem.copiedContent source target content))))) := by
  rw [FileSystem.copyTo, FileSystem.writeTo, if_neg hpath, htarget] at hcopy
  dsimp only at hcopy
  split at hcopy
  · cases hcopy
  · exact (Option.some.inj hcopy).symm

/-- The loop leaves in the target the plain files listed, and under the other
names what was there. -/
theorem copyFiles_eq_some {listing : List (Sigma fun _ : String => Tree)}
    (hpath : target ≠ "") (hnodup : listing.NodupKeys) (htarget : fs target = some (.dir entries))
    (hcopy : fs.copyFiles source target listing = some copied) :
    (∃ final : Directory, copied target = some (.dir final) ∧ ∀ name, final.lookup name =
      (((listing.dlookup name).bind Tree.file?).map fun content =>
        .file (FileSystem.copiedContent source target content)).or (entries.lookup name)) ∧
    ∀ other, other ≠ target → copied other = fs other := by
  induction listing generalizing fs entries with
  | nil =>
      cases hcopy
      exact ⟨⟨entries, htarget, fun name => by simp⟩, fun _ _ => rfl⟩
  | cons entry listing ih =>
      obtain ⟨key, tree⟩ := entry
      obtain ⟨hfresh, hrest⟩ := List.nodupKeys_cons.mp hnodup
      obtain ⟨between, hfirst, hothers⟩ := Option.bind_eq_some_iff.mp hcopy
      -- the name of the first entry is not listed again
      have habsent : listing.dlookup key = none := List.dlookup_eq_none.mpr hfresh
      cases hfile : tree.file? with
      | none =>
          rw [FileSystem.copyEntry, hfile] at hfirst
          cases hfirst
          obtain ⟨⟨final, hfinal, hlookup⟩, hframe⟩ := ih hrest htarget hothers
          refine ⟨⟨final, hfinal, fun name => ?_⟩, hframe⟩
          rw [hlookup]
          by_cases hname : key = name
          · subst hname
            simp [habsent, hfile]
          · rw [List.dlookup_cons_ne _ _ (Ne.symm hname)]
      | some content =>
          rw [FileSystem.copyEntry, hfile] at hfirst
          have hbetween := copyTo_eq_some hpath htarget hfirst
          have hinserted : between target = some (.dir (entries.insert key
              (.file (FileSystem.copiedContent source target content)))) := by
            rw [hbetween, Function.update_self]
          obtain ⟨⟨final, hfinal, hlookup⟩, hframe⟩ := ih hrest hinserted hothers
          refine ⟨⟨final, hfinal, fun name => ?_⟩, fun other hother => ?_⟩
          · rw [hlookup]
            by_cases hname : key = name
            · subst hname
              simp [habsent, hfile, AList.lookup_insert]
            · rw [List.dlookup_cons_ne _ _ (Ne.symm hname), AList.lookup_insert_ne (Ne.symm hname)]
          · rw [hframe other hother, hbetween, Function.update_of_ne hother]

/-- A loop that succeeds on a target that is no directory found nothing to copy. -/
theorem copyFiles_of_file {listing : List (Sigma fun _ : String => Tree)} {content : Bytes}
    (hpath : target ≠ "") (htarget : fs target = some (.file content))
    (hcopy : fs.copyFiles source target listing = some copied) : copied = fs := by
  induction listing generalizing fs with
  | nil => exact (Option.some.inj hcopy).symm
  | cons entry listing ih =>
      obtain ⟨between, hfirst, hothers⟩ := Option.bind_eq_some_iff.mp hcopy
      rw [FileSystem.copyEntry] at hfirst
      split at hfirst
      · rw [FileSystem.copyTo, FileSystem.writeTo, if_neg hpath, htarget] at hfirst
        cases hfirst
      · cases hfirst
        exact ih htarget hothers

variable {readDir : Directory → List (Sigma fun _ : String => Tree)} {sourceEntries : Directory}

/-- A command that succeeds leaves in its target the plain files of its source,
and under the other names what was there. -/
theorem copyDirectory_eq_some (hlists : FileSystem.ListsOnce readDir) (hpath : target ≠ "")
    (hsource : fs.find source = some (.dir sourceEntries))
    (htarget : ∀ content, fs target ≠ some (.file content))
    (hcopy : fs.copyDirectory readDir source target = some copied) :
    (∃ final : Directory, copied target = some (.dir final) ∧ ∀ name, final.lookup name =
      ((plainFile sourceEntries name).map fun content =>
        .file (FileSystem.copiedContent source target content)).or
          ((entriesAt fs target).lookup name)) ∧
    ∀ other, other ≠ target → copied other = fs other := by
  have hcreated : fs.createDirAll target target = some (.dir (entriesAt fs target)) ∧
      ∀ other, other ≠ target → fs.createDirAll target other = fs other := by
    rw [FileSystem.createDirAll, if_neg hpath, entriesAt, find_of_ne hpath]
    cases hlocation : fs target with
    | none => exact ⟨Function.update_self .., fun other hother => Function.update_of_ne hother ..⟩
    | some location =>
        cases location with
        | file content => exact absurd hlocation (htarget content)
        | dir entries => exact ⟨hlocation, fun _ _ => rfl⟩
  obtain ⟨hdirectory, hkept⟩ := hcreated
  have hperm := hlists sourceEntries
  have hnodup : (readDir sourceEntries).NodupKeys :=
    (List.perm_nodupKeys hperm).mpr sourceEntries.nodupKeys
  simp only [FileSystem.copyDirectory, find_createDirAll_of_some hsource] at hcopy
  obtain ⟨⟨final, hfinal, hlookup⟩, hframe⟩ := copyFiles_eq_some hpath hnodup hdirectory hcopy
  refine ⟨⟨final, hfinal, fun name => ?_⟩, fun other hother => ?_⟩
  · rw [hlookup, List.perm_dlookup name hnodup hperm]
    rfl
  · rw [hframe other hother, hkept other hother]

/-- A file that comes from another directory keeps its content. -/
theorem copiedContent_of_ne (hne : source ≠ target) (content : Bytes) :
    FileSystem.copiedContent source target content = content :=
  if_neg hne

/-! ## What a restore leaves in the data

The output directory may be any path: one apart from the data, the data directory
itself, or the empty path.
-/

variable {outputDir : String} {snapped changed restored : FileSystem} {before now : Directory}

/-- **What a name holds after a restore** from another directory: the file it was at the
snapshot, else the file that directory had for it before, else what it is by now. -/
theorem lookup_of_restore (hlists : FileSystem.ListsOnce readDir) (hpath : outputDir ≠ "")
    (hapart : outputDir ≠ FileSystem.dataDir)
    (hbefore : fs FileSystem.dataDir = some (.dir before))
    (hsnapshot : fs.snapshot readDir outputDir = some snapped)
    (hkept : changed outputDir = snapped outputDir)
    (hnow : changed FileSystem.dataDir = some (.dir now))
    (hrestore : changed.restore readDir outputDir = some restored) :
    ∃ final : Directory, restored FileSystem.dataDir = some (.dir final) ∧
      ∀ name, final.lookup name = (((plainFile before name).or
        (plainFile (entriesAt fs outputDir) name)).map Tree.file).or (now.lookup name) := by
  have hdata : fs.find FileSystem.dataDir = some (.dir before) := find_dataDir.trans hbefore
  have htarget : ∀ content, fs outputDir ≠ some (.file content) := by
    intro content hfile
    have hsame : snapped = fs := by
      simp only [FileSystem.snapshot, FileSystem.copyDirectory, FileSystem.createDirAll,
        if_neg hpath, hfile, hdata] at hsnapshot
      exact copyFiles_of_file hpath hfile hsnapshot
    have hthere : changed.find outputDir = some (.file content) :=
      (find_of_ne hpath).trans (hkept.trans (hsame ▸ hfile))
    have hsource : (changed.createDirAll FileSystem.dataDir).find outputDir =
        some (.file content) := find_createDirAll_of_some hthere
    simp only [FileSystem.restore, FileSystem.copyDirectory, hsource] at hrestore
    cases hrestore
  obtain ⟨⟨backup, hbackup, hsaved⟩, -⟩ :=
    copyDirectory_eq_some hlists hpath hdata htarget hsnapshot
  have hdirectory : ∀ content, changed FileSystem.dataDir ≠ some (.file content) := by
    simp [hnow]
  have hthere : changed.find outputDir = some (.dir backup) :=
    (find_of_ne hpath).trans (hkept.trans hbackup)
  obtain ⟨⟨final, hfinal, hlookup⟩, -⟩ :=
    copyDirectory_eq_some hlists (by decide) hthere hdirectory hrestore
  refine ⟨final, hfinal, fun name => ?_⟩
  have hfiles : plainFile backup name =
      (plainFile before name).or (plainFile (entriesAt fs outputDir) name) := by
    rw [plainFile, hsaved]
    simp only [copiedContent_of_ne hapart.symm]
    cases plainFile before name <;> rfl
  rw [hlookup, hfiles, entriesAt_of_dir (find_dataDir.trans hnow)]
  simp only [copiedContent_of_ne hapart]

/-- What is left of an entry that has been copied onto itself. -/
def emptied : Tree → Tree
  | .file _ => .file []
  | .dir entries => .dir entries

/-- A restore from the data directory empties its files. -/
theorem lookup_of_restore_self (hlists : FileSystem.ListsOnce readDir)
    (hnow : changed FileSystem.dataDir = some (.dir now))
    (hrestore : changed.restore readDir FileSystem.dataDir = some restored) :
    ∃ final : Directory, restored FileSystem.dataDir = some (.dir final) ∧
      ∀ name, final.lookup name = (now.lookup name).map emptied := by
  have hdata : changed.find FileSystem.dataDir = some (.dir now) := find_dataDir.trans hnow
  obtain ⟨⟨final, hfinal, hlookup⟩, -⟩ :=
    copyDirectory_eq_some hlists (by decide) hdata (by simp [hnow]) hrestore
  refine ⟨final, hfinal, fun name => ?_⟩
  rw [hlookup, entriesAt_of_dir hdata, plainFile]
  simp only [FileSystem.copiedContent, if_true]
  cases htree : now.lookup name with
  | none => rfl
  | some tree => cases tree <;> rfl

/-- From the empty path nothing is restored. -/
theorem restore_empty (hnow : changed FileSystem.dataDir = some (.dir now))
    (hrestore : changed.restore readDir "" = some restored) : restored = changed := by
  have hsame : changed.createDirAll FileSystem.dataDir = changed := by
    rw [FileSystem.createDirAll, if_neg (by decide), hnow]
  rw [FileSystem.restore, FileSystem.copyDirectory, hsame] at hrestore
  exact (Option.some.inj hrestore).symm

/-- When a restore finds what it needs to bring the data back. From another directory:
what was no plain file at the snapshot has none left there from before, and is now what
it was then. From the data directory: emptied, the data is what it was. From the empty
path: the data is as it was. -/
def BringsBack (fs : FileSystem) (outputDir : String) (before now : Directory) : Prop :=
  if outputDir = "" then SameContents now before
  else if outputDir = FileSystem.dataDir then
    ∀ name, (now.lookup name).map emptied = before.lookup name
  else
    ∀ name, plainFile before name = none →
      plainFile (entriesAt fs outputDir) name = none ∧ now.lookup name = before.lookup name

/-- A restored directory that has been looked up is the one in question. -/
theorem sameContents_iff_of_dir {final : Directory}
    (hfinal : restored FileSystem.dataDir = some (.dir final)) :
    (∃ other : Directory, restored FileSystem.dataDir = some (.dir other) ∧
      SameContents other before) ↔ SameContents final before := by
  constructor
  · rintro ⟨other, hother, hsame⟩
    cases Location.dir.inj (Option.some.inj (hfinal.symm.trans hother))
    exact hsame
  · exact fun hsame => ⟨final, hfinal, hsame⟩

/-- The plain files of the snapshot come back from another directory, and all else has to
be as it was. -/
theorem lookup_eq_iff (saved : Option Bytes) (name : String) :
    (((plainFile before name).or saved).map Tree.file).or (now.lookup name) =
        before.lookup name ↔
      (plainFile before name = none →
        saved = none ∧ now.lookup name = before.lookup name) := by
  cases hfile : plainFile before name with
  | some content =>
      obtain ⟨tree, htree, hcontent⟩ := Option.bind_eq_some_iff.mp hfile
      rw [htree, Tree.file?_eq_some_iff.mp hcontent]
      exact iff_of_true rfl fun hnone => by cases hnone
  | none =>
      rw [Option.none_or]
      cases saved with
      | none => simp
      | some content =>
          -- the leftover would have become a plain file of the data
          refine iff_of_false (fun hname => ?_) (by simp)
          rw [plainFile, ← hname] at hfile
          cases hfile

/-- **When a restore undoes everything since the snapshot.** A snapshot of the data
directory to a directory apart from it, to itself or to the empty path, with any
previous content there, any changes to the data, and a restore from the same path, all
successful, leave the names and contents there were at the snapshot if and only if the
restore finds what it needs to bring them back. -/
theorem restore_undoes_iff (hlists : FileSystem.ListsOnce readDir) (program : String)
    (hbefore : fs FileSystem.dataDir = some (.dir before))
    (hsnapshot : (Command.parse [program, "snapshot", "--output", outputDir]).perform readDir fs =
      some snapped)
    (hkept : outputDir ≠ FileSystem.dataDir → changed outputDir = snapped outputDir)
    (hnow : changed FileSystem.dataDir = some (.dir now))
    (hrestore : (Command.parse [program, "restore", "--input", outputDir]).perform readDir
      changed = some restored) :
    (∃ final : Directory, restored FileSystem.dataDir = some (.dir final) ∧
      SameContents final before) ↔ BringsBack fs outputDir before now := by
  rw [Command.parse_snapshot] at hsnapshot
  rw [Command.parse_restore] at hrestore
  rw [BringsBack]
  split_ifs with hempty hdata
  · subst hempty
    rw [restore_empty hnow hrestore]
    exact sameContents_iff_of_dir hnow
  · subst hdata
    obtain ⟨final, hfinal, hlookup⟩ := lookup_of_restore_self hlists hnow hrestore
    rw [sameContents_iff_of_dir hfinal, SameContents]
    simp only [hlookup]
  · obtain ⟨final, hfinal, hlookup⟩ :=
      lookup_of_restore hlists hempty hdata hbefore hsnapshot (hkept hdata) hnow hrestore
    rw [sameContents_iff_of_dir hfinal, SameContents]
    simp only [hlookup, lookup_eq_iff]

/-- Data of one file. -/
def oneFile (content : Bytes) : Directory := AList.singleton "a" (.file content)

/-- A file system with nothing but the data directory. -/
def onlyData (entries : Directory) : FileSystem := fun path =>
  if path = FileSystem.dataDir then some (.dir entries) else none

/-- The same file system with other data. -/
def withData (fs : FileSystem) (entries : Directory) : FileSystem :=
  Function.update fs FileSystem.dataDir (some (.dir entries))

theorem restore_undoes_iff_oneFile :
    ∃ snapped restored : FileSystem,
      (Command.parse ["server_go", "snapshot", "--output", "backup"]).perform AList.entries
        (onlyData (oneFile [1])) = some snapped ∧
      (Command.parse ["server_go", "restore", "--input", "backup"]).perform AList.entries
        (withData snapped (oneFile [2])) = some restored ∧
      ((∃ final : Directory, restored FileSystem.dataDir = some (.dir final) ∧
          SameContents final (oneFile [1])) ↔
        BringsBack (onlyData (oneFile [1])) "backup" (oneFile [1]) (oneFile [2])) := by
  obtain ⟨snapped, restored, hsnapshot, hrestore⟩ : ∃ snapped restored : FileSystem,
      (Command.parse ["server_go", "snapshot", "--output", "backup"]).perform AList.entries
        (onlyData (oneFile [1])) = some snapped ∧
      (Command.parse ["server_go", "restore", "--input", "backup"]).perform AList.entries
        (withData snapped (oneFile [2])) = some restored := ⟨_, _, rfl, rfl⟩
  have hkept : "backup" ≠ FileSystem.dataDir →
      withData snapped (oneFile [2]) "backup" = snapped "backup" :=
    fun hapart => Function.update_of_ne hapart ..
  exact ⟨snapped, restored, hsnapshot, hrestore,
    restore_undoes_iff (fun _ => List.Perm.refl _) "server_go" rfl hsnapshot hkept
      (Function.update_self ..) hrestore⟩

/-- A file created after the snapshot is still there after the restore. -/
theorem not_restored_of_created :
    ∃ snapped restored : FileSystem,
      (Command.parse ["server_go", "snapshot", "--output", "backup"]).perform AList.entries
        (onlyData (oneFile [1])) = some snapped ∧
      (Command.parse ["server_go", "restore", "--input", "backup"]).perform AList.entries
        (withData snapped ((oneFile [1]).insert "b" (.file [2]))) = some restored ∧
      ¬∃ final : Directory, restored FileSystem.dataDir = some (.dir final) ∧
        SameContents final (oneFile [1]) := by
  refine ⟨_, _, rfl, rfl, ?_⟩
  rintro ⟨final, hfinal, hsame⟩
  cases hfinal
  exact absurd (congrArg Option.isSome (hsame "b")) (by decide)

end ServerGo.Analysis
