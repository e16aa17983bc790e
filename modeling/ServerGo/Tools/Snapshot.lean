/-
# The snapshot and restore commands

Both commands are one loop: create the target directory, list the source, and
copy every plain file of it into the target under its own name. Nothing is
removed anywhere and subdirectories are passed over. A failed copy or listing
ends the process, which is `none` here.

The file system holds what the paths that commands name have been resolved to: two
that differ stand for separate directories, neither inside the other. The empty path
is kept as it is given. There is never anything at it, no directory is made for it,
and joined with the name of a file it is that name in the working directory.
-/

import Mathlib.Data.List.AList
import ServerGo.Storage.Record

namespace ServerGo.Tools

open ServerGo.Storage

/-- A file with its content or a directory with what is in it. -/
inductive Tree
  | file (content : Bytes)
  | dir (entries : List (String × Tree))

/-- `Path::is_file`, with the content of the file. -/
def Tree.file? : Tree → Option Bytes
  | .file content => some content
  | .dir _ => none

@[simp]
theorem Tree.file?_eq_some_iff {tree : Tree} {content : Bytes} :
    tree.file? = some content ↔ tree = .file content := by
  cases tree <;> simp [Tree.file?]

/-- The entries of a directory, each name once. -/
abbrev Directory := AList fun _ : String => Tree

/-- What a path names. -/
inductive Location
  | file (content : Bytes)
  | dir (entries : Directory)

/-- What each path names, when it names anything. -/
abbrev FileSystem := String → Option Location

namespace FileSystem

/-- What there is at a path, when `Path::exists`. -/
def find (fs : FileSystem) (path : String) : Option Location :=
  if path = "" then none else fs path

/-- `let _ = std::fs::create_dir_all(path)`: an error, as when the path is a
plain file, is dropped. -/
def createDirAll (path : String) (fs : FileSystem) : FileSystem :=
  if path = "" then fs
  else
    match fs path with
    | none => Function.update fs path (some (.dir ∅))
    | some _ => fs

/-- A file is created, or one that is there rewritten, at `path.join(name)`. It must
lie in a directory, or in the working directory, and must not be one. -/
def writeTo (path : String) (fs : FileSystem) (name : String) (content : Bytes) :
    Option FileSystem :=
  if path = "" then
    match fs name with
    | some (.dir _) => none
    | _ => some (Function.update fs name (some (.file content)))
  else
    match fs path with
    | some (.dir entries) =>
        match entries.lookup name with
        | some (.dir _) => none
        | _ => some (Function.update fs path (some (.dir (entries.insert name (.file content)))))
    | _ => none

/-- What is in a file that `std::fs::copy` has made. The target is emptied before the
source is read, so a file that is copied onto itself ends with nothing in it. -/
def copiedContent (source target : String) (content : Bytes) : Bytes :=
  if source = target then [] else content

/-- `std::fs::copy(source.join(name), target.join(name)).unwrap()`. -/
def copyTo (source target : String) (fs : FileSystem) (name : String) (content : Bytes) :
    Option FileSystem :=
  fs.writeTo target name (copiedContent source target content)

/-- `std::fs::read_dir`: any order in which each entry of a directory comes once.
-/
def ListsOnce (readDir : Directory → List (Sigma fun _ : String => Tree)) : Prop :=
  ∀ entries, (readDir entries).Perm entries.entries

variable (readDir : Directory → List (Sigma fun _ : String => Tree))

/-- The body of the loop of both commands: an entry that is not a plain file is
passed over. -/
def copyEntry (source target : String) (fs : FileSystem)
    (entry : Sigma fun _ : String => Tree) : Option FileSystem :=
  match entry.2.file? with
  | some content => fs.copyTo source target entry.1 content
  | none => some fs

/-- The loop over the entries of a directory. -/
def copyFiles (source target : String) (listing : List (Sigma fun _ : String => Tree))
    (fs : FileSystem) : Option FileSystem :=
  listing.foldlM (copyEntry source target) fs

/-- Either command: create the target, and copy the plain files of the source
into it if there is a source. -/
def copyDirectory (source target : String) (fs : FileSystem) : Option FileSystem :=
  let fs := fs.createDirAll target
  match fs.find source with
  | some (.dir entries) => fs.copyFiles source target (readDir entries)
  | some (.file _) => none
  | none => some fs

/-- The directory the server keeps its partitions in. -/
def dataDir : String := "data"

/-- `snapshot --output output_dir`. -/
def snapshot (outputDir : String) : FileSystem → Option FileSystem :=
  copyDirectory readDir dataDir outputDir

/-- `restore --input input_dir`. -/
def restore (inputDir : String) : FileSystem → Option FileSystem :=
  copyDirectory readDir inputDir dataDir

end FileSystem

/-! ## The command line -/

/-- What the arguments of the process ask for. -/
inductive Command
  | snapshot (outputDir : String)
  | restore (inputDir : String)
  | serve
  deriving DecidableEq

namespace Command

/-- The argument after the last occurrence of a flag, from the third on. -/
def flagValue (flag : String) (args : List String) : String :=
  ((args.drop 2).zip (args.drop 3)).foldl
    (fun value pair => if pair.1 = flag then pair.2 else value) "data_backup"

/-- The dispatch at the start of `main`. -/
def parse (args : List String) : Command :=
  if args[1]? = some "snapshot" then .snapshot (flagValue "--output" args)
  else if args[1]? = some "restore" then .restore (flagValue "--input" args)
  else .serve

/-- The file system after a command; the server itself is not one of them. -/
def perform (readDir : Directory → List (Sigma fun _ : String => Tree)) (fs : FileSystem) :
    Command → Option FileSystem
  | .snapshot outputDir => fs.snapshot readDir outputDir
  | .restore inputDir => fs.restore readDir inputDir
  | .serve => some fs

theorem parse_snapshot (program outputDir : String) :
    parse [program, "snapshot", "--output", outputDir] = .snapshot outputDir := by
  simp [parse, flagValue]

theorem parse_restore (program inputDir : String) :
    parse [program, "restore", "--input", inputDir] = .restore inputDir := by
  simp [parse, flagValue]

example : parse ["server_go", "snapshot"] = .snapshot "data_backup" := by decide

end Command

end ServerGo.Tools
